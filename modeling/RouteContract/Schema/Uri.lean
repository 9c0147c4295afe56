import RouteContract.Text.Blank

/-!
# Base addresses

A schema may name its own address, and a reference inside it is taken relative to that. This module
joins a base address with a relative one.
-/

namespace RouteContract.Schema

set_option autoImplicit false

/-- The parts of an address. -/
structure Uri where
  scheme : List Char
  authority : List Char
  path : List Char
  query : List Char
  fragment : List Char
deriving Repr, DecidableEq

namespace Uri

/-- A text cut at the first occurrence of a character; the second part is empty when there is none.
-/
def cutAt (stop : Char) (s : List Char) : List Char × List Char :=
  (s.takeWhile (· != stop), (s.dropWhile (· != stop)).drop 1)

/-- Characters of a scheme after its first letter. -/
def isSchemePart (c : Char) : Bool := c.isAlphanum || c == '+' || c == '-' || c == '.'

/-- The scheme of an address, in lower case, and what follows its colon. -/
def takeScheme (s : List Char) : List Char × List Char :=
  let (front, rest) := cutAt ':' s
  match front with
  | [] => ([], s)
  | c :: more =>
      if c.isAlpha && more.all isSchemePart && s.contains ':' then (front.map Char.toLower, rest)
      else ([], s)

/-- The parts of an address; the scheme given counts where the address names none. -/
def parse (scheme : List Char) (s : List Char) : Uri :=
  let (own, rest) := takeScheme s
  let (body, fragment) := cutAt '#' rest
  let (front, query) := cutAt '?' body
  let scheme := if own.isEmpty then scheme else own
  match front with
  | '/' :: '/' :: more =>
      ⟨scheme, more.takeWhile (· != '/'), more.dropWhile (· != '/'), query, fragment⟩
  | _ => ⟨scheme, [], front, query, fragment⟩

/-- An address from its parts. -/
def render (u : Uri) : List Char :=
  let path :=
    if u.authority.isEmpty then u.path
    else
      let path := if u.path.isEmpty || u.path.head? == some '/' then u.path else '/' :: u.path
      '/' :: '/' :: u.authority ++ path
  (if u.scheme.isEmpty then [] else u.scheme ++ [':']) ++ path ++
    (if u.query.isEmpty then [] else '?' :: u.query) ++
    (if u.fragment.isEmpty then [] else '#' :: u.fragment)

/-- The schemes under which addresses are relative to one another. -/
def relativeSchemes : List String :=
  ["", "ftp", "http", "gopher", "nntp", "imap", "wais", "file", "https", "shttp", "mms", "prospero",
    "rtsp", "rtspu", "sftp", "svn", "svn+ssh", "ws", "wss"]

/-- The segments of a path after steps to the same and to the upper level. -/
def resolveSegments : List (List Char) → List (List Char) → List (List Char)
  | done, [] => done.reverse
  | done, segment :: rest =>
      if segment = ['.', '.'] then resolveSegments done.tail rest
      else if segment = ['.'] then resolveSegments done rest
      else resolveSegments (segment :: done) rest

/-- A list without the empty texts between its first and its last element. -/
def dropInnerEmpty (segments : List (List Char)) : List (List Char) :=
  match segments with
  | [] => []
  | first :: rest =>
      first :: ((rest.dropLast.filter fun s => !s.isEmpty) ++ rest.drop (rest.length - 1))

/-- A path relative to another one. -/
def joinPath (base path : List Char) : List Char :=
  let upper := Text.splitAt '/' base
  let upper := if upper.getLast? == some [] then upper else upper.dropLast
  let segments :=
    if path.head? == some '/' then Text.splitAt '/' path
    else dropInnerEmpty (upper ++ Text.splitAt '/' path)
  let resolved := resolveSegments [] segments
  let last := segments.getLast?
  let closed := if last == some ['.'] || last == some ['.', '.'] then resolved ++ [[]] else resolved
  let joined := Text.join ['/'] closed
  if joined.isEmpty then ['/'] else joined

/-- An address relative to a base address. -/
def joinChars (base address : List Char) : List Char :=
  if base.isEmpty then address
  else if address.isEmpty then base
  else
    let b := parse [] base
    let u := parse b.scheme address
    if u.scheme != b.scheme || !relativeSchemes.contains (String.ofList u.scheme) then address
    else if !u.authority.isEmpty then render u
    else if u.path.isEmpty then
      let query := if u.query.isEmpty then b.query else u.query
      render { b with query := query, fragment := u.fragment }
    else render { u with authority := b.authority, path := joinPath b.path u.path }

end Uri

/-- An address relative to a base address. -/
def joinUri (base address : String) : String :=
  String.ofList (Uri.joinChars base.toList address.toList)

end RouteContract.Schema

import RouteContract.Proofs.Json.Pointer

/-!
# Segments between slashes

A segment is escaped by two replacements over all of it, each `~` by `~0` and then each `/` by `~1`,
and it is read by the two opposite ones in the opposite order (`escape_eq_replaceAll`,
`unescape_eq_replaceAll`). Since no escaped segment has a slash, the texts between the slashes of a
pointer are the escaped segments, the empty ones included, so that a pointer has one list of
segments and goes on behind another one (`pointers_unambiguous`).
-/

set_option autoImplicit false

namespace RouteContract.Text

/-! ## Replacements -/

/-- A text in which every occurrence of an old text is replaced by a new one. Occurrences are found
from left to right and do not overlap; the first `skipped` characters are what is left of one that
was found before. -/
def replaceFrom (old new : List Char) : Nat → List Char → List Char
  | _, [] => []
  | skipped + 1, _ :: rest => replaceFrom old new skipped rest
  | 0, c :: rest =>
      if old.isPrefixOf (c :: rest) then new ++ replaceFrom old new (old.length - 1) rest
      else c :: replaceFrom old new 0 rest

/-- A text in which every occurrence of an old text, which is not empty, is replaced by a new one.
-/
def replaceAll (old new s : List Char) : List Char := replaceFrom old new 0 s

section Replacement

variable {old new rest : List Char} {c d : Char}

@[simp] theorem replaceAll_nil (old new : List Char) : replaceAll old new [] = [] := rfl

theorem replaceFrom_eq_drop (old new : List Char) (skipped : Nat) (s : List Char) :
    replaceFrom old new skipped s = replaceAll old new (s.drop skipped) := by
  induction skipped generalizing s with
  | zero => rfl
  | succ skipped ih =>
      cases s with
      | nil => rfl
      | cons c rest => exact ih rest

/-- An occurrence at the front is replaced, and the replacement goes on behind it. -/
theorem replaceAll_append (c : Char) (more new rest : List Char) :
    replaceAll (c :: more) new (c :: more ++ rest) = new ++ replaceAll (c :: more) new rest := by
  have occurs : (c :: more).isPrefixOf (c :: (more ++ rest)) = true :=
    List.isPrefixOf_iff_prefix.2 (List.prefix_append ..)
  rw [replaceAll, List.cons_append, replaceFrom, if_pos occurs, replaceFrom_eq_drop]
  exact congrArg (new ++ replaceAll _ _ ·) List.drop_left

/-- A character at which no occurrence begins stays. -/
theorem replaceAll_cons_of_absent (absent : ¬ old <+: c :: rest) :
    replaceAll old new (c :: rest) = c :: replaceAll old new rest := by
  rw [replaceAll, replaceFrom, if_neg fun occurs => absent (List.isPrefixOf_iff_prefix.1 occurs)]
  rfl

theorem replaceAll_cons_of_ne {more : List Char} (ne : d ≠ c) :
    replaceAll (d :: more) new (c :: rest) = c :: replaceAll (d :: more) new rest := by
  refine replaceAll_cons_of_absent fun occurs => ?_
  exact ne (List.cons_prefix_cons.1 occurs).1

/-- A replacement of one character is made letter by letter. -/
theorem replaceAll_singleton (d : Char) (new s : List Char) :
    replaceAll [d] new s = s.flatMap fun c => if c = d then new else [c] := by
  induction s with
  | nil => rfl
  | cons c rest ih =>
      rw [List.flatMap_cons, ← ih]
      by_cases same : c = d
      · subst same
        rw [if_pos rfl]
        exact replaceAll_append c [] new rest
      · rw [if_neg same]
        exact replaceAll_cons_of_ne (Ne.symm same)

/-- What a replaced text begins with begins the new text, or the text itself. -/
theorem head?_of_replaceAll {s : List Char} (first : (replaceAll old new s).head? = some d)
    (some : old ≠ []) (written : new ≠ []) : new.head? = .some d ∨ s.head? = .some d := by
  cases s with
  | nil => cases first
  | cons c rest =>
      by_cases occurs : old <+: c :: rest
      · obtain ⟨behind, whole⟩ := occurs
        obtain ⟨o, more, rfl⟩ := List.exists_cons_of_ne_nil some
        rw [← whole, replaceAll_append, List.head?_append_of_ne_nil _ written] at first
        exact .inl first
      · rw [replaceAll_cons_of_absent occurs] at first
        exact .inr first

end Replacement

end RouteContract.Text

namespace RouteContract.Pointer

open Text

/-! ## Escaping -/

/-- A segment is escaped by one replacement after the other. -/
theorem escape_eq_replaceAll (s : List Char) :
    escape s = replaceAll ['/'] ['~', '1'] (replaceAll ['~'] ['~', '0'] s) := by
  rw [replaceAll_singleton, replaceAll_singleton, List.flatMap_assoc, escape]
  congr 1
  funext c
  rw [escapeChar]
  split
  · rfl
  · rw [List.flatMap_singleton]

/-- The segment of an escaped text: each `~1` is replaced by a slash, and then each `~0` by `~`. -/
def decode (s : List Char) : List Char :=
  replaceAll ['~', '0'] ['~'] (replaceAll ['~', '1'] ['/'] s)

section Decoding

variable {c : Char} {rest : List Char}

theorem decode_slash (rest : List Char) : decode ('~' :: '1' :: rest) = '/' :: decode rest := by
  rw [decode, show '~' :: '1' :: rest = ['~', '1'] ++ rest from rfl, replaceAll_append]
  exact replaceAll_cons_of_ne (by decide)

theorem decode_tilde (rest : List Char) : decode ('~' :: '0' :: rest) = '~' :: decode rest := by
  have apart : ¬ ['~', '1'] <+: '~' :: '0' :: rest := by
    intro occurs
    have second := (List.cons_prefix_cons.1 occurs).2
    exact absurd (List.cons_prefix_cons.1 second).1 (by decide)
  have kept : replaceAll ['~', '1'] ['/'] ('0' :: rest) =
      '0' :: replaceAll ['~', '1'] ['/'] rest := by
    apply replaceAll_cons_of_ne
    decide
  rw [decode, replaceAll_cons_of_absent apart, kept]
  exact replaceAll_append '~' ['0'] ['~'] _

theorem decode_cons_of_ne (ne : c ≠ '~') : decode (c :: rest) = c :: decode rest := by
  rw [decode, replaceAll_cons_of_ne ne.symm, replaceAll_cons_of_ne ne.symm]
  rfl

/-- A `~` that begins no escape stays: the slashes that are put in make no escape of it. -/
theorem decode_loose (zero : rest.head? ≠ some '0') (one : rest.head? ≠ some '1') :
    decode ('~' :: rest) = '~' :: decode rest := by
  have apart {d : Char} {s : List Char} (ne : s.head? ≠ some d) : ¬ ['~', d] <+: '~' :: s := by
    rintro ⟨behind, whole⟩
    rw [← (List.cons.inj whole).2] at ne
    exact ne rfl
  rw [decode, replaceAll_cons_of_absent (apart one), replaceAll_cons_of_absent]
  · rfl
  · apply apart
    intro first
    rcases head?_of_replaceAll first (List.cons_ne_nil _ _) (List.cons_ne_nil _ _) with slash | same
    · cases slash
    · exact zero same

end Decoding

/-- Reading an escaped segment from left to right is making the two replacements. -/
theorem unescape_eq_decode (s : List Char) : unescape s = decode s := by
  fun_induction unescape s with
  | case1 => rfl
  | case2 rest ih => rw [ih, decode_slash]
  | case3 rest ih => rw [ih, decode_tilde]
  | case4 c rest noSlash noTilde ih =>
      rw [ih]
      by_cases same : c = '~'
      · subst same
        refine (decode_loose ?_ ?_).symm
        · intro zero
          obtain ⟨tail, rfl⟩ := List.head?_eq_some_iff.1 zero
          exact noTilde tail rfl rfl
        · intro one
          obtain ⟨tail, rfl⟩ := List.head?_eq_some_iff.1 one
          exact noSlash tail rfl rfl
      · exact (decode_cons_of_ne same).symm

/-- The other order of the two replacements reads another segment. -/
example :
    replaceAll ['~', '1'] ['/'] (replaceAll ['~', '0'] ['~'] (escape ['~', '1'])) = ['/'] := by
  decide

/-! ## Pointers -/

/-- The segments of a pointer: the texts after each slash behind the hash sign, read one by one. -/
def segmentsOf (pointer : String) : List String :=
  (splitAt '/' (pointer.toList.drop 1)).tail.map fun s => String.ofList (decode s)

theorem splitAt_renderChars (path : List String) :
    splitAt '/' (renderChars path) = [] :: path.map fun s => escape s.toList := by
  induction path with
  | nil => rfl
  | cons segment more ih =>
      have first := splitAt_append (slash_not_mem_escape segment.toList) ih
      rw [List.append_nil] at first
      rw [renderChars, List.flatMap_cons, ← renderChars, List.cons_append, splitAt_cons, if_pos rfl,
        first]
      rfl

theorem segmentsOf_fragment (path : List String) : segmentsOf (fragment path) = path := by
  rw [segmentsOf, toList_fragment, List.drop_one, List.tail_cons, splitAt_renderChars,
    List.tail_cons, List.map_map]
  refine List.map_id'' (fun segment => ?_) path
  rw [Function.comp_apply, ← unescape_eq_decode, unescape_escape, String.ofList_toList]

/-- **Pointers are unambiguous.** A pointer is a hash sign and then, for each segment, a slash and
the segment with each `~` replaced by `~0` and then each slash by `~1`. It has one list of segments,
which the opposite replacements read between its slashes, and it goes on behind another pointer
without its hash sign. -/
theorem pointers_unambiguous (path other : List String) :
    (fragment path).toList = '#' :: path.flatMap (fun s =>
        '/' :: replaceAll ['/'] ['~', '1'] (replaceAll ['~'] ['~', '0'] s.toList)) ∧
      segmentsOf (fragment path) = path ∧
      (fragment path = fragment other ↔ path = other) ∧
      fragment (path ++ other) =
        fragment path ++ String.ofList ((fragment other).toList.drop 1) := by
  refine ⟨?_, segmentsOf_fragment path, ⟨?_, congrArg fragment⟩, ?_⟩
  · simp only [toList_fragment, renderChars, escape_eq_replaceAll]
  · intro same
    exact fragment_injective same
  · rw [toList_fragment other, List.drop_one, List.tail_cons]
    exact fragment_append path other

end RouteContract.Pointer

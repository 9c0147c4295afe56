import RouteContract.Data.Table

/-!
# Arguments

What a list of arguments asks for. The options of the whole program stand before the name of a
command, those of a command anywhere after it. An option takes the text behind its equals sign or
the next argument, whatever that looks like; of several values the last one counts. Two dashes end
the options.
-/

namespace RouteContract.CommandLine

set_option autoImplicit false

open RouteContract

/-! ## Options and operands -/

/-- Arguments taken apart. -/
structure Arguments where
  options : Table String
  wantsHelp : Bool
  operands : List String
deriving Repr, DecidableEq

namespace Arguments

/-- Operands alone. -/
def ofOperands (operands : List String) : Arguments := ⟨[], false, operands⟩

/-- Arguments with an option before them; a value that is already there counts. -/
def addOption (name value : String) (a : Arguments) : Arguments :=
  if Table.has a.options name then a else { a with options := (name, value) :: a.options }

/-- Arguments with the wish for help before them. -/
def addHelp (a : Arguments) : Arguments := { a with wantsHelp := true }

/-- Arguments with an operand before them. -/
def addOperand (operand : String) (a : Arguments) : Arguments :=
  { a with operands := operand :: a.operands }

/-- The value of an option. -/
def option? (a : Arguments) (name : String) : Option String := Table.get? a.options name

/-- The value of an option that is not the empty text. -/
def filled? (a : Arguments) (name : String) : Option String :=
  (a.option? name).filter fun s => !s.isEmpty

/-- Whether an argument is an option rather than an operand. -/
def isOption (argument : String) : Bool := 1 < argument.length && argument.startsWith "-"

/-- The name of an option, and the value behind its equals sign. -/
def splitOption (argument : String) : String × Option String :=
  let name := argument.toList.takeWhile (· != '=')
  match argument.toList.drop name.length with
  | [] => (argument, none)
  | _ :: value => (String.ofList name, some (String.ofList value))

/-- Arguments taken apart, with the options that are known; nothing when one of them is not, or has
no value. Options go on after an operand only where they are mixed with operands. -/
def read? (known : List String) (isMixed : Bool) : List String → Option Arguments
  | [] => some (ofOperands [])
  | "--" :: rest => some (ofOperands rest)
  | argument :: rest =>
      if isOption argument then
        if argument = "--help" then (read? known isMixed rest).map addHelp
        else
          let (name, value) := splitOption argument
          if known.contains name then
            match value, rest with
            | some value, rest => (read? known isMixed rest).map (addOption name value)
            | none, value :: rest => (read? known isMixed rest).map (addOption name value)
            | none, [] => none
          else none
      else if isMixed then (read? known isMixed rest).map (addOperand argument)
      else some (ofOperands (argument :: rest))

end Arguments

/-! ## Commands -/

/-- What a command is to do. -/
inductive Command where
  /-- Generate a snapshot from sources and store it. -/
  | generate (sources : List String)
  /-- List the stored routes. -/
  | listRoutes (method : Option String) (format : String)
  /-- Find the action for a method and a path. -/
  | find (method path : String)
  /-- Print the document of the stored snapshot. -/
  | dumpSchema (template : Option String)
  | ping
deriving Repr, DecidableEq

/-- A command and the store that it is told to use. -/
structure Call where
  command : Command
  store : Option String
deriving Repr, DecidableEq

/-- What arguments come to. -/
inductive Wish (α : Type) where
  /-- They make no sense. -/
  | unclear
  | help
  | clear (x : α)
deriving Repr, DecidableEq

/-- The options of the whole program, and the name of a command with what follows it. -/
structure Opening where
  logLevel : Option String
  command : String
  rest : List String
deriving Repr, DecidableEq

/-- The names of the commands. -/
def commandNames : List String := ["generate", "routes", "find", "dump-schema", "ping"]

/-- The beginning of the arguments. -/
def Opening.read (arguments : List String) : Wish Opening :=
  match Arguments.read? ["--log-level"] false arguments with
  | none => .unclear
  | some a =>
      if a.wantsHelp then .help
      else
        match a.operands with
        | [] => .unclear
        | command :: rest =>
            if commandNames.contains command then .clear ⟨a.option? "--log-level", command, rest⟩
            else .unclear

/-- The call of a command with the options that it knows; nothing is clear when its operands are not
those of the command. -/
def readCall (known : List String) (arguments : List String)
    (command : Arguments → Option Command) : Wish Call :=
  match Arguments.read? known true arguments with
  | none => .unclear
  | some a =>
      if a.wantsHelp then .help
      else
        match command a with
        | some c => .clear ⟨c, a.filled? "--db"⟩
        | none => .unclear

/-- The call of listing routes. -/
def readListing (arguments : List String) : Wish Call :=
  readCall ["--db", "--method", "--format"] arguments fun a =>
    match a.operands with
    | [] => some (.listRoutes (a.filled? "--method") ((a.option? "--format").getD "table"))
    | _ => none

/-- The call of a command for routes. -/
def readRoutes (arguments : List String) : Wish Call :=
  match Arguments.read? [] false arguments with
  | none => .unclear
  | some a =>
      if a.wantsHelp then .help
      else
        match a.operands with
        | "list" :: rest => readListing rest
        | _ => .unclear

/-- The call that an opening goes on with. -/
def Opening.call (o : Opening) : Wish Call :=
  if o.command = "generate" then
    readCall ["--db"] o.rest fun a => some (.generate a.operands)
  else if o.command = "routes" then readRoutes o.rest
  else if o.command = "find" then
    readCall ["--db"] o.rest fun a =>
      match a.operands with
      | [method, path] => some (.find method path)
      | _ => none
  else if o.command = "dump-schema" then
    readCall ["--db", "--template"] o.rest fun a =>
      match a.operands with
      | [] => some (.dumpSchema (a.filled? "--template"))
      | _ => none
  else
    readCall [] o.rest fun a =>
      match a.operands with
      | [] => some .ping
      | _ => none

end RouteContract.CommandLine

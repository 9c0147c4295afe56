import RouteContract.Text.Quoted

/-!
# What is wrong with a source

A source may not be found, its module may not hold together, and a type in it may be described with
a text that cannot be read.
-/

namespace RouteContract.Sources

set_option autoImplicit false

/-- Why a source does not tell its controllers, or a module its types. -/
inductive SourceError where
  /-- A name stands for nothing. -/
  | unknownName (name : String)
  /-- An enumeration has no such member. -/
  | unknownMember (name : String)
  /-- Hints, classes or values do not go together. -/
  | mismatch
  /-- A value is outside of what is allowed in its place. -/
  | unfitValue
  /-- A field of a model is marked as one of a keyed record. -/
  | misplacedMark
  /-- A route is declared for a method that there is not. -/
  | unknownMethod (method : String)
  /-- A documentation text holds an integer with too many digits. -/
  | integerTooLong
  /-- The source has no name. -/
  | unnamed
  /-- There is no file of that name. -/
  | missingFile (name : String)
  /-- There is no module of that name. -/
  | missingModule (name : String)
  /-- A file holds no module. -/
  | noModule (name : String)
deriving Repr, DecidableEq

/-- What is said about a method that there is not. -/
def unknownMethodMessage (method : String) : String := "Unsupported HTTP method: " ++ method

/-- What is said about a module that is missing. -/
def missingModuleMessage (name : String) : String :=
  "No module named " ++ String.ofList (Text.quoted name.toList)

end RouteContract.Sources

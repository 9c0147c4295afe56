import RouteContract.Sources.Evaluation

/-!
# Lineages

The lineage of a class is the class itself and all classes that it builds on, each once and each
before those that it builds on itself. The lineages of the bases keep their order in it, and so do
the bases; when no order does justice to all of them, the class cannot be defined.
-/

namespace RouteContract.Sources

set_option autoImplicit false

open RouteContract

/-- A class that another one builds on: one of the module, or one that is known everywhere. -/
inductive Ancestor where
  | declared (c : ClassId)
  | general (name : String)
deriving Repr, DecidableEq

/-- A chain of classes, each before those that it builds on. -/
abbrev Lineage := List Ancestor

/-- The base that a name stands for. -/
def ancestorOf (s : Scope) (name : String) : Except SourceError Ancestor := do
  match ← s.lookup name with
  | .declared c => return .declared c
  | .general n => return .general (callName n)
  | _ => .error .mismatch

/-- The first class that begins one of several lineages and stands behind the beginning of none. -/
def nextAncestor (lines : List Lineage) : Option Ancestor :=
  (lines.filterMap List.head?).find? fun a => lines.all fun line => !(line.drop 1).contains a

/-- Several lineages without a class at their beginning. -/
def without (a : Ancestor) (lines : List Lineage) : List Lineage :=
  lines.map fun line => if line.head? == some a then line.drop 1 else line

/-- Several lineages as one, of at most a number of classes. -/
def mergeLineages : Nat → List Lineage → Except SourceError Lineage
  | 0, _ => .ok []
  | count + 1, lines =>
      if lines.all List.isEmpty then .ok []
      else
        match nextAncestor lines with
        | none => .error .mismatch
        | some a => (mergeLineages count (without a lines)).map (a :: ·)

/-- The lineage of a class, from its bases and their lineages. -/
def lineageOf (c : ClassId) (bases : List Ancestor) (lineages : List Lineage) :
    Except SourceError Lineage :=
  let lines := lineages ++ [bases]
  (mergeLineages lines.flatten.length lines).map (.declared c :: ·)

end RouteContract.Sources

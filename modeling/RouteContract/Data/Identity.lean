/-!
# Things told apart by identity

Two things of equal content may still be two things. While it lives, a thing is kept at a place of
its own; the place is used again after the thing is gone, so that a thing is known by its place
together with when it came to be. A memory by identity keeps one remark for each place, about the
thing that was there when the remark was made.
-/

namespace RouteContract

set_option autoImplicit false

/-- Where a thing is kept, and when it came to be. -/
structure Identity where
  place : Nat
  birth : Nat
deriving Repr, DecidableEq

/-- Remarks about things, at most one for each place. -/
structure IdentityMemory (α : Type) where
  remarks : List (Identity × α)

namespace IdentityMemory

variable {α : Type}

/-- No remarks. -/
def empty : IdentityMemory α := ⟨[]⟩

/-- The number of remarks. -/
def size (m : IdentityMemory α) : Nat := m.remarks.length

/-- The remark at a place, about whichever thing it was made. -/
def atPlace? (m : IdentityMemory α) (place : Nat) : Option (Identity × α) :=
  m.remarks.find? fun r => r.1.place == place

/-- The remark about a thing. A remark about another thing at the same place is none. -/
def get? (m : IdentityMemory α) (who : Identity) : Option α :=
  match m.atPlace? who.place with
  | some (other, x) => if other = who then some x else none
  | none => none

/-- Make a remark about a thing, over the one at its place. -/
def put (m : IdentityMemory α) (who : Identity) (x : α) : IdentityMemory α :=
  ⟨(who, x) :: m.remarks.filter fun r => r.1.place != who.place⟩

/-- Forget the remark about a thing, if there is one. -/
def forget (m : IdentityMemory α) (who : Identity) : IdentityMemory α :=
  if (m.get? who).isSome then ⟨m.remarks.filter fun r => r.1.place != who.place⟩ else m

/-! ## Reading what was remarked -/

@[simp] theorem get?_empty (who : Identity) : (empty : IdentityMemory α).get? who = none := rfl

/-- The remark last made about a thing is the one that is read. -/
@[simp] theorem get?_put_self (m : IdentityMemory α) (who : Identity) (x : α) :
    (m.put who x).get? who = some x := by
  simp [get?, put, atPlace?]

/-- A remark about a thing leaves those at other places. -/
theorem get?_put_of_place_ne (m : IdentityMemory α) {who other : Identity}
    (h : other.place ≠ who.place) (x : α) : (m.put who x).get? other = m.get? other := by
  have hne : (who.place == other.place) = false := by simpa using fun e => h e.symm
  have hfind : (m.remarks.filter fun r => r.1.place != who.place).find?
      (fun r => r.1.place == other.place) = m.remarks.find? fun r => r.1.place == other.place := by
    rw [List.find?_filter]
    congr 1
    funext r
    by_cases hr : r.1.place = other.place
    · simp [hr, h]
    · simp [hr]
  simp [get?, put, atPlace?, hne, hfind]

end IdentityMemory

end RouteContract

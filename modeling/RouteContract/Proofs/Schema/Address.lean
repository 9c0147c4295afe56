import RouteContract.Proofs.Schema.Part

/-!
# Schemas without addresses

Where no part of a schema gives itself an address, the whole schema is one document, and the address
that it is known by shows nowhere: a reference leads to the same part of it under every address
(`lookup_local`).
-/

set_option autoImplicit false

namespace RouteContract.Schema

open RouteContract Json

variable {root value target : Json} {address base inside ref : String}

theorem ownAddress?_of_unnamed {members : List (String × Json)}
    (unnamed : Table.get? members "$id" = none) : ownAddress? (.obj members) = .ok none := by
  rw [ownAddress?, unnamed]

/-- No part gives itself an address. -/
theorem not_addressed (noAddress : Lacks "$id" root) (stands : IsPartOrText root value)
    {own : Option String} (read : ownAddress? value = .ok own) : own = none := by
  cases value with
  | null | int i | float x | str s | arr items => cases read
  | bool b =>
      cases read
      rfl
  | obj members =>
      rcases stands with part | ⟨s, impossible⟩
      · rw [ownAddress?_of_unnamed (noAddress members part)] at read
        cases read
        rfl
      · cases impossible

/-- A pointer is followed alike under every address, and keeps it. -/
theorem followSegments_local {segments : List (List Char)} {trail : Trail}
    (noAddress : Lacks "$id" root) (stands : IsPartOrText root value)
    (found : followSegments value base trail segments = .ok (target, inside)) (other : String) :
    inside = base ∧ followSegments value other trail segments = .ok (target, other) := by
  induction segments generalizing value trail with
  | nil =>
      cases found
      exact ⟨rfl, rfl⟩
  | cons segment rest ih =>
      rw [followSegments] at found ⊢
      cases step : stepInto value segment with
      | error e =>
          rw [step] at found
          cases found
      | ok taken =>
          obtain ⟨part, key⟩ := taken
          have further := stepInto_part stands step
          simp only [step] at found ⊢
          split at found
          · next names =>
              rw [if_pos names]
              cases read : ownAddress? part with
              | error e =>
                  rw [read] at found
                  cases found
              | ok own =>
                  obtain rfl := not_addressed noAddress further read
                  rw [read] at found
                  exact ih further found
          · next names =>
              rw [if_neg names]
              exact ih further found

/-- There are no anchors. -/
theorem anchor_local (noAddress : Lacks "$id" root) (name : String) :
    (Scope.mk root address).anchor base name ≠ .ok target := by
  intro found
  rw [Scope.anchor] at found
  split at found
  · cases found
  · split at found
    · cases found
    · cases found
    · next index own read _ =>
        have absent (at_ : String) :
            index.anchors.reverse.find? (fun a => a.1 == at_ && a.2.1 == name) = none := by
          apply List.find?_eq_none.2
          intro anchor listed
          obtain ⟨part, members, same, named⟩ := (Index.ofSchema_parts _ _ index read).2 anchor
            (List.mem_reverse.1 listed)
          rw [same] at part
          exact absurd (noAddress members part) named
        simp only [absent] at found
        cases own with
        | none => cases found
        | some at_ => simp at found

/-- **A local reference leads to the same part under every address.** -/
theorem lookup_local {fragment : List Char} (noAddress : Lacks "$id" root)
    (isLocal : ref.toList = '#' :: fragment)
    (found : (Scope.mk root address).lookup address ref = .ok (target, inside)) (other : String) :
    inside = address ∧ (Scope.mk root other).lookup other ref = .ok (target, other) := by
  have document (address : String) : (Scope.mk root address).document address = .ok root :=
    if_pos rfl
  rw [Scope.lookup] at found ⊢
  simp only [isLocal, document] at found ⊢
  split at found
  · cases found
    exact ⟨rfl, rfl⟩
  · exact followSegments_local noAddress (.inl (.self root)) found other
  · obtain ⟨part, anchored, -⟩ := map_eq_ok_iff.1 found
    exact absurd anchored (anchor_local noAddress _)

end RouteContract.Schema

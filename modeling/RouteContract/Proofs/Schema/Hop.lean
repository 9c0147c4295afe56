import Mathlib.Data.List.ProdSigma
import RouteContract.Proofs.Data.Table
import RouteContract.Proofs.Schema.Meeting
import RouteContract.Proofs.Schema.Overreach

/-!
# Chains of references

Coercion follows a reference to a schema that may be a reference again. A hop of such a chain goes
from one station to another, a schema together with the base address that its references are read
from (`Hop`). Which hop it is depends on the base address and the text of the reference alone, and a
base address from which anything is found is that of a document. So there are no more different hops
than there are pairs of documents and references, and a chain that never comes back to a station has
no more hops than that (`MayHop.hop`).
-/

set_option autoImplicit false

namespace RouteContract.Schema

open RouteContract Json Relation

/-! ## How many documents there are -/

namespace Index

/-- A reading of documents comes to an end, and declares at most so many. -/
def Declares (n : Nat) : Except Fault Index → Prop
  | .ok i => i.documents.length ≤ n
  | .error e => e ≠ .endless

variable {m n : Nat} {a b : Except Fault Index} {base : String}

theorem declares_error {e : Fault} (h : e ≠ .endless) : Declares n (.error e) := h

theorem declares_empty : Declares n (.ok empty) := Nat.zero_le n

theorem Declares.mono (h : Declares m a) (le : m ≤ n) : Declares n a := by
  cases a with
  | error e => exact h
  | ok i => exact Nat.le_trans h le

theorem Declares.andThen (ha : Declares m a) (hb : Declares n b) :
    Declares (m + n) (andThen a b) := by
  cases a with
  | error e => exact ha
  | ok i =>
      cases b with
      | error e => exact hb
      | ok j =>
          show (i.append j).documents.length ≤ m + n
          rw [append, List.length_append]
          exact Nat.add_le_add ha hb

theorem Declares.ite {p : Prop} [Decidable p] (ha : Declares n a) (hb : Declares n b) :
    Declares n (if p then a else b) := by
  split
  · exact ha
  · exact hb

theorem declares_ofSchemas {schemas : List Json}
    (each : ∀ schema ∈ schemas, Declares (countNames schema).2 (ofSchema base schema)) :
    Declares (countNamesItems schemas).2 (ofSchemas base schemas) := by
  induction schemas with
  | nil =>
      rw [ofSchemas]
      exact declares_empty
  | cons schema rest ih =>
      rw [ofSchemas]
      exact (each schema (List.mem_cons_self ..)).andThen
        (ih fun other mem => each other (List.mem_cons_of_mem _ mem))

theorem declares_ofMembers {members : List (String × Json)}
    (each : ∀ entry ∈ members, Declares (countNames entry.2).2 (ofSchema base entry.2)) :
    Declares (countNamesMembers members).2 (ofMembers base members) := by
  induction members with
  | nil =>
      rw [ofMembers]
      exact declares_empty
  | cons entry rest ih =>
      obtain ⟨name, schema⟩ := entry
      rw [ofMembers]
      refine Declares.mono ((each (name, schema) (List.mem_cons_self ..)).andThen
        (ih fun other mem => each other (List.mem_cons_of_mem _ mem))) ?_
      simp only [countNamesMembers]
      omega

section Keywords

variable {value : Json}
  (each : ∀ part, IsPart part value → Declares (countNames part).2 (ofSchema base part))
include each

theorem declares_ofList : Declares (countNames value).2 (ofList base value) := by
  cases value with
  | null | bool b | int i | float x =>
      rw [ofList.eq_def]
      exact declares_error (by decide)
  | str s =>
      rw [ofList]
      exact declares_empty.ite (declares_error (by decide))
  | arr schemas =>
      rw [ofList]
      exact declares_ofSchemas fun schema mem => each schema (.of_item mem)
  | obj members =>
      rw [ofList]
      exact declares_empty.ite (declares_error (by decide))

theorem declares_ofTable : Declares (countNames value).2 (ofTable base value) := by
  cases value with
  | null | bool b | int i | float x | str s | arr items =>
      rw [ofTable.eq_def]
      exact declares_error (by decide)
  | obj members =>
      rw [ofTable]
      exact declares_ofMembers fun entry mem => each entry.2 (.of_member mem)

theorem declares_ofItems : Declares (countNames value).2 (ofItems base value) := by
  cases value with
  | null | bool b =>
      rw [ofItems]
      exact declares_empty
  | int i | float x =>
      rw [ofItems.eq_def]
      exact declares_error (by decide)
  | str s =>
      rw [ofItems]
      exact declares_empty.ite (declares_error (by decide))
  | arr schemas =>
      rw [ofItems]
      exact declares_ofSchemas fun schema mem => each schema (.of_item mem)
  | obj members =>
      rw [ofItems]
      exact each _ (.self _)

theorem declares_ofDependencies : Declares (countNames value).2 (ofDependencies base value) := by
  have table (members : List (String × Json)) (same : value = .obj members) :
      Declares (countNames value).2 (ofMembers base members) := by
    subst same
    exact declares_ofMembers fun entry mem => each entry.2 (.of_member mem)
  rw [ofDependencies.eq_def]
  split
  · exact declares_empty
  · exact declares_empty
  · exact table _ rfl
  · exact declares_empty
  · exact declares_error (by decide)

end Keywords

/-- The number of addresses that the values of members give themselves, below their names. -/
def addressesBelow (members : List (String × Json)) : Nat :=
  (members.map fun entry => (countNames entry.2).2).sum

theorem addressesBelow_le (members : List (String × Json)) :
    addressesBelow members ≤ (countNamesMembers members).2 := by
  induction members with
  | nil => exact Nat.le_refl 0
  | cons entry rest ih =>
      obtain ⟨name, value⟩ := entry
      rw [addressesBelow, List.map_cons, List.sum_cons, ← addressesBelow]
      simp only [countNamesMembers]
      omega

/-- A schema that gives itself an address has one more. -/
theorem addressesBelow_lt {members : List (String × Json)} (named : Table.get? members "$id" ≠ none) :
    addressesBelow members < (countNamesMembers members).2 := by
  induction members with
  | nil => exact absurd rfl named
  | cons entry rest ih =>
      obtain ⟨name, value⟩ := entry
      rw [addressesBelow, List.map_cons, List.sum_cons, ← addressesBelow]
      simp only [countNamesMembers]
      by_cases here : name = "$id"
      · have le := addressesBelow_le rest
        rw [if_pos here]
        omega
      · rw [Table.get?_cons_of_ne here] at named
        have lt := ih named
        rw [if_neg here]
        omega

theorem declares_ofKeywords {members : List (String × Json)}
    (each : ∀ entry ∈ members, ∀ part, IsPart part entry.2 →
      Declares (countNames part).2 (ofSchema base part)) :
    Declares (addressesBelow members) (ofKeywords base members) := by
  induction members with
  | nil =>
      rw [ofKeywords]
      exact declares_empty
  | cons entry rest ih =>
      obtain ⟨keyword, value⟩ := entry
      have below := each (keyword, value) (List.mem_cons_self ..)
      rw [ofKeywords, addressesBelow, List.map_cons, List.sum_cons]
      refine .andThen ?_ (ih fun other mem => each other (List.mem_cons_of_mem _ mem))
      exact .ite (below value (.self value)) <| .ite (declares_ofList below) <|
        .ite (declares_ofTable below) <| .ite (declares_ofItems below) <|
        .ite (declares_ofDependencies below) declares_empty

theorem ownAddress?_ne_endless (schema : Json) : ownAddress? schema ≠ .error .endless := by
  rw [ownAddress?.eq_def]
  split
  · rintro ⟨⟩
  · split <;> rintro ⟨⟩
  · rintro ⟨⟩

theorem baseInside_ne_endless {schema : Json} : baseInside base schema ≠ .error .endless := by
  rw [baseInside]
  cases own : ownAddress? schema with
  | error e =>
      rintro ⟨⟩
      exact ownAddress?_ne_endless _ own
  | ok address => rintro ⟨⟩

/-- **A schema declares at most as many documents as its parts give themselves addresses.** -/
theorem ofSchema_declares (base : String) (schema : Json) :
    Declares (countNames schema).2 (ofSchema base schema) := by
  induction size : schema.weight using Nat.strongRecOn generalizing base schema with
  | ind n ih =>
      cases schema with
      | bool b =>
          rw [ofSchema]
          exact declares_empty
      | null | int i | float x | str s | arr items =>
          rw [ofSchema.eq_def]
          exact declares_error (by decide)
      | obj members =>
          rw [ofSchema]
          cases read : baseInside base (.obj members) with
          | error e =>
              refine declares_error ?_
              rintro rfl
              exact baseInside_ne_endless read
          | ok inside =>
              have below : Declares (addressesBelow members) (ofKeywords inside members) := by
                refine declares_ofKeywords fun entry mem part below => ?_
                have lt := Json.weight_lt_weightMembers mem
                have le := below.weight_le
                rw [Json.weight] at size
                exact ih part.weight (by omega) inside part rfl
              rw [countNames]
              by_cases same : inside = base
              · have none : Declares 0 (.ok ⟨if inside = base then [] else [(inside, .obj members)],
                    (ownAnchor? members).toList.map fun name => (inside, name, .obj members)⟩) := by
                  rw [if_pos same]
                  exact Nat.le_refl 0
                refine (none.andThen below).mono ?_
                rw [Nat.zero_add]
                exact addressesBelow_le members
              · have one : Declares 1 (.ok ⟨if inside = base then [] else [(inside, .obj members)],
                    (ownAnchor? members).toList.map fun name => (inside, name, .obj members)⟩) := by
                  rw [if_neg same]
                  exact Nat.le_refl 1
                refine (one.andThen below).mono ?_
                rw [Nat.add_comm]
                exact addressesBelow_lt (named_of_baseInside read same)

end Index

/-! ## Where documents are -/

section Documents

variable {scope : Scope} {base ref : String}

/-- The addresses at which there are documents. -/
def Scope.addresses (s : Scope) : List String :=
  match s.index with
  | .ok index => s.address :: Table.keys index.documents
  | .error _ => [s.address]

theorem length_addresses (s : Scope) : s.addresses.length ≤ (countNames s.root).2 + 1 := by
  rw [Scope.addresses]
  cases read : s.index with
  | error e => exact Nat.succ_le_succ (Nat.zero_le _)
  | ok index =>
      have few := Index.ofSchema_declares s.address s.root
      rw [Scope.index] at read
      rw [read] at few
      rw [List.length_cons, Table.keys, List.length_map]
      exact Nat.succ_le_succ few

/-- Where no part gives itself an address, there is one document. -/
theorem addresses_eq_of_unnamed (s : Scope) (unnamed : (countNames s.root).2 = 0) :
    s.addresses = [s.address] := by
  have few := length_addresses s
  rw [unnamed] at few
  rw [Scope.addresses] at few ⊢
  split
  · next index read =>
      rw [read, List.length_cons] at few
      rw [List.length_eq_zero_iff.1 (Nat.le_zero.1 (Nat.le_of_succ_le_succ few))]
  · rfl

theorem mem_addresses {address : String} {document : Json}
    (found : scope.document address = .ok document) : address ∈ scope.addresses := by
  have own : scope.address ∈ scope.addresses := by
    rw [Scope.addresses]
    split
    · exact List.mem_cons_self ..
    · exact List.mem_singleton_self _
  rw [Scope.document] at found
  split at found
  · next same => exact same ▸ own
  · split at found
    · cases found
    · next index read =>
        split at found
        · next entry listed =>
            have same : entry.1 = address := by simpa using List.find?_some listed
            rw [Scope.addresses, read, ← same]
            exact List.mem_cons_of_mem _ (Table.mem_keys_of_mem
              (List.mem_reverse.1 (List.mem_of_find?_eq_some listed)))
        · cases found

/-- A local reference is looked up in the document at the base address. -/
theorem mem_addresses_of_lookup {found : Json × String} (isLocal : ref.toList.head? = some '#')
    (led : scope.lookup base ref = .ok found) : base ∈ scope.addresses := by
  obtain ⟨fragment, text⟩ := List.head?_eq_some_iff.1 isLocal
  rw [Scope.lookup] at led
  simp only [text] at led
  split at led
  · obtain ⟨document, there, -⟩ := map_eq_ok_iff.1 led
    exact mem_addresses there
  · split at led
    · cases led
    · next document there => exact mem_addresses there
  · obtain ⟨target, anchored, -⟩ := map_eq_ok_iff.1 led
    rw [Scope.anchor] at anchored
    split at anchored
    · cases anchored
    · next document there => exact mem_addresses there

/-! ## Looking up comes to an end -/

theorem index_ne_endless : scope.index ≠ .error .endless := by
  have declares := Index.ofSchema_declares scope.address scope.root
  intro failed
  rw [Scope.index] at failed
  rw [failed] at declares
  exact declares rfl

theorem document_ne_endless {address : String} : scope.document address ≠ .error .endless := by
  rw [Scope.document]
  split
  · rintro ⟨⟩
  · split
    · next e read =>
        rintro ⟨⟩
        exact index_ne_endless read
    · split <;> rintro ⟨⟩

theorem stepInto_ne_endless {value : Json} {segment : List Char} :
    stepInto value segment ≠ .error .endless := by
  rw [stepInto.eq_def]
  cases value with
  | null | bool b | int i | float x => rintro ⟨⟩
  | arr items | str s =>
      simp only
      split
      · rintro ⟨⟩
      · split <;> rintro ⟨⟩
  | obj members =>
      simp only
      split <;> rintro ⟨⟩

theorem followSegments_ne_endless {value : Json} {trail : Trail} {segments : List (List Char)} :
    followSegments value base trail segments ≠ .error .endless := by
  induction segments generalizing value base trail with
  | nil => rintro ⟨⟩
  | cons segment rest ih =>
      rw [followSegments]
      split
      · next e failed =>
          rintro ⟨⟩
          exact stepInto_ne_endless failed
      · next part taken step =>
          simp only
          split
          · split
            · next e failed =>
                rintro ⟨⟩
                exact Index.ownAddress?_ne_endless _ failed
            · exact ih
            · exact ih
          · exact ih

theorem anchor_ne_endless {address name : String} :
    scope.anchor address name ≠ .error .endless := by
  rw [Scope.anchor]
  split
  · next e failed =>
      rintro ⟨⟩
      exact document_ne_endless failed
  · split
    · next e failed =>
        rintro ⟨⟩
        exact index_ne_endless failed
    · next e failed _ =>
        rintro ⟨⟩
        exact Index.ownAddress?_ne_endless _ failed
    · simp only
      split <;> rintro ⟨⟩

theorem lookup_ne_endless : scope.lookup base ref ≠ .error .endless := by
  rw [Scope.lookup]
  split
  split
  · cases failed : scope.document _ with
    | error e =>
        rintro ⟨⟩
        exact document_ne_endless failed
    | ok document => rintro ⟨⟩
  · split
    · next e failed =>
        rintro ⟨⟩
        exact document_ne_endless failed
    · exact followSegments_ne_endless
  · cases failed : scope.anchor _ _ with
    | error e =>
        rintro ⟨⟩
        exact anchor_ne_endless failed
    | ok document => rintro ⟨⟩

end Documents

/-! ## Hops -/

/-- A schema, and the base address from which its references are read. -/
structure Station where
  base : String
  schema : Json

/-- A schema is a local reference to another one. -/
inductive Hop (scope : Scope) : Station → Station → Prop where
  | follow {base inside ref : String} {keywords : List (String × Json)} {target : Json}
      (stated : localReference? keywords = some ref)
      (led : scope.lookup base ref = .ok (target, inside)) :
      Hop scope ⟨base, .obj keywords⟩ ⟨inside, target⟩

variable {scope : Scope} {hops : Nat} {x y : Station}

theorem Hop.stated (hop : Hop scope x y) :
    ∃ keywords ref, x.schema = .obj keywords ∧ localReference? keywords = some ref := by
  cases hop with
  | follow stated => exact ⟨_, _, rfl, stated⟩

/-- The pairs of an address and a reference from which a hop can start. -/
def origins (scope : Scope) : List (String × String) := scope.addresses ×ˢ referencesIn scope.root

theorem length_origins_lt (scope : Scope) : (origins scope).length < scope.chainLimit := by
  have documents := length_addresses scope
  have references := length_referencesIn scope.root
  rw [origins, List.length_product]
  calc scope.addresses.length * (referencesIn scope.root).length
      ≤ ((countNames scope.root).2 + 1) * (countNames scope.root).1 :=
        Nat.mul_le_mul documents references
    _ = (countNames scope.root).1 * ((countNames scope.root).2 + 1) := Nat.mul_comm _ _
    _ < ((countNames scope.root).1 + 1) * ((countNames scope.root).2 + 2) :=
        Nat.mul_lt_mul_of_le_of_lt (Nat.le_succ _) (Nat.lt_succ_self _) (Nat.succ_pos _)
    _ ≤ scope.chainLimit := le_chainLimit scope

/-- So many hops may still follow on a station that those made on the way to it and these are more
than there are different ones. -/
def MayHop (scope : Scope) (hops : Nat) (x : Station) : Prop :=
  ∃ seen : List (String × String), seen.Nodup ∧ seen ⊆ origins scope ∧
    (∀ origin ∈ seen, ∃ target inside, scope.lookup origin.1 origin.2 = .ok (target, inside) ∧
      ReflTransGen (Hop scope) ⟨inside, target⟩ x) ∧
    (origins scope).length < hops + seen.length

namespace MayHop

/-- Where a part of the value was taken, no hop was made yet. -/
theorem start (x : Station) : MayHop scope scope.chainLimit x :=
  ⟨[], .nil, List.nil_subset _, nofun, length_origins_lt scope⟩

/-- There is always a hop left. -/
theorem exists_succ (h : MayHop scope hops x) : ∃ fewer, hops = fewer + 1 := by
  obtain ⟨seen, distinct, among, -, bound⟩ := h
  have few := (List.Nodup.subperm distinct among).length_le
  exact Nat.exists_eq_succ_of_ne_zero (by omega)

/-- **A hop to a station that leads nowhere back can be made.** It was not made on the way, so there
is one left. -/
theorem hop {fewer : Nat} (h : MayHop scope (fewer + 1) x) (stands : IsPartOrText scope.root x.schema)
    (step : Hop scope x y) (onward : ¬ TransGen (Hop scope) y y) : MayHop scope fewer y := by
  obtain ⟨seen, distinct, among, made, bound⟩ := h
  have last := step
  obtain ⟨reference, led⟩ := step
  next base inside ref keywords target =>
  obtain ⟨stated, isLocal⟩ := stated_of_localReference? reference
  have fresh : (base, ref) ∉ seen := by
    intro mem
    obtain ⟨target, inside, again, further⟩ := made _ mem
    rw [led] at again
    cases again
    exact onward (.tail' further last)
  have origin : (base, ref) ∈ origins scope :=
    List.mem_product.2 ⟨mem_addresses_of_lookup isLocal led, mem_referencesIn stands.part stated⟩
  refine ⟨(base, ref) :: seen, List.nodup_cons.2 ⟨fresh, distinct⟩,
    List.cons_subset.2 ⟨origin, among⟩, ?_, ?_⟩
  · intro other mem
    rcases List.mem_cons.1 mem with rfl | mem
    · exact ⟨target, inside, led, .refl⟩
    · obtain ⟨first, inside, led, further⟩ := made other mem
      exact ⟨first, inside, led, further.tail last⟩
  · rw [List.length_cons]
    omega

end MayHop

end RouteContract.Schema

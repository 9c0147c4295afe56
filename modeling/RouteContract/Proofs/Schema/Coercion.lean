import Mathlib.Data.List.Forall2
import RouteContract.Proofs.Data.Result
import RouteContract.Schema.Coercion

/-!
# Coercing what was coerced

A rule of coercion turns a value into one of the type that it is for (`admitsDeclared_of_rule`), so
a value that was coerced is of a declared type, or no rule applies to it. Which schema a member or
an item is coerced under depends on its name or position alone, and both stay as they are. So
coercion leaves a value that it has made as it is (`coerce_coerced`): what is true of one pass over
a value is true of any number of them.
-/

set_option autoImplicit false

namespace RouteContract.Schema

open RouteContract

/-! ## Rules -/

/-- A value that is not made of others. -/
def IsSingle (v : Json) : Prop := (∀ items, v ≠ .arr items) ∧ ∀ members, v ≠ .obj members

section Rules

variable {v w declared : Json}

theorem isSingle_null : IsSingle .null := ⟨nofun, nofun⟩

theorem isSingle_bool (b : Bool) : IsSingle (.bool b) := ⟨nofun, nofun⟩

theorem isSingle_int (i : Int) : IsSingle (.int i) := ⟨nofun, nofun⟩

theorem isSingle_float (x : Number.Binary64) : IsSingle (.float x) := ⟨nofun, nofun⟩

theorem isSingle_str (s : String) : IsSingle (.str s) := ⟨nofun, nofun⟩

theorem single_or_made_of (v : Json) :
    IsSingle v ∨ (∃ items, v = .arr items) ∨ ∃ members, v = .obj members := by
  cases v with
  | arr items => exact .inr (.inl ⟨items, rfl⟩)
  | obj members => exact .inr (.inr ⟨members, rfl⟩)
  | null => exact .inl isSingle_null
  | bool b => exact .inl (isSingle_bool b)
  | int i => exact .inl (isSingle_int i)
  | float x => exact .inl (isSingle_float x)
  | str s => exact .inl (isSingle_str s)

/-- What a value becomes as a number: an integer, or a floating-point number where one will do. -/
theorem toNumber_form {integerOnly : Bool} (h : toNumber integerOnly v = .ok (some w)) :
    (∃ i, w = .int i) ∨ integerOnly = false ∧ ∃ x, w = .float x := by
  cases v with
  | null | bool b =>
      cases h
      exact .inl ⟨_, rfl⟩
  | int i | float x | arr items | obj members => cases h
  | str s =>
      rw [toNumber] at h
      cases integerOnly with
      | true =>
          rw [if_pos rfl] at h
          split at h
          · split at h
            · cases h
              exact .inl ⟨_, rfl⟩
            · cases h
          · cases h
      | false =>
          simp only [Bool.false_eq_true, if_false, Except.ok.injEq, numberOfText?] at h
          split at h
          · cases h
            exact .inl ⟨_, rfl⟩
          · split at h
            · split at h
              · cases h
                exact .inr ⟨rfl, _, rfl⟩
              · cases h
            · cases h

theorem toText_form (h : toText v = .ok (some w)) : ∃ s, w = .str s := by
  cases v with
  | null | bool b =>
      cases h
      exact ⟨_, rfl⟩
  | int i | float x | str s | arr items | obj members =>
      rw [toText, map_eq_ok_iff] at h
      · obtain ⟨text, -, same⟩ := h
        obtain ⟨s, -, rfl⟩ := Option.map_eq_some_iff.1 same
        exact ⟨s, rfl⟩
      · exact nofun
      · exact nofun

theorem toBoolean?_form (h : toBoolean? v = some w) : ∃ b, w = .bool b := by
  cases v with
  | null =>
      cases h
      exact ⟨_, rfl⟩
  | bool b => cases h
  | str s | int i | float x | arr items | obj members =>
      simp only [toBoolean?] at h
      split at h
      · cases h
        exact ⟨_, rfl⟩
      · split at h
        · cases h
          exact ⟨_, rfl⟩
        · cases h

theorem toNull?_form (h : toNull? v = some w) : w = .null := by
  cases v with
  | null => cases h
  | bool b | str s | int i | float x | arr items | obj members =>
      simp only [toNull?] at h
      split at h
      · cases h
        rfl
      · cases h

/-- **A rule leads to a value of the type that it is for**, and never to an array or an object. -/
theorem admitsDeclared_of_rule (h : toDeclared v declared = .ok (some w)) :
    admitsDeclared w declared = true ∧ IsSingle w := by
  cases declared with
  | null | bool b | int i | float x | arr items | obj members => cases h
  | str name =>
      rw [toDeclared] at h
      rw [admitsDeclared]
      cases named : TypeName.ofText? name with
      | none => rw [named] at h; cases h
      | some type =>
          rw [named] at h
          cases type with
          | number =>
              rcases toNumber_form h with ⟨i, rfl⟩ | ⟨-, x, rfl⟩
              · exact ⟨rfl, isSingle_int i⟩
              · exact ⟨rfl, isSingle_float x⟩
          | integer =>
              rcases toNumber_form h with ⟨i, rfl⟩ | ⟨impossible, -⟩
              · exact ⟨rfl, isSingle_int i⟩
              · cases impossible
          | string =>
              obtain ⟨s, rfl⟩ := toText_form h
              exact ⟨rfl, isSingle_str s⟩
          | boolean =>
              obtain ⟨b, rfl⟩ := toBoolean?_form (Except.ok.inj h)
              exact ⟨rfl, isSingle_bool b⟩
          | null =>
              obtain rfl := toNull?_form (Except.ok.inj h)
              exact ⟨rfl, isSingle_null⟩
          | array | object => cases h

/-- What the first rule that applies comes to, unless no rule applies. -/
theorem toFirst_form {types : List Json} (h : toFirst v types = .ok w) :
    w = v ∨ types.any (admitsDeclared w) = true ∧ IsSingle w := by
  induction types with
  | nil =>
      cases h
      exact .inl rfl
  | cons declared rest ih =>
      rw [toFirst] at h
      split at h
      · cases h
      · next found rule =>
          cases h
          obtain ⟨admits, single⟩ := admitsDeclared_of_rule rule
          exact .inr ⟨by rw [List.any_cons, admits, Bool.true_or], single⟩
      · rcases ih h with same | ⟨admits, single⟩
        · exact .inl same
        · exact .inr ⟨by rw [List.any_cons, admits, Bool.or_true], single⟩

/-- The types that a keyword names: one, or several. -/
def declaredTypes : Json → List Json
  | .arr types => types
  | x => [x]

theorem coerceType_some {x : Json} (something : x ≠ .null) (v : Json) :
    coerceType (some x) v =
      if (declaredTypes x).any (admitsDeclared v) then .ok v else toFirst v (declaredTypes x) := by
  cases x with
  | null => exact absurd rfl something
  | bool b | int i | float y | str s | arr types | obj members => rfl

/-- A single value that was coerced to declared types is one still, and coerced to them again it
stays as it is. -/
theorem coerceType_coerced {types : Option Json} (single : IsSingle v)
    (h : coerceType types v = .ok w) : IsSingle w ∧ coerceType types w = .ok w := by
  cases types with
  | none =>
      cases h
      exact ⟨single, rfl⟩
  | some x =>
      by_cases nothing : x = .null
      · subst nothing
        cases h
        exact ⟨single, rfl⟩
      · have form := coerceType_some nothing v
        rw [form] at h
        split at h
        · cases h
          exact ⟨single, by rw [form, if_pos ‹_›]⟩
        · rcases toFirst_form h with rfl | ⟨admitted, single⟩
          · exact ⟨single, by rw [form, if_neg ‹_›, h]⟩
          · exact ⟨single, by rw [coerceType_some nothing, if_pos admitted]⟩

end Rules

/-! ## Lists -/

theorem mapUntilFault_eq_ok_iff {α β : Type} {f : α → Except Fault β} {xs : List α} {ys : List β} :
    mapUntilFault f xs = .ok ys ↔ List.Forall₂ (fun x y => f x = .ok y) xs ys := by
  induction xs generalizing ys with
  | nil =>
      rw [mapUntilFault, Except.ok.injEq, List.forall₂_nil_left_iff]
      exact eq_comm
  | cons x rest ih =>
      rw [mapUntilFault, List.forall₂_cons_left_iff]
      cases hx : f x with
      | error e => simp
      | ok y =>
          simp only [map_eq_ok_iff, ih, Except.ok.injEq]
          constructor
          · rintro ⟨more, each, rfl⟩
            exact ⟨y, more, rfl, each, rfl⟩
          · rintro ⟨y, more, rfl, each, rfl⟩
            exact ⟨more, each, rfl⟩

theorem exists_of_mem_mapUntilFault {α β : Type} {f : α → Except Fault β} {xs : List α}
    {ys : List β} (done : mapUntilFault f xs = .ok ys) {y : β} (mem : y ∈ ys) :
    ∃ x ∈ xs, f x = .ok y := by
  rw [mapUntilFault_eq_ok_iff] at done
  induction done with
  | nil => cases mem
  | cons first _ ih =>
      rcases List.mem_cons.1 mem with rfl | mem
      · exact ⟨_, List.mem_cons_self .., first⟩
      · obtain ⟨x, listed, same⟩ := ih mem
        exact ⟨x, List.mem_cons_of_mem _ listed, same⟩

theorem ok_of_mapUntilFault {α β : Type} {f : α → Except Fault β} {xs : List α} {ys : List β}
    (done : mapUntilFault f xs = .ok ys) {x : α} (mem : x ∈ xs) : ∃ y, f x = .ok y := by
  rw [mapUntilFault_eq_ok_iff] at done
  induction done with
  | nil => cases mem
  | cons first _ ih =>
      rcases List.mem_cons.1 mem with rfl | mem
      · exact ⟨_, first⟩
      · exact ih mem

theorem exists_of_mapUntilFault_error {α β : Type} {f : α → Except Fault β} {xs : List α}
    {e : Fault} (failed : mapUntilFault f xs = .error e) : ∃ x ∈ xs, f x = .error e := by
  induction xs with
  | nil => cases failed
  | cons x rest ih =>
      rw [mapUntilFault] at failed
      split at failed
      · next fault first =>
          cases failed
          exact ⟨x, List.mem_cons_self .., first⟩
      · cases later : mapUntilFault f rest with
        | error fault =>
            rw [later] at failed
            cases failed
            obtain ⟨y, mem, there⟩ := ih later
            exact ⟨y, List.mem_cons_of_mem _ mem, there⟩
        | ok ys =>
            rw [later] at failed
            cases failed

theorem mapUntilFault_fails {α β : Type} {f : α → Except Fault β} {xs : List α} {x : α}
    {e : Fault} (mem : x ∈ xs) (there : f x = .error e) : ∃ e', mapUntilFault f xs = .error e' := by
  cases all : mapUntilFault f xs with
  | error e' => exact ⟨e', rfl⟩
  | ok ys =>
      obtain ⟨y, done⟩ := ok_of_mapUntilFault all mem
      rw [there] at done
      cases done

theorem mapUntilFault_map {α β γ : Type} (f : α → Except Fault β) (g : γ → α) (xs : List γ) :
    mapUntilFault f (xs.map g) = mapUntilFault (fun x => f (g x)) xs := by
  induction xs with
  | nil => rfl
  | cons x rest ih =>
      rw [List.map_cons, mapUntilFault, mapUntilFault, ih]

/-! ## Whole values -/

variable {scope : Scope} {hops : Nat} {base : String} {keywords : List (String × Json)}

/-- Coercion of one member of an object. -/
def coerceMember (scope : Scope) (base : String) (keywords : List (String × Json))
    (member : String × Json) : Except Fault (String × Json) :=
  match memberSchema? keywords member.1 with
  | .error e => .error e
  | .ok none => .ok member
  | .ok (some sub) =>
      (coerceUnder scope scope.chainLimit base sub member.2).map (member.1, ·)

/-- Coercion of the item at a position. -/
def coerceItem (scope : Scope) (base : String) (keywords : List (String × Json))
    (entry : Json × Nat) : Except Fault Json :=
  match itemSchema? keywords entry.2 with
  | none => .ok entry.1
  | some sub => coerceUnder scope scope.chainLimit base sub entry.1

theorem coerceUnder_obj (plain : localReference? keywords = none) (members : List (String × Json)) :
    coerceUnder scope hops base (.obj keywords) (.obj members) =
      (mapUntilFault (coerceMember scope base keywords) members).map .obj := by
  rw [coerceUnder.eq_def]
  simp only [plain]
  conv_rhs => rw [← List.attach_map_subtype_val members, mapUntilFault_map]
  rfl

theorem coerceUnder_arr (plain : localReference? keywords = none) (items : List Json) :
    coerceUnder scope hops base (.obj keywords) (.arr items) =
      (mapUntilFault (coerceItem scope base keywords) items.zipIdx).map .arr := by
  have positions : items.attach.zipIdx.map (Prod.map Subtype.val id) = items.zipIdx := by
    rw [← List.zipIdx_map, List.attach_map_subtype_val]
  rw [coerceUnder.eq_def]
  simp only [plain]
  rw [← positions, mapUntilFault_map]
  rfl

theorem coerceUnder_single (plain : localReference? keywords = none) {v : Json}
    (single : IsSingle v) :
    coerceUnder scope hops base (.obj keywords) v =
      coerceType (Table.get? keywords "type") v := by
  rw [coerceUnder.eq_def]
  simp only [plain]
  cases v with
  | arr items => exact absurd rfl (single.1 items)
  | obj members => exact absurd rfl (single.2 members)
  | null | bool b | int i | float x | str s => rfl

theorem coerceMember_coerced {member coerced : String × Json}
    (again : ∀ (sub w : Json),
      coerceUnder scope scope.chainLimit base sub member.2 = .ok w →
        coerceUnder scope scope.chainLimit base sub w = .ok w)
    (h : coerceMember scope base keywords member = .ok coerced) :
    coerceMember scope base keywords coerced = .ok coerced := by
  obtain ⟨name, value⟩ := member
  rw [coerceMember] at h
  cases found : memberSchema? keywords name with
  | error e =>
      rw [found] at h
      cases h
  | ok sub? =>
      rw [found] at h
      cases sub? with
      | none =>
          cases h
          rw [coerceMember, found]
      | some sub =>
          obtain ⟨w, below, rfl⟩ := map_eq_ok_iff.1 h
          rw [coerceMember, found]
          exact map_eq_ok_iff.2 ⟨w, again sub w below, rfl⟩

theorem coerceItem_coerced {entry : Json × Nat} {coerced : Json}
    (again : ∀ (sub w : Json),
      coerceUnder scope scope.chainLimit base sub entry.1 = .ok w →
        coerceUnder scope scope.chainLimit base sub w = .ok w)
    (h : coerceItem scope base keywords entry = .ok coerced) :
    coerceItem scope base keywords (coerced, entry.2) = .ok coerced := by
  rw [coerceItem] at h
  cases found : itemSchema? keywords entry.2 with
  | none =>
      rw [found] at h
      cases h
      rw [coerceItem, found]
  | some sub =>
      rw [found] at h
      rw [coerceItem, found]
      exact again sub coerced h

/-- Where each element of a list is made into one that is left as it is, so is the whole list. -/
theorem mapUntilFault_coerced {α : Type} {f : α → Except Fault α} {xs ys : List α}
    (again : ∀ x ∈ xs, ∀ y, f x = .ok y → f y = .ok y) (h : mapUntilFault f xs = .ok ys) :
    mapUntilFault f ys = .ok ys := by
  rw [mapUntilFault_eq_ok_iff] at h ⊢
  induction h with
  | nil => exact .nil
  | cons first rest ih =>
      exact .cons (again _ (List.mem_cons_self ..) _ first)
        (ih fun x member => again x (List.mem_cons_of_mem _ member))

/-- The same for a function of the elements and their positions. -/
theorem mapUntilFault_zipIdx_coerced {α : Type} {f : α × Nat → Except Fault α} {xs ys : List α}
    {start : Nat} (again : ∀ x ∈ xs, ∀ i y, f (x, i) = .ok y → f (y, i) = .ok y)
    (h : mapUntilFault f (xs.zipIdx start) = .ok ys) :
    mapUntilFault f (ys.zipIdx start) = .ok ys := by
  rw [mapUntilFault_eq_ok_iff] at h ⊢
  induction xs generalizing start ys with
  | nil =>
      cases h
      exact .nil
  | cons x rest ih =>
      rw [List.zipIdx_cons, List.forall₂_cons_left_iff] at h
      obtain ⟨y, more, first, later, rfl⟩ := h
      exact .cons (again x (List.mem_cons_self ..) _ y first)
        (ih (fun x member => again x (List.mem_cons_of_mem _ member)) later)

/-- Under a schema, coercion leaves a value that it has made as it is. -/
def Settles (scope : Scope) (hops : Nat) (base : String) (schema v : Json) : Prop :=
  ∀ w, coerceUnder scope hops base schema v = .ok w → coerceUnder scope hops base schema w = .ok w

/-- A schema without a reference keeps the schemas of members and items. -/
theorem settles_of_lighter {v : Json} (plain : localReference? keywords = none)
    (lighter : ∀ part : Json, part.weight < v.weight →
      ∀ sub, Settles scope scope.chainLimit base sub part) :
    Settles scope hops base (.obj keywords) v := by
  intro w h
  rcases single_or_made_of v with single | ⟨items, rfl⟩ | ⟨members, rfl⟩
  · rw [coerceUnder_single plain single] at h
    obtain ⟨single, again⟩ := coerceType_coerced single h
    rw [coerceUnder_single plain single, again]
  · rw [coerceUnder_arr plain] at h
    obtain ⟨coerced, each, rfl⟩ := map_eq_ok_iff.1 h
    rw [coerceUnder_arr plain]
    refine map_eq_ok_iff.2 ⟨coerced, mapUntilFault_zipIdx_coerced ?_ each, rfl⟩
    intro item inside position _
    have le := Json.weight_le_weightItems inside
    have again (sub : Json) : Settles scope scope.chainLimit base sub (item, position).1 :=
      lighter item (by rw [Json.weight]; omega) sub
    exact coerceItem_coerced again
  · rw [coerceUnder_obj plain] at h
    obtain ⟨coerced, each, rfl⟩ := map_eq_ok_iff.1 h
    rw [coerceUnder_obj plain]
    refine map_eq_ok_iff.2 ⟨coerced, mapUntilFault_coerced ?_ each, rfl⟩
    intro member inside _
    have lt := Json.weight_lt_weightMembers inside
    exact coerceMember_coerced (lighter member.2 (by rw [Json.weight]; omega))

/-- **Coercion leaves a value that it has made as it is.** The induction is on the value, and for
each value on the references that may still be followed: they are followed alike whatever the value
is. -/
theorem settles (scope : Scope) (hops : Nat) (base : String) (schema v : Json) :
    Settles scope hops base schema v := by
  induction size : v.weight using Nat.strongRecOn generalizing hops base schema v with
  | ind n ih =>
      have lighter (base : String) (part : Json) (lt : part.weight < v.weight) (sub : Json) :
          Settles scope scope.chainLimit base sub part :=
        ih part.weight (size ▸ lt) _ base sub part rfl
      induction hops generalizing base schema with
      | zero =>
          cases schema with
          | null | bool b | int i | float x | str s | arr items =>
              intro w _
              rw [coerceUnder.eq_def]
          | obj keywords =>
              cases reference : localReference? keywords with
              | none => exact settles_of_lighter reference (lighter base)
              | some ref =>
                  intro w h
                  rw [coerceUnder.eq_def] at h
                  simp only [reference] at h
                  cases h
      | succ hops further =>
          cases schema with
          | null | bool b | int i | float x | str s | arr items =>
              intro w _
              rw [coerceUnder.eq_def]
          | obj keywords =>
              cases reference : localReference? keywords with
              | none => exact settles_of_lighter reference (lighter base)
              | some ref =>
                  intro w h
                  rw [coerceUnder.eq_def] at h ⊢
                  simp only [reference] at h ⊢
                  split at h
                  · rfl
                  · cases h
                  · exact further _ _ w h

/-- Coercion under a schema document leaves what it has made as it is. -/
theorem coerce_coerced {schema v w : Json} (h : coerce schema v = .ok w) :
    coerce schema w = .ok w :=
  settles _ _ _ schema v w h

end RouteContract.Schema

import RouteContract.Proofs.Number.Numeral
import RouteContract.Proofs.Schema.Overreach
import RouteContract.Proofs.Schema.WellFormed

/-!
# Values that coercion chokes on

Coercion tells by one look whether a text is an integer and reads it by another one. A text that
passes the first and not the second makes coercion fail as a whole: one with more digits than can be
read, or with a blank around it that only one of the two knows. So does an integer with more digits
than can be written, where a text is declared. Under a well-formed schema nothing else makes it fail
(`coerce_error_iff`). Where it does not fail, a text is left unchanged or becomes a value of a type
that is declared for it (`text_coerced`).
-/

set_option autoImplicit false

namespace RouteContract.Schema

open RouteContract Json Pointer

/-! ## Texts -/

/-- A text that looks like an integer and is not read as one. -/
structure IsUnreadable (s : String) : Prop where
  spelled : isIntegerText (Text.trim s.toList) = true
  unread : ∀ i, Number.readInteger s.toList ≠ .ok i

section Digits

open Number

variable {digits : List Char}

end Digits

/-- A value that is turned into a declared type by a rule that fails on it. -/
inductive Defeats : Json → Json → Prop where
  | reading {name s : String} (isInteger : TypeName.ofText? name = some .integer)
      (unreadable : IsUnreadable s) : Defeats (.str name) (.str s)
  | writing {name : String} {i : Int} (isText : TypeName.ofText? name = some .string)
      (unwritable : (Json.int i).isWritable = false) : Defeats (.str name) (.int i)

/-- A value of none of the declared types is tried as one that defeats it, before any other one takes
it. -/
structure ChokesOn (x v : Json) : Prop where
  refused : (declaredTypes x).any (admitsDeclared v) = false
  tried : ∃ before declared after, declaredTypes x = before ++ declared :: after ∧
    Defeats declared v ∧ ∀ other ∈ before, toDeclared v other = .ok none

/-- Coercion chokes on texts and integers only. -/
theorem ChokesOn.isSingle {x v : Json} (chokes : ChokesOn x v) : IsSingle v := by
  obtain ⟨-, declared, -, -, defeats, -⟩ := chokes.tried
  cases defeats with
  | reading | writing => exact ⟨nofun, nofun⟩

/-- A result is a fault exactly on a condition, and always the same fault. -/
def FailsWhen {α : Type} (chokes : Prop) (r : Except Fault α) : Prop :=
  ∀ e, r = .error e ↔ e = .badNumeral ∧ chokes

namespace FailsWhen

variable {α β : Type} {chokes chokes' : Prop} {r : Except Fault α}

theorem ok {a : α} (free : ¬ chokes) : FailsWhen chokes (.ok a : Except Fault α) := by
  intro e
  constructor
  · exact nofun
  · rintro ⟨-, choked⟩
    exact absurd choked free

theorem error (choked : chokes) : FailsWhen chokes (.error .badNumeral : Except Fault α) := by
  intro e
  constructor
  · rintro ⟨⟩
    exact ⟨rfl, choked⟩
  · rintro ⟨rfl, -⟩
    rfl

theorem congr (h : FailsWhen chokes r) (same : chokes ↔ chokes') : FailsWhen chokes' r := by
  intro e
  rw [h e, same]

theorem map (h : FailsWhen chokes r) (f : α → β) : FailsWhen chokes (r.map f) := by
  intro e
  rw [← h e]
  cases r with
  | error other =>
      constructor
      · rintro ⟨⟩
        rfl
      · rintro ⟨⟩
        rfl
  | ok a => exact ⟨nofun, nofun⟩

theorem mapUntilFault {f : α → Except Fault β} {chokes : α → Prop} {xs : List α}
    (each : ∀ x ∈ xs, FailsWhen (chokes x) (f x)) :
    FailsWhen (∃ x ∈ xs, chokes x) (mapUntilFault f xs) := by
  induction xs with
  | nil => exact .ok (by simp)
  | cons x rest ih =>
      obtain ⟨first, later⟩ := List.forall_mem_cons.1 each
      rw [Schema.mapUntilFault]
      cases done : f x with
      | error e =>
          obtain ⟨rfl, choked⟩ := (first e).1 done
          exact .error ⟨x, List.mem_cons_self .., choked⟩
      | ok y =>
          have free : ¬ chokes x := by
            intro choked
            have failed := (first _).2 ⟨rfl, choked⟩
            rw [done] at failed
            cases failed
          refine ((ih later).map _).congr ?_
          rw [List.exists_mem_cons_iff]
          simp [free]

end FailsWhen

section Rules

variable {v x declared : Json}

theorem toNumber_fails (integerOnly : Bool) (v : Json) :
    FailsWhen (integerOnly = true ∧ ∃ s, v = .str s ∧ IsUnreadable s) (toNumber integerOnly v) := by
  cases v with
  | null | bool b | int i | float y | arr items | obj members => exact .ok (by simp)
  | str s =>
      rw [toNumber]
      cases integerOnly with
      | false => exact .ok (by simp)
      | true =>
          rw [if_pos rfl]
          split
          · next spelled =>
              split
              · next i read =>
                  refine .ok ?_
                  rintro ⟨-, other, same, unreadable⟩
                  cases same
                  exact unreadable.unread i read
              · next e read =>
                  refine .error ⟨rfl, s, rfl, spelled, ?_⟩
                  intro i same
                  rw [read] at same
                  cases same
          · next other =>
              refine .ok ?_
              rintro ⟨-, text, same, unreadable⟩
              cases same
              exact other unreadable.spelled

theorem toText_fails (v : Json) :
    FailsWhen (∃ i, v = .int i ∧ (Json.int i).isWritable = false) (toText v) := by
  cases v with
  | null | bool b | float y | str s | arr items | obj members => exact .ok (by simp)
  | int i =>
      have spelled : toText (.int i) = (textOfNumber (.int i)).map (·.map .str) := rfl
      rw [spelled, textOfNumber]
      cases writable : (Json.int i).isWritable with
      | true => exact .ok (by simp [writable])
      | false => exact .error ⟨i, rfl, writable⟩

/-- A rule fails on the values that the type defeats. -/
theorem toDeclared_fails (v declared : Json) :
    FailsWhen (Defeats declared v) (toDeclared v declared) := by
  cases declared with
  | null | bool b | int i | float y | arr items | obj members => exact .ok nofun
  | str name =>
      have harmless (noInteger : TypeName.ofText? name ≠ some .integer)
          (noText : TypeName.ofText? name ≠ some .string) : ¬ Defeats (.str name) v := by
        rintro (⟨isInteger, -⟩ | ⟨isText, -⟩)
        · exact noInteger isInteger
        · exact noText isText
      rw [toDeclared]
      cases named : TypeName.ofText? name with
      | none => exact .ok (harmless (by simp [named]) (by simp [named]))
      | some type =>
          cases type with
          | integer =>
              refine (toNumber_fails true v).congr ⟨?_, ?_⟩
              · rintro ⟨-, s, rfl, unreadable⟩
                exact .reading named unreadable
              · rintro (⟨-, unreadable⟩ | ⟨isText, -⟩)
                · exact ⟨rfl, _, rfl, unreadable⟩
                · rw [named] at isText
                  cases isText
          | string =>
              refine (toText_fails v).congr ⟨?_, ?_⟩
              · rintro ⟨i, rfl, unwritable⟩
                exact .writing named unwritable
              · rintro (⟨isInteger, -⟩ | ⟨-, unwritable⟩)
                · rw [named] at isInteger
                  cases isInteger
                · exact ⟨_, rfl, unwritable⟩
          | number =>
              exact (toNumber_fails false v).congr
                (iff_of_false (by simp) (harmless (by simp [named]) (by simp [named])))
          | null | boolean | array | object =>
              exact .ok (harmless (by simp [named]) (by simp [named]))

/-- Several types are tried until one takes the value, or defeats it. -/
theorem toFirst_fails (v : Json) (types : List Json) :
    FailsWhen (∃ before declared after, types = before ++ declared :: after ∧
        Defeats declared v ∧ ∀ other ∈ before, toDeclared v other = .ok none)
      (toFirst v types) := by
  induction types with
  | nil => exact .ok (by simp)
  | cons declared rest ih =>
      rw [toFirst]
      cases tried : toDeclared v declared with
      | error e =>
          obtain ⟨rfl, defeats⟩ := (toDeclared_fails v declared e).1 tried
          exact .error ⟨[], declared, rest, rfl, defeats, List.forall_mem_nil _⟩
      | ok taken =>
          have passed : ¬ Defeats declared v := by
            intro defeats
            have failed := (toDeclared_fails v declared _).2 ⟨rfl, defeats⟩
            rw [tried] at failed
            cases failed
          cases taken with
          | some w =>
              refine .ok ?_
              rintro ⟨before, other, after, same, defeats, none⟩
              cases before with
              | nil =>
                  cases same
                  exact passed defeats
              | cons first more =>
                  cases same
                  rw [none declared (List.mem_cons_self ..)] at tried
                  cases tried
          | none =>
              refine ih.congr ⟨?_, ?_⟩
              · rintro ⟨before, other, after, rfl, defeats, none⟩
                exact ⟨declared :: before, other, after, rfl, defeats,
                  List.forall_mem_cons.2 ⟨tried, none⟩⟩
              · rintro ⟨before, other, after, same, defeats, none⟩
                cases before with
                | nil =>
                    cases same
                    exact absurd defeats passed
                | cons first more =>
                    cases same
                    exact ⟨more, other, after, rfl, defeats, (List.forall_mem_cons.1 none).2⟩

theorem coerceType_fails (types : Option Json) (v : Json) :
    FailsWhen (∃ x, types = some x ∧ ChokesOn x v) (coerceType types v) := by
  cases types with
  | none => exact .ok (by simp)
  | some x =>
      by_cases nothing : x = .null
      · subst nothing
        refine .ok ?_
        rintro ⟨x, same, chokes⟩
        cases same
        obtain ⟨before, declared, after, same, defeats, -⟩ := chokes.tried
        have listed : declared ∈ declaredTypes .null := same ▸ by simp
        cases List.mem_singleton.1 listed
        cases defeats
      · rw [coerceType_some nothing]
        cases admitted : (declaredTypes x).any (admitsDeclared v) with
        | true =>
            refine .ok ?_
            rintro ⟨x, same, chokes⟩
            cases same
            rw [chokes.refused] at admitted
            cases admitted
        | false =>
            rw [if_neg Bool.false_ne_true]
            refine (toFirst_fails v (declaredTypes x)).congr ⟨?_, ?_⟩
            · intro tried
              exact ⟨x, rfl, admitted, tried⟩
            · rintro ⟨x, same, chokes⟩
              cases same
              exact chokes.tried

end Rules

/-! ## Where coercion looks -/

/-- Coercion takes a part of a value to a schema: the steps to the part, the keywords of the schema,
and the part itself. -/
inductive Governs (root : Json) :
    Json → Json → List Step → List (String × Json) → Json → Prop where
  | here {keywords : List (String × Json)} {v : Json} (plain : localReference? keywords = none) :
      Governs root (.obj keywords) v [] keywords v
  | reference {keywords inner : List (String × Json)} {ref : String} {target v part : Json}
      {steps : List Step} (stated : localReference? keywords = some ref)
      (leads : LeadsTo root ref target) (below : Governs root target v steps inner part) :
      Governs root (.obj keywords) v steps inner part
  | member {keywords members inner : List (String × Json)} {name : String} {w sub part : Json}
      {steps : List Step} (plain : localReference? keywords = none)
      (memberAt : Table.get? members name = some w)
      (found : memberSchema? keywords name = .ok (some sub))
      (below : Governs root sub w steps inner part) :
      Governs root (.obj keywords) (.obj members) (.key name :: steps) inner part
  | item {keywords inner : List (String × Json)} {items : List Json} {i : Nat}
      {item sub part : Json} {steps : List Step} (plain : localReference? keywords = none)
      (itemAt : items[i]? = some item) (found : itemSchema? keywords i = some sub)
      (below : Governs root sub item steps inner part) :
      Governs root (.obj keywords) (.arr items) (.index i :: steps) inner part

/-- Somewhere in a value, coercion chokes on a part of it: it tries to read an unreadable text as an
integer, or to write an integer that has no text. -/
def Chokes (root schema v : Json) : Prop :=
  ∃ steps keywords x part, Governs root schema v steps keywords part ∧
    Table.get? keywords "type" = some x ∧ ChokesOn x part

namespace Chokes

variable {root v : Json} {keywords members : List (String × Json)}

/-- At a reference, it happens where the reference leads to. -/
theorem reference_iff {ref : String} {target : Json} (stated : localReference? keywords = some ref)
    (leads : LeadsTo root ref target) : Chokes root (.obj keywords) v ↔ Chokes root target v := by
  constructor
  · rintro ⟨steps, inner, x, part, governs, declared, chokes⟩
    cases governs with
    | reference same other below =>
        rw [stated] at same
        cases same
        rw [leads.unique other]
        exact ⟨steps, inner, x, part, below, declared, chokes⟩
    | here plain | member plain | item plain =>
        rw [plain] at stated
        cases stated
  · rintro ⟨steps, inner, x, part, below, declared, chokes⟩
    exact ⟨steps, inner, x, part, .reference stated leads below, declared, chokes⟩

theorem obj_iff (plain : localReference? keywords = none)
    (distinct : (Table.keys members).Nodup) :
    Chokes root (.obj keywords) (.obj members) ↔
      ∃ entry ∈ members, ∃ sub, memberSchema? keywords entry.1 = .ok (some sub) ∧
        Chokes root sub entry.2 := by
  constructor
  · rintro ⟨steps, inner, x, part, governs, declared, chokes⟩
    cases governs with
    | here => exact absurd rfl (chokes.isSingle.2 _)
    | member _ memberAt found below =>
        exact ⟨_, Table.mem_of_get? memberAt, _, found, _, inner, x, part, below, declared, chokes⟩
    | reference stated =>
        rw [plain] at stated
        cases stated
  · rintro ⟨entry, among, sub, found, steps, inner, x, part, below, declared, chokes⟩
    have memberAt := Table.get?_eq_some_of_mem distinct among
    exact ⟨_, inner, x, part, .member plain memberAt found below, declared, chokes⟩

theorem arr_iff (plain : localReference? keywords = none) {items : List Json} :
    Chokes root (.obj keywords) (.arr items) ↔
      ∃ entry ∈ items.zipIdx, ∃ sub, itemSchema? keywords entry.2 = some sub ∧
        Chokes root sub entry.1 := by
  constructor
  · rintro ⟨steps, inner, x, part, governs, declared, chokes⟩
    cases governs with
    | here => exact absurd rfl (chokes.isSingle.1 _)
    | item _ itemAt found below =>
        exact ⟨(_, _), List.mk_mem_zipIdx_iff_getElem?.2 itemAt, _, found, _, inner, x, part, below,
          declared, chokes⟩
    | reference stated =>
        rw [plain] at stated
        cases stated
  · rintro ⟨entry, among, sub, found, steps, inner, x, part, below, declared, chokes⟩
    exact ⟨_, inner, x, part, .item plain (List.mem_zipIdx_iff_getElem?.1 among) found below,
      declared, chokes⟩

end Chokes

/-! ## Well-formed schemas -/

section Schemas

variable {root whole schema v w sub : Json} {keywords members : List (String × Json)}

/-- Coercion looks a reference up at an address of its own. -/
theorem LeadsTo.coercion {ref : String} {target : Json} (leads : LeadsTo root ref target) :
    ∃ inside, (coercionScope root).lookup coercionAddress ref = .ok (target, inside) ∧
      ReadsFrom coercionAddress inside target := leads.2 coercionAddress

/-- Coercion follows the references of sound schemas. -/
theorem IsSound.localReference?_eq_none_iff (sound : IsSound root (.obj keywords)) :
    localReference? keywords = none ↔ Table.get? keywords "$ref" = none := by
  constructor
  · intro leaves
    cases stated : Table.get? keywords "$ref" with
    | none => rfl
    | some x =>
        obtain ⟨ref, target, rfl, isLocal, -⟩ := sound.leads stated
        rw [localReference?, stated] at leaves
        simp [isLocal] at leaves
  · exact localReference?_of_plain

/-- The schema that coercion takes a member to is the declared one of its name, or the one for
additional members. -/
theorem declared_or_additional {name : String}
    (usable : ∀ entry ∈ keywords, canUse entry.1 entry.2 = true)
    (found : memberSchema? keywords name = .ok (some sub)) :
    (∃ declared, ("properties", .obj declared) ∈ keywords ∧ (name, sub) ∈ declared) ∨
      (("additionalProperties", sub) ∈ keywords ∧ additionalSchema? keywords = some sub ∧
        namesContain ((Table.get? keywords "properties").getD (.obj [])) name = .ok false) := by
  obtain ⟨declared, declares⟩ := declares_of_usable usable
  rw [memberSchema?_eq declares, Except.ok.injEq] at found
  split at found
  · next has =>
      left
      cases stated : Table.get? keywords "properties" with
      | none =>
          rw [stated] at declares
          cases declares
          cases has
      | some x =>
          rw [stated] at declares
          obtain rfl : x = .obj declared := declares
          exact ⟨declared, Table.mem_of_get? stated, Table.mem_of_get? found⟩
  · next lacks =>
      right
      have undeclared : Table.has declared name = false := Bool.eq_false_iff.2 lacks
      refine ⟨?_, found, by rw [declares, namesContain, undeclared]⟩
      rw [additionalSchema?] at found
      split at found
      · next extra stated =>
          cases found
          exact Table.mem_of_get? stated
      · cases found

/-- Coercion takes a member to a schema that evaluation may apply to it. -/
theorem appliesBelow_of_memberSchema? {entry : String × Json}
    (usable : ∀ entry ∈ keywords, canUse entry.1 entry.2 = true) (among : entry ∈ members)
    (found : memberSchema? keywords entry.1 = .ok (some sub)) :
    AppliesBelow keywords (.obj members) sub entry.2 := by
  rcases declared_or_additional usable found with ⟨declared, stated, mem⟩ | ⟨stated, -, undeclared⟩
  · exact .property stated mem among
  · exact .additional stated among undeclared

theorem appliesBelow_of_itemSchema? {items : List Json} {i : Nat} {item : Json}
    (itemAt : items[i]? = some item) (found : itemSchema? keywords i = some sub) :
    AppliesBelow keywords (.arr items) sub item := by
  rw [itemSchema?] at found
  split at found
  · next subs stated => exact .eachItem (Table.mem_of_get? stated) found itemAt
  · next inner stated =>
      cases found
      exact .items (Table.mem_of_get? stated) rfl (List.mem_of_getElem? itemAt)
  · cases found

end Schemas

/-! ## Texts that are left -/

section Left

variable {root whole schema v w part : Json} {keywords inner : List (String × Json)}
  {steps : List Step} {s : String}

/-- Coercion takes parts of a value to schemas that evaluation may apply to them. -/
theorem Governs.meets (wellFormed : IsWellFormed root) (met : Meets root whole schema v)
    (governs : Governs root schema v steps inner part) : Meets root whole (.obj inner) part := by
  induction governs with
  | here => exact met
  | reference stated leads _ ih =>
      exact ih (met.target (stated_of_localReference? stated).1 leads)
  | member plain memberAt found _ ih =>
      have sound := wellFormed.sound _ met.stands
      have plain := sound.localReference?_eq_none_iff.1 plain
      exact ih (met.inside plain (appliesBelow_of_memberSchema? (sound.usable plain)
        (Table.mem_of_get? memberAt) found))
  | item plain itemAt found _ ih =>
      have sound := wellFormed.sound _ met.stands
      have plain := sound.localReference?_eq_none_iff.1 plain
      exact ih (met.inside plain (appliesBelow_of_itemSchema? itemAt found))

theorem get?_of_mapUntilFault {f : String × Json → Except Fault (String × Json)}
    {members coerced : List (String × Json)} (names : ∀ entry w, f entry = .ok w → w.1 = entry.1)
    (each : mapUntilFault f members = .ok coerced) {name : String} {w : Json}
    (found : Table.get? members name = some w) :
    ∃ u, f (name, w) = .ok (name, u) ∧ Table.get? coerced name = some u := by
  rw [mapUntilFault_eq_ok_iff] at each
  induction each with
  | nil => cases found
  | @cons entry result _ _ first _ ih =>
      obtain ⟨other, value⟩ := entry
      obtain ⟨kept, u⟩ := result
      obtain rfl : kept = other := names _ _ first
      by_cases here : kept = name
      · subst here
        rw [Table.get?_cons_self, Option.some.injEq] at found
        subst found
        exact ⟨u, first, Table.get?_cons_self ..⟩
      · rw [Table.get?_cons_of_ne here] at found ⊢
        exact ih found

theorem getElem?_of_mapUntilFault {f : Json × Nat → Except Fault Json} {items coerced : List Json}
    {start : Nat} (each : mapUntilFault f (items.zipIdx start) = .ok coerced) {i : Nat}
    {item : Json} (found : items[i]? = some item) :
    ∃ u, f (item, start + i) = .ok u ∧ coerced[i]? = some u := by
  rw [mapUntilFault_eq_ok_iff] at each
  induction items generalizing start coerced i with
  | nil => cases found
  | cons first rest ih =>
      rw [List.zipIdx_cons, List.forall₂_cons_left_iff] at each
      obtain ⟨u, more, done, later, rfl⟩ := each
      cases i with
      | zero =>
          cases found
          exact ⟨u, done, rfl⟩
      | succ i =>
          obtain ⟨w, done, found⟩ := ih later found
          exact ⟨w, by rwa [Nat.add_right_comm] at done, found⟩

theorem coerceMember_name {scope : Scope} {base : String} {entry result : String × Json}
    (done : coerceMember scope base keywords entry = .ok result) : result.1 = entry.1 := by
  rw [coerceMember] at done
  split at done
  · cases done
  · cases done
    rfl
  · obtain ⟨u, -, rfl⟩ := map_eq_ok_iff.1 done
    rfl

theorem Governs.at?_eq (governs : Governs root schema v steps inner part) :
    v.at? steps = some part := by
  induction governs with
  | here => rfl
  | reference _ _ _ ih => exact ih
  | member _ memberAt _ _ ih => rw [at?_cons, child?_obj_key, memberAt, Option.bind_some, ih]
  | item _ itemAt _ _ ih => rw [at?_cons, child?_arr_index, itemAt, Option.bind_some, ih]

/-- **Coercion of a whole value coerces each of its texts by itself.** What becomes of a text stands
where the text stood, and is taken to the same schema. -/
theorem text_coerced {hops : Nat} {base : String}
    (governs : Governs root schema v steps inner (.str s))
    (reads : ReadsFrom coercionAddress base schema)
    (h : coerceUnder (coercionScope root) hops base schema v = .ok w) :
    ∃ u, coerceType (Table.get? inner "type") (.str s) = .ok u ∧
      Governs root schema w steps inner u := by
  generalize same : Json.str s = part at governs
  induction governs generalizing hops base w with
  | here plain =>
      subst same
      rw [coerceUnder_single plain (isSingle_str s)] at h
      exact ⟨w, h, .here plain⟩
  | reference stated leads _ ih =>
      cases hops with
      | zero =>
          rw [coerceUnder.eq_def] at h
          simp only [stated] at h
          cases h
      | succ hops =>
          obtain rfl := reads.base_eq (stated_of_localReference? stated).1
          obtain ⟨inside, found, within⟩ := leads.coercion
          rw [coerceUnder_reference stated found] at h
          obtain ⟨u, done, further⟩ := ih within h same
          exact ⟨u, done, .reference stated leads further⟩
  | member plain memberAt found _ ih =>
      rw [coerceUnder_obj plain] at h
      obtain ⟨coerced, each, rfl⟩ := map_eq_ok_iff.1 h
      obtain ⟨u, done, result⟩ := get?_of_mapUntilFault (fun _ _ => coerceMember_name) each memberAt
      rw [coerceMember, found] at done
      obtain ⟨u', below, pair⟩ := map_eq_ok_iff.1 done
      cases pair
      obtain ⟨t, done, further⟩ := ih (reads.of_isPart (memberSchema?_part found)) below same
      exact ⟨t, done, .member plain result found further⟩
  | item plain itemAt found _ ih =>
      rw [coerceUnder_arr plain] at h
      obtain ⟨coerced, each, rfl⟩ := map_eq_ok_iff.1 h
      obtain ⟨u, done, result⟩ := getElem?_of_mapUntilFault each itemAt
      rw [Nat.zero_add, coerceItem, found] at done
      obtain ⟨t, done, further⟩ := ih (reads.of_isPart (itemSchema?_part found)) done same
      exact ⟨t, done, .item plain result found further⟩

/-- No rule of coercion turns a text into a value of a declared type. -/
def IsUncoercible (keywords : List (String × Json)) (s : String) : Prop :=
  ∀ x, Table.get? keywords "type" = some x →
    ∀ declared ∈ declaredTypes x, toDeclared (.str s) declared = .ok none

theorem toFirst_eq_self {types : List Json}
    (none : ∀ declared ∈ types, toDeclared v declared = .ok none) : toFirst v types = .ok v := by
  induction types with
  | nil => rfl
  | cons declared rest ih =>
      obtain ⟨first, later⟩ := List.forall_mem_cons.1 none
      rw [toFirst, first]
      exact ih later

/-- A text that no rule applies to is left. -/
theorem coerceType_of_isUncoercible (uncoercible : IsUncoercible keywords s) :
    coerceType (Table.get? keywords "type") (.str s) = .ok (.str s) := by
  cases stated : Table.get? keywords "type" with
  | none => rfl
  | some x =>
      by_cases nothing : x = .null
      · subst nothing
        rfl
      · rw [coerceType_some nothing, toFirst_eq_self (uncoercible x stated), ite_self]

end Left

end RouteContract.Schema

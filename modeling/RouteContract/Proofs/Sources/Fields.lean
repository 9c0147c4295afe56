import RouteContract.Proofs.Data.Result
import RouteContract.Proofs.Data.Table
import RouteContract.Proofs.Data.Traversal
import RouteContract.Sources.Module

/-!
# Fields of classes

A class knows its fields by name, each of them once: the tables that a definition makes are written
entry by entry, and a field that is written again takes the place of the one before. A contract
shows the fields of keyed and fielded records under these names.
-/

set_option autoImplicit false

namespace RouteContract.Sources

open RouteContract

/-! ## What a definition makes -/

/-- The form of the class that a definition makes in a module, from its bases and its lineage. -/
def Forms (m : Module) (st : Statement) (bases : List Ancestor) (lineage : Lineage)
    (form : Form) : Prop :=
  match st.body with
  | .keyed isTotal _ fields => ∃ typed, typeFields m.scope fields = .ok typed ∧
      keyedForm m (bases.filter fun b => b matches .declared _) isTotal typed = .ok form
  | .fielded fields => ∃ typed, typeFields m.scope fields = .ok typed ∧
      fieldedForm (m.forms (lineage.drop 1)) typed = .ok form
  | .model fields => ∃ typed, typeFields m.scope fields = .ok typed ∧
      modelForm (m.bind st.name (.declared m.classes.length)).scope (m.forms bases)
        (m.forms (lineage.drop 1)) typed = .ok form
  | .enumeration _ => ∃ values, form = .enumeration values
  | .plain => form = .plain
  | .controller _ => ∃ actions, form = .controller actions
  | .synonym _ => False

/-- The bases of the class that a definition makes in a module, and its lineage. -/
structure Descends (m : Module) (st : Statement) (bases : List Ancestor) (lineage : Lineage) :
    Prop where
  named : (st.bases.getD (Module.defaultBases st.body)).mapM (ancestorOf m.scope) = .ok bases
  merged : lineage = [.declared m.classes.length] ∨
    lineageOf m.classes.length bases (bases.map m.lineage) = .ok lineage

/-- A definition binds its name to a term or to a new class. -/
theorem defineClass_cases {m m' : Module} {st : Statement} (h : m.defineClass st = .ok m') :
    (∃ h t, st.body = .synonym h ∧ h.evaluate m.scope = .ok t ∧ m' = m.bind st.name t) ∨
      ∃ bases lineage form members, Descends m st bases lineage ∧ Forms m st bases lineage form ∧
        m' = m.addClass st.name lineage form members := by
  rw [Module.defineClass] at h
  obtain ⟨bases, based, h⟩ := bind_eq_ok_iff.1 h
  cases body : st.body with
  | keyed isTotal hasDocs fields =>
      simp only [body] at h
      obtain ⟨typed, meant, h⟩ := bind_eq_ok_iff.1 h
      obtain ⟨form, formed, h⟩ := bind_eq_ok_iff.1 h
      cases h
      refine .inr ⟨bases, _, form, _, ⟨based, .inl rfl⟩, ?_, rfl⟩
      simp only [Forms, body]
      exact ⟨typed, meant, formed⟩
  | fielded fields | model fields =>
      simp only [body] at h
      obtain ⟨typed, meant, h⟩ := bind_eq_ok_iff.1 h
      obtain ⟨lineage, merged, h⟩ := bind_eq_ok_iff.1 h
      obtain ⟨form, formed, h⟩ := bind_eq_ok_iff.1 h
      cases h
      refine .inr ⟨bases, lineage, form, _, ⟨based, .inr merged⟩, ?_, rfl⟩
      simp only [Forms, body]
      exact ⟨typed, meant, formed⟩
  | enumeration entries =>
      simp only [body] at h
      obtain ⟨lineage, merged, h⟩ := bind_eq_ok_iff.1 h
      split at h
      · cases h
      · obtain ⟨values, -, h⟩ := bind_eq_ok_iff.1 h
        cases h
        refine .inr ⟨bases, lineage, _, _, ⟨based, .inr merged⟩, ?_, rfl⟩
        simp only [Forms, body]
        exact ⟨_, rfl⟩
  | plain =>
      simp only [body] at h
      obtain ⟨lineage, merged, h⟩ := bind_eq_ok_iff.1 h
      cases h
      refine .inr ⟨bases, lineage, _, _, ⟨based, .inr merged⟩, ?_, rfl⟩
      simp only [Forms, body]
  | controller actions =>
      simp only [body] at h
      obtain ⟨actions, -, h⟩ := bind_eq_ok_iff.1 h
      obtain ⟨lineage, merged, h⟩ := bind_eq_ok_iff.1 h
      cases h
      refine .inr ⟨bases, lineage, _, _, ⟨based, .inr merged⟩, ?_, rfl⟩
      simp only [Forms, body]
      exact ⟨_, rfl⟩
  | synonym hint =>
      simp only [body] at h
      obtain ⟨t, meant, h⟩ := bind_eq_ok_iff.1 h
      cases h
      exact .inl ⟨hint, t, rfl, meant, rfl⟩

/-- What holds of a module that is made from a document is shown definition by definition. -/
theorem ofDocument_induction {P : Module → Prop} {name : String} {document : ModuleDocument}
    {m : Module} (made : Module.ofDocument name document = .ok m)
    (start : P (.blank name))
    (step : ∀ earlier later st before after, document.statements = earlier ++ st :: later →
      Module.ofDocument name ⟨earlier, []⟩ = .ok before → P before →
      (before.addDocs st).defineClass st = .ok after → P after) : P m := by
  have all : ∀ (later earlier : List Statement) (before : Module),
      document.statements = earlier ++ later → Module.ofDocument name ⟨earlier, []⟩ = .ok before →
      P before → later.foldlM Module.define before = .ok m → P m := by
    intro later
    induction later with
    | nil =>
        intro earlier before _ _ known rest
        rw [List.foldlM_nil] at rest
        cases rest
        exact known
    | cons st later ih =>
        intro earlier before written sofar known rest
        rw [List.foldlM_cons] at rest
        obtain ⟨after, next, rest⟩ := bind_eq_ok_iff.1 rest
        refine ih (earlier ++ [st]) after ?_ ?_
          (step earlier later st before after written sofar known next) rest
        · rw [written, List.append_assoc]
          rfl
        · rw [Module.ofDocument] at sofar ⊢
          rw [List.foldlM_append, sofar]
          exact bind_eq_ok_iff.2 ⟨before, rfl, bind_eq_ok_iff.2 ⟨after, next, rfl⟩⟩
  exact all document.statements [] (.blank name) rfl rfl start made

/-- What every definition keeps holds of a module that is made from a document. -/
theorem ofDocument_invariant {P : Module → Prop} {name : String} {document : ModuleDocument}
    {m : Module} (made : Module.ofDocument name document = .ok m) (start : P (.blank name))
    (keeps : ∀ m st m', P m → (m.addDocs st).defineClass st = .ok m' → P m') : P m :=
  ofDocument_induction made start fun _ _ st before after _ _ known defined =>
    keeps before st after known defined

@[simp] theorem classes_addDocs (m : Module) (st : Statement) :
    (m.addDocs st).classes = m.classes := by
  rw [Module.addDocs]
  split
  · rfl
  · rfl

@[simp] theorem scope_addDocs (m : Module) (st : Statement) : (m.addDocs st).scope = m.scope := by
  rw [Module.addDocs]
  split
  · rfl
  · rfl

/-! ## Names of fields -/

/-- The names by which a class knows its fields. -/
def Class.attributes (c : Class) : List String :=
  match c.form with
  | .keyed keys => Table.keys keys
  | .fielded _ _ slots => slots.filterMap fun f => f.2.map fun _ => f.1
  | .model _ slots => Table.keys slots
  | _ => []

/-- A form knows each field once, and fielded records show their fields under the names by which they
know them. -/
def Form.IsNamed : Form → Prop
  | .keyed keys => (Table.keys keys).Nodup
  | .fielded _ _ slots => (Table.keys slots).Nodup ∧
      ∀ f ∈ slots, ∀ slot, f.2 = some slot → slot.shownName = f.1
  | .model _ slots => (Table.keys slots).Nodup
  | _ => True

theorem keyedForm_isNamed {m : Module} {bases : List Ancestor} {isTotal : Bool}
    {fields : List TypedField} {form : Form} (formed : keyedForm m bases isTotal fields = .ok form) :
    form.IsNamed := by
  obtain ⟨own, -, formed⟩ := bind_eq_ok_iff.1 formed
  obtain ⟨inherited, -, formed⟩ := bind_eq_ok_iff.1 formed
  cases formed
  refine Table.nodup_keys_putAll ?_ own
  exact List.foldlRecOn (motive := fun done => (Table.keys done).Nodup) inherited _ List.nodup_nil
    fun done distinct keys _ => Table.nodup_keys_putAll distinct keys

theorem fieldedSlot_shownName {valued : List String} {f : TypedField} {slot : Slot}
    (h : fieldedSlot valued f = .ok (some slot)) : slot.shownName = f.1.name := by
  rw [fieldedSlot] at h
  split at h
  · cases h
  · split at h
    · split at h
      · cases h
      · cases h
    · split at h
      · cases h
      · cases h
        rfl

/-- Names that are known once, with fields that are shown under them. -/
def IsNamedTable (slots : Table (Option Slot)) : Prop :=
  (Table.keys slots).Nodup ∧ ∀ f ∈ slots, ∀ slot, f.2 = some slot → slot.shownName = f.1

theorem IsNamedTable.putAll {slots more : Table (Option Slot)} (named : IsNamedTable slots)
    (shown : ∀ f ∈ more, ∀ slot, f.2 = some slot → slot.shownName = f.1) :
    IsNamedTable (Table.putAll slots more) :=
  ⟨Table.nodup_keys_putAll named.1 more, Table.forall_mem_putAll named.2 shown⟩

theorem fieldedForm_isNamed {ancestors : List Form} {fields : List TypedField} {form : Form}
    (named : ∀ ancestor ∈ ancestors, ancestor.IsNamed)
    (formed : fieldedForm ancestors fields = .ok form) : form.IsNamed := by
  obtain ⟨own, each, formed⟩ := bind_eq_ok_iff.1 formed
  simp only at formed
  split at formed
  · cases formed
    refine IsNamedTable.putAll ?_ ?_
    · refine List.foldlRecOn (motive := IsNamedTable) _ _ ⟨List.nodup_nil, nofun⟩ ?_
      intro done distinct ancestor listed
      split
      · next slots =>
          exact distinct.putAll (named _ (List.mem_reverse.1 listed)).2
      · exact distinct
    · intro entry listed slot found
      obtain ⟨f, -, made⟩ := exists_mem_of_forall₂ (forall₂_of_mapM_eq_ok each) listed
      obtain ⟨slot', slotted, rfl⟩ := map_eq_ok_iff.1 made
      obtain rfl : slot' = some slot := found
      exact fieldedSlot_shownName slotted
  · cases formed

theorem keys_closeSlots (s : Scope) (slots : Table Slot) :
    Table.keys (closeSlots s slots) = Table.keys slots := by
  rw [closeSlots]
  cases closed : slots.mapM fun f => if f.2.isOpen then
      (s.resolve true f.2.hint).map fun t =>
        (f.1, { f.2 with hint := t.splitRemarks.1, isOpen := false })
    else .ok f with
  | error e => rfl
  | ok closedSlots =>
      refine map_eq_map_of_forall₂ (forall₂_of_mapM_eq_ok closed) fun before after h => ?_
      split at h
      · obtain ⟨_, -, rfl⟩ := map_eq_ok_iff.1 h
        rfl
      · cases h
        rfl

theorem modelForm_isNamed {s : Scope} {bases ancestors : List Form} {fields : List TypedField}
    {form : Form} (formed : modelForm s bases ancestors fields = .ok form) : form.IsNamed := by
  obtain ⟨own, -, formed⟩ := bind_eq_ok_iff.1 formed
  cases formed
  show (Table.keys (closeSlots _ _)).Nodup
  rw [keys_closeSlots, Table.keys_filterMap_get?]
  exact (Table.nodup_keys_ofList _).filter _

/-- **In a module that is made from a document every class knows each field once.** -/
theorem ofDocument_isNamed {name : String} {document : ModuleDocument} {m : Module}
    (made : Module.ofDocument name document = .ok m) : ∀ c ∈ m.classes, c.form.IsNamed := by
  refine ofDocument_invariant (P := fun m => ∀ c ∈ m.classes, c.form.IsNamed) made nofun
    fun m st m' named defined => ?_
  rw [← classes_addDocs m st] at named
  have known (l : Lineage) : ∀ form ∈ (m.addDocs st).forms l, form.IsNamed := by
    intro form listed
    obtain ⟨ancestor, -, found⟩ := List.mem_filterMap.1 listed
    split at found
    · obtain ⟨definition, there, rfl⟩ := Option.map_eq_some_iff.1 found
      exact named definition (List.mem_of_getElem? there)
    · cases found
  rcases defineClass_cases defined with
    ⟨_, _, -, -, rfl⟩ | ⟨bases, lineage, form, members, -, forms, rfl⟩
  · exact named
  · intro c listed
    rcases List.mem_append.1 listed with listed | listed
    · exact named c listed
    · rw [List.mem_singleton.1 listed]
      show form.IsNamed
      rw [Forms] at forms
      split at forms
      · obtain ⟨_, -, formed⟩ := forms
        exact keyedForm_isNamed formed
      · obtain ⟨_, -, formed⟩ := forms
        exact fieldedForm_isNamed (known _) formed
      · obtain ⟨_, -, formed⟩ := forms
        exact modelForm_isNamed formed
      · obtain ⟨values, rfl⟩ := forms
        exact True.intro
      · subst forms
        exact True.intro
      · obtain ⟨actions, rfl⟩ := forms
        exact True.intro
      · exact forms.elim

/-! ## Fields as a contract has them -/

theorem length_filterMap_map {α β γ : Type} (f : α → Option β) (g : α → β → γ) (xs : List α) :
    (xs.filterMap fun x => (f x).map (g x)).length = (xs.filterMap f).length := by
  induction xs with
  | nil => rfl
  | cons x rest ih =>
      rw [List.filterMap_cons, List.filterMap_cons]
      cases f x with
      | none => exact ih
      | some y => exact congrArg Nat.succ ih

theorem attributes_sublist_keys (slots : Table (Option Slot)) :
    List.Sublist (slots.filterMap fun f => f.2.map fun _ => f.1) (Table.keys slots) := by
  induction slots with
  | nil => exact .slnil
  | cons f rest ih =>
      obtain ⟨name, slot⟩ := f
      cases slot with
      | none => exact ih.cons name
      | some slot => exact ih.cons_cons name

/-- A class knows each of its fields by one name. -/
theorem length_fieldsOf (m : Module) (c : Class) :
    (m.fieldsOf c).length = c.attributes.length := by
  rw [Module.fieldsOf, Class.attributes]
  cases c.form with
  | keyed keys => simp only [Table.keys, List.length_map]
  | fielded hints valued slots =>
      exact (length_filterMap_map Prod.snd _ slots).trans (length_filterMap_map Prod.snd _ slots).symm
  | model own slots => simp only [Table.keys, List.length_map]
  | enumeration | plain | controller => rfl

theorem nodup_attributes {c : Class} (named : c.form.IsNamed) : c.attributes.Nodup := by
  rw [Class.attributes]
  cases form : c.form with
  | keyed keys =>
      rw [form] at named
      exact named
  | fielded hints valued slots =>
      rw [form] at named
      exact named.1.sublist (attributes_sublist_keys slots)
  | model own slots =>
      rw [form] at named
      exact named
  | enumeration | plain | controller => exact List.nodup_nil

/-- Whether the fields of a class may be shown under other names than the class knows them by. -/
def Form.isModel : Form → Bool
  | .model _ _ => true
  | _ => false

/-- A class that is no model shows its fields under the names by which it knows them. -/
theorem map_name_fieldsOf {m : Module} {c : Class} (named : c.form.IsNamed)
    (other : c.form.isModel = false) : (m.fieldsOf c).map (·.name) = c.attributes := by
  rw [Module.fieldsOf, Class.attributes]
  cases form : c.form with
  | keyed keys => simp only [Table.keys, List.map_map, Function.comp_def]
  | fielded hints valued slots =>
      rw [form] at named
      simp only [List.map_filterMap]
      refine List.filterMap_congr fun f listed => ?_
      rw [Option.map_map]
      cases found : f.2 with
      | none => rfl
      | some slot => exact congrArg some (named.2 f listed slot found)
  | model =>
      rw [form] at other
      cases other
  | enumeration | plain | controller => rfl

end RouteContract.Sources

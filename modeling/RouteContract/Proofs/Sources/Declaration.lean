import Mathlib.Logic.Relation
import RouteContract.Proofs.Sources.Union

/-!
# Where fields are declared

Every class of a module is made by one definition of the document, in the module that the definitions
before it make (`Makes`). A field of the class is one of the fields that are written in this definition,
or the class has it from a class that it derives from (`Declares`). What a class knows of a field is
what the hint of that declaration means there (`ofDocument_stated`); for a model, names in it may have
been resolved since, in the module in which the class or one that it derives from was made.
-/

set_option autoImplicit false

namespace RouteContract.Sources

open RouteContract Term

/-! ## Declarations -/

/-- The fields that are written in a body. -/
def Body.fields : Body → List FieldStatement
  | .keyed _ _ fields => fields
  | .fielded fields => fields
  | .model fields => fields
  | _ => []

/-- Whether a body is one of a model. -/
def Body.isModel : Body → Bool
  | .model _ => true
  | _ => false

/-- A field that is written in a body of a model belongs to the class, or is not shown. -/
def Hides (s : Scope) (f : FieldStatement) : Prop :=
  f.name.startsWith "_" = true ∨ ∃ t, f.hint.evaluate s = .ok t ∧ isClassMark t = true

section Declarations

variable (name : String) (document : ModuleDocument)

/-- A definition makes a class, in the module that the definitions before it make. -/
structure Makes (c : ClassId) (st : Statement) (m₀ : Module) : Prop where
  written : ∃ earlier later before, document.statements = earlier ++ st :: later ∧
    Module.ofDocument name ⟨earlier, []⟩ = .ok before ∧ m₀ = before.addDocs st
  place : m₀.classes.length = c
  isClass : ∀ h, st.body ≠ .synonym h

/-- A class has another one among its bases. -/
def HasBase (c b : ClassId) : Prop :=
  ∃ st m₀, Makes name document c st m₀ ∧ ∃ n ∈ st.bases.getD (Module.defaultBases st.body),
    ancestorOf m₀.scope n = .ok (.declared b)

/-- A class has another one among its bases, or among the bases of these, and so on. -/
abbrev Derives : ClassId → ClassId → Prop := Relation.TransGen (HasBase name document)

/-- A class has a field of a name from its definition, or from a class that it derives from where no
field of the name is written in its own definition, other than one that the model hides. -/
inductive Declares : ClassId → String → Statement → Module → FieldStatement → Prop
  | own {c : ClassId} {st : Statement} {m₀ : Module} {f : FieldStatement}
      (makes : Makes name document c st m₀) (listed : f ∈ st.body.fields) :
      Declares c f.name st m₀ f
  | inherited {c b : ClassId} {n : String} {st st' : Statement} {m₀ m' : Module}
      {f : FieldStatement} (makes : Makes name document c st' m')
      (free : ∀ g ∈ st'.body.fields, g.name = n → st'.body.isModel = true ∧ Hides m'.scope g)
      (derives : Derives name document c b) (declares : Declares b n st m₀ f) :
      Declares c n st m₀ f

/-- Looking up names in a module in which a class, or one that it derives from, is made. -/
def LooksInside (c : ClassId) (look : Term → Except SourceError Term) : Prop :=
  ∃ b st m₀, (b = c ∨ Derives name document c b) ∧ Makes name document b st m₀ ∧
    look = (m₀.bind st.name (.declared b)).scope.resolve true

/-! ## What a class knows of a field -/

/-- A class has a declaration of a field with some property. -/
def Stated (c : ClassId) (n : String) (Q : Statement → Module → FieldStatement → Prop) : Prop :=
  ∃ st m₀ f, Declares name document c n st m₀ f ∧ Q st m₀ f

/-- What a keyed record knows of a field. -/
def KeyFrom (key : Key) (st : Statement) (m₀ : Module) (f : FieldStatement) : Prop :=
  ∃ t isTotal hasDocs fields, f.hint.evaluate m₀.scope = .ok t ∧
    st.body = .keyed isTotal hasDocs fields ∧ key.hint = t.converted (some m₀.name) ∧
    key.isRequired = (demand? key.hint).getD isTotal

/-- What a fielded record knows of a field. -/
def SlotFrom (slot : Slot) (_ : Statement) (m₀ : Module) (f : FieldStatement) : Prop :=
  f.hint.evaluate m₀.scope = .ok slot.hint ∧ slot.keywords = f.keywords ∧
    (slot.isOptional = f.isValued ∨ slot.isOptional = true ∧ f.isSpelledOut = false)

/-- The hint of a model for a term: the term without remarks, its names resolved before or after, or
still open. -/
inductive ModelHint (c : ClassId) (t : Term) : Bool → Term → Prop
  | still : ModelHint c t true (t.converted none).splitRemarks.1
  | before {look : Term → Except SourceError Term} {u : Term}
      (inside : LooksInside name document c look) (resolved : look t = .ok u) :
      ModelHint c t false (u.converted none).splitRemarks.1
  | after {look : Term → Except SourceError Term} {u : Term}
      (inside : LooksInside name document c look)
      (resolved : look (t.converted none).splitRemarks.1 = .ok u) :
      ModelHint c t false u.splitRemarks.1

/-- The name under which a model shows a field. -/
def FieldStatement.nameShown (f : FieldStatement) : String :=
  if f.shownAs.isEmpty then f.name else f.shownAs

/-- What a model knows of a field. -/
def ModelFrom (c : ClassId) (slot : Slot) (_ : Statement) (m₀ : Module) (f : FieldStatement) :
    Prop :=
  (∃ t, f.hint.evaluate m₀.scope = .ok t ∧ demand? t = none ∧
    ModelHint name document c t slot.isOpen slot.hint) ∧
  slot.isOptional = f.isValued ∧ slot.shownName = f.nameShown

/-- The hints in the body of a fielded record by name. -/
def HintsOfBody (st : Statement) (m₀ : Module) (hints : Table Term) : Prop :=
  st.body.isModel = false ∧
    (∀ e ∈ hints, ∃ f ∈ st.body.fields, f.name = e.1 ∧ f.hint.evaluate m₀.scope = .ok e.2) ∧
    ∀ f ∈ st.body.fields, f.name ∈ Table.keys hints

/-- What the form of a class knows of its fields is what their declarations state. -/
def FormStated (c : ClassId) : Form → Prop
  | .keyed keys => ∀ e ∈ keys, Stated name document c e.1 (KeyFrom e.2)
  | .fielded hints _ slots =>
      (∃ st m₀, Makes name document c st m₀ ∧ HintsOfBody st m₀ hints) ∧
        ∀ e ∈ slots, ∀ slot, e.2 = some slot → Stated name document c e.1 (SlotFrom slot)
  | .model _ slots => ∀ e ∈ slots, Stated name document c e.1 (ModelFrom name document c e.2)
  | _ => True

/-- A lineage begins with the class, and all others in it are classes that the class derives from. -/
def LineageStated (c : ClassId) (lineage : Lineage) : Prop :=
  ∃ ancestors, lineage = .declared c :: ancestors ∧
    ∀ a, .declared a ∈ ancestors → Derives name document c a

end Declarations

variable {name : String} {document : ModuleDocument} {c b : ClassId} {st : Statement}
  {m : Module} {n : String}

theorem Declares.name_eq {m₀ : Module} {f : FieldStatement}
    (declares : Declares name document c n st m₀ f) : f.name = n := by
  induction declares with
  | own => rfl
  | inherited _ _ _ _ ih => exact ih

theorem Stated.inherited {Q Q' : Statement → Module → FieldStatement → Prop}
    (makes : Makes name document c st m)
    (free : ∀ g ∈ st.body.fields, g.name = n → st.body.isModel = true ∧ Hides m.scope g)
    (derives : Derives name document c b) (imp : ∀ st m₀ f, Q st m₀ f → Q' st m₀ f)
    (stated : Stated name document b n Q) : Stated name document c n Q' := by
  obtain ⟨st', m₀, f, declares, known⟩ := stated
  exact ⟨st', m₀, f, .inherited makes free derives declares, imp st' m₀ f known⟩

theorem LooksInside.inherited {look : Term → Except SourceError Term}
    (derives : Derives name document c b) (inside : LooksInside name document b look) :
    LooksInside name document c look := by
  obtain ⟨b', st, m₀, rfl | far, makes, rfl⟩ := inside
  · exact ⟨b', st, m₀, .inr derives, makes, rfl⟩
  · exact ⟨b', st, m₀, .inr (derives.trans far), makes, rfl⟩

theorem ModelFrom.inherited {slot : Slot} {m₀ : Module} {f : FieldStatement}
    (derives : Derives name document c b) (known : ModelFrom name document b slot st m₀ f) :
    ModelFrom name document c slot st m₀ f := by
  obtain ⟨⟨t, meant, silent, hint⟩, rest⟩ := known
  refine ⟨⟨t, meant, silent, ?_⟩, rest⟩
  generalize slot.isOpen = isOpen, slot.hint = h at hint
  cases hint with
  | still => exact .still
  | before inside resolved => exact .before (inside.inherited derives) resolved
  | after inside resolved => exact .after (inside.inherited derives) resolved

/-! ## Lineages -/

theorem mem_of_nextAncestor {lines : List Lineage} {a : Ancestor} (h : nextAncestor lines = some a) :
    a ∈ lines.flatten := by
  obtain ⟨line, listed, first⟩ := List.mem_filterMap.1 (List.mem_of_find?_eq_some h)
  exact List.mem_flatten.2 ⟨line, listed, List.mem_of_head? first⟩

theorem mem_of_mem_without {lines : List Lineage} {a a' : Ancestor}
    (h : a ∈ (without a' lines).flatten) : a ∈ lines.flatten := by
  obtain ⟨line, listed, member⟩ := List.mem_flatten.1 h
  obtain ⟨line', listed', rfl⟩ := List.mem_map.1 listed
  refine List.mem_flatten.2 ⟨line', listed', ?_⟩
  split at member
  · exact List.mem_of_mem_drop member
  · exact member

theorem mem_of_mem_mergeLineages {count : Nat} {lines : List Lineage} {l : Lineage} {a : Ancestor}
    (h : mergeLineages count lines = .ok l) (member : a ∈ l) : a ∈ lines.flatten := by
  induction count generalizing lines l with
  | zero =>
      rw [mergeLineages] at h
      cases h
      cases member
  | succ count ih =>
      rw [mergeLineages] at h
      split at h
      · cases h
        cases member
      · split at h
        · cases h
        · next next found =>
            obtain ⟨rest, merged, rfl⟩ := map_eq_ok_iff.1 h
            rcases List.mem_cons.1 member with rfl | later
            · exact mem_of_nextAncestor found
            · exact mem_of_mem_without (ih merged later)

/-- The bases of a class that a definition makes are bases of the class. -/
theorem Descends.hasBase {bases : List Ancestor} {lineage : Lineage}
    (descends : Descends m st bases lineage) (makes : Makes name document c st m)
    (listed : .declared b ∈ bases) : HasBase name document c b := by
  obtain ⟨n, written, known⟩ := exists_mem_of_forall₂ (forall₂_of_mapM_eq_ok descends.named) listed
  exact ⟨st, m, makes, n, written, known⟩

theorem Descends.lineageStated {bases : List Ancestor} {lineage : Lineage}
    (descends : Descends m st bases lineage) (makes : Makes name document c st m)
    (known : ∀ a definition, m.class? a = some definition →
      LineageStated name document a definition.lineage) : LineageStated name document c lineage := by
  obtain rfl := makes.place
  rcases descends.merged with rfl | merged
  · exact ⟨[], rfl, nofun⟩
  · obtain ⟨ancestors, joins, rfl⟩ := map_eq_ok_iff.1 merged
    refine ⟨ancestors, rfl, fun a member => ?_⟩
    obtain ⟨line, listed, inside⟩ := List.mem_flatten.1 (mem_of_mem_mergeLineages joins member)
    rcases List.mem_append.1 listed with listed | last
    · obtain ⟨base, written, rfl⟩ := List.mem_map.1 listed
      cases base with
      | general n =>
          rw [Module.lineage, List.mem_singleton] at inside
          cases inside
      | declared b =>
          have direct := Relation.TransGen.single (descends.hasBase makes written)
          rw [Module.lineage] at inside
          cases found : m.class? b with
          | none =>
              rw [found] at inside
              cases List.mem_singleton.1 inside
              exact direct
          | some definition =>
              obtain ⟨others, begins, far⟩ := known b definition found
              rw [found, Option.map_some, Option.getD_some, begins] at inside
              rcases List.mem_cons.1 inside with same | further
              · cases same
                exact direct
              · exact direct.trans (far a further)
    · rw [List.mem_singleton.1 last] at inside
      exact .single (descends.hasBase makes inside)

/-! ## Forms -/

theorem mem_forms {l : List Ancestor} {form : Form} (listed : form ∈ m.forms l) :
    ∃ a definition, .declared a ∈ l ∧ m.class? a = some definition ∧ definition.form = form := by
  obtain ⟨ancestor, member, found⟩ := List.mem_filterMap.1 listed
  cases ancestor with
  | general n => cases found
  | declared a =>
      obtain ⟨definition, known, rfl⟩ := Option.map_eq_some_iff.1 found
      exact ⟨a, definition, member, known, rfl⟩

theorem forall₂_typeFields {s : Scope} {fields : List FieldStatement} {typed : List TypedField}
    (meant : typeFields s fields = .ok typed) :
    List.Forall₂ (fun f g => g.1 = f ∧ f.hint.evaluate s = .ok g.2) fields typed := by
  refine (forall₂_of_mapM_eq_ok meant).imp fun f g h => ?_
  obtain ⟨t, known, rfl⟩ := map_eq_ok_iff.1 h
  exact ⟨rfl, known⟩

theorem map_name_typeFields {s : Scope} {fields : List FieldStatement} {typed : List TypedField}
    (meant : typeFields s fields = .ok typed) :
    typed.map (fun g => g.1.name) = fields.map FieldStatement.name :=
  map_eq_map_of_forall₂ (forall₂_typeFields meant) fun _ _ h => congrArg FieldStatement.name h.1

theorem fieldedSlot_eq_ok {valued : List String} {g : TypedField} {slot : Slot}
    (h : fieldedSlot valued g = .ok (some slot)) : slot.hint = g.2 ∧ slot.keywords = g.1.keywords ∧
      (slot.isOptional = g.1.isValued ∨ slot.isOptional = true ∧ g.1.isSpelledOut = false) := by
  rw [fieldedSlot] at h
  split at h
  · cases h
  · split at h
    · split at h
      · cases h
      · cases h
    · split at h
      · cases h
      · cases h
        refine ⟨rfl, rfl, ?_⟩
        cases g.1.isSpelledOut with
        | true => exact .inl (Bool.or_false _)
        | false =>
            cases valued.contains g.1.name with
            | true => exact .inr ⟨Bool.or_true _, rfl⟩
            | false => exact .inl (Bool.or_false _)

/-- The slot of a model for a field with a hint, in the scope in which the model is made. -/
theorem modelSlot_eq_ok {s : Scope} {g : TypedField} {slot : Slot}
    (inside : LooksInside name document c (s.resolve true))
    (h : modelSlot s g = .ok (some slot)) :
    (demand? g.2 = none ∧ ModelHint name document c g.2 slot.isOpen slot.hint) ∧
      slot.isOptional = g.1.isValued ∧ slot.shownName = g.1.nameShown := by
  rw [modelSlot] at h
  split at h
  · cases h
  · split at h
    · cases h
    · next silent =>
        split at h
        · cases h
        · cases h
          refine ⟨⟨Option.not_isSome_iff_eq_none.1 silent, ?_⟩, rfl, rfl⟩
          cases resolved : s.resolve true g.2 with
          | error e => exact .still
          | ok u => exact .before inside resolved

theorem modelSlot_hides {s s' : Scope} {g : TypedField} (h : modelSlot s g = .ok none)
    (meaning : g.1.hint.evaluate s' = .ok g.2) : Hides s' g.1 := by
  rw [modelSlot] at h
  split at h
  · next hidden =>
      rcases Bool.or_eq_true_iff.1 hidden with mark | hiddenName
      · exact .inr ⟨g.2, meaning, mark⟩
      · exact .inl hiddenName
  · split at h
    · cases h
    · split at h
      · cases h
      · cases h

theorem mem_closeSlots {s : Scope} {slots : Table Slot} {e : String × Slot}
    (listed : e ∈ closeSlots s slots) : e ∈ slots ∨ ∃ slot t, (e.1, slot) ∈ slots ∧
      slot.isOpen = true ∧ s.resolve true slot.hint = .ok t ∧
      e.2 = { slot with hint := t.splitRemarks.1, isOpen := false } := by
  rw [closeSlots] at listed
  cases closed : slots.mapM fun f => if f.2.isOpen then
      (s.resolve true f.2.hint).map fun t =>
        (f.1, { f.2 with hint := t.splitRemarks.1, isOpen := false })
    else .ok f with
  | error e' =>
      rw [closed] at listed
      exact .inl listed
  | ok slots' =>
      rw [closed] at listed
      obtain ⟨before, among, made⟩ := exists_mem_of_forall₂ (forall₂_of_mapM_eq_ok closed) listed
      split at made
      · next still =>
          obtain ⟨t, resolved, rfl⟩ := map_eq_ok_iff.1 made
          exact .inr ⟨before.2, t, among, still, resolved, rfl⟩
      · cases made
        exact .inl among

/-- What a fielded record is made of: its own slots over those that its ancestors have. -/
theorem fieldedForm_eq_ok {ancestors : List Form} {typed : List TypedField} {form : Form}
    (formed : fieldedForm ancestors typed = .ok form) :
    ∃ valued valued' own inherited,
      typed.mapM (fun f => (fieldedSlot valued f).map fun slot => (f.1.name, slot)) = .ok own ∧
      ((Table.keys inherited).Nodup ∧ ∀ e ∈ inherited, ∃ hints valued slots,
        Form.fielded hints valued slots ∈ ancestors ∧ e ∈ slots) ∧
      form = .fielded (hintsOf typed) valued' (Table.putAll inherited own) := by
  obtain ⟨own, each, formed⟩ := bind_eq_ok_iff.1 formed
  simp only at formed
  split at formed
  · cases formed
    refine ⟨_, _, own, _, each, ?_, rfl⟩
    refine List.foldlRecOn (motive := fun done : Table (Option Slot) => (Table.keys done).Nodup ∧
      ∀ e ∈ done, ∃ hints valued slots, Form.fielded hints valued slots ∈ ancestors ∧ e ∈ slots)
      ancestors.reverse _ ⟨List.nodup_nil, List.forall_mem_nil _⟩ ?_
    intro done before form listed
    split
    · next hints valued slots =>
        refine ⟨Table.nodup_keys_putAll before.1 slots, Table.forall_mem_putAll before.2 ?_⟩
        intro e member
        exact ⟨hints, valued, slots, List.mem_reverse.1 listed, member⟩
    · exact before
  · cases formed

/-- What a model is made of: its own slots over those that its bases have. -/
theorem modelForm_eq_ok {s : Scope} {bases ancestors : List Form} {typed : List TypedField}
    {form : Form} (formed : modelForm s bases ancestors typed = .ok form) :
    ∃ (own : List (Option (String × Slot))) (inherited : Table Slot) (order : List String),
      typed.mapM (fun f => (modelSlot s f).map fun slot => slot.map (f.1.name, ·)) = .ok own ∧
      ((Table.keys inherited).Nodup ∧
        ∀ e ∈ inherited, ∃ names slots, Form.model names slots ∈ bases ∧ e ∈ slots) ∧
      form = .model (Table.keys (Table.ofList (own.filterMap id)))
        (closeSlots s (order.filterMap fun n =>
          (Table.get? (Table.putAll inherited (Table.ofList (own.filterMap id))) n).map
            fun slot => (n, slot))) := by
  obtain ⟨own, each, formed⟩ := bind_eq_ok_iff.1 formed
  cases formed
  refine ⟨own, _, _, each, ?_, rfl⟩
  refine List.foldlRecOn (motive := fun done : Table Slot => (Table.keys done).Nodup ∧
    ∀ e ∈ done, ∃ names slots, Form.model names slots ∈ bases ∧ e ∈ slots)
    bases.reverse _ ⟨List.nodup_nil, List.forall_mem_nil _⟩ ?_
  intro done before form listed
  split
  · next names slots =>
      refine ⟨Table.nodup_keys_putAll before.1 slots, Table.forall_mem_putAll before.2 ?_⟩
      intro e member
      exact ⟨names, slots, List.mem_reverse.1 listed, member⟩
  · exact before

section Formed

variable {fields : List FieldStatement} {typed : List TypedField} {form : Form}
  {bases ancestors : List Ancestor}
  (makes : Makes name document c st m)
  (known : ∀ a definition, m.class? a = some definition →
    FormStated name document a definition.form)
  (meant : typeFields m.scope fields = .ok typed)

include makes known meant

theorem keyedForm_stated {isTotal hasDocs : Bool} (body : st.body = .keyed isTotal hasDocs fields)
    (based : ∀ b, .declared b ∈ bases → HasBase name document c b)
    (formed : keyedForm m bases isTotal typed = .ok form) : FormStated name document c form := by
  obtain ⟨own, each, formed⟩ := bind_eq_ok_iff.1 formed
  obtain ⟨inherited, gathered, formed⟩ := bind_eq_ok_iff.1 formed
  cases formed
  have listedFields : st.body.fields = fields := by rw [body]; rfl
  have keyed := forall₂_of_mapM_eq_ok each
  have names : Table.keys own = fields.map FieldStatement.name := by
    rw [← map_name_typeFields meant]
    refine map_eq_map_of_forall₂ keyed fun f e h => ?_
    obtain ⟨t, -, rfl⟩ := map_eq_ok_iff.1 h
    rfl
  have below := Table.mem_foldl_putAll inherited
  intro e listed
  rcases Table.mem_putAll below.1 listed with written | ⟨inside, absent⟩
  · obtain ⟨g, listed, made⟩ := exists_mem_of_forall₂ keyed written
    obtain ⟨f, declared, rfl, meaning⟩ := exists_mem_of_forall₂ (forall₂_typeFields meant) listed
    obtain ⟨t, fit, rfl⟩ := map_eq_ok_iff.1 made
    refine ⟨st, m, g.1, .own makes (listedFields ▸ declared), g.2, isTotal, hasDocs, fields, meaning,
      body, argument_eq_ok fit, rfl⟩
  · obtain ⟨table, listed, member⟩ := below.2 e inside
    obtain ⟨other, there, same⟩ := exists_mem_of_forall₂ (forall₂_of_mapM_eq_ok gathered) listed
    obtain ⟨b, definition, base, found, rfl⟩ := mem_forms there
    have stated := known b definition found
    cases form : definition.form with
    | keyed keys =>
        rw [form] at same stated
        cases same
        refine (stated e member).inherited makes ?_ (.single (based b base)) fun _ _ _ h => h
        intro g declared named
        rw [names, ← named, ← listedFields] at absent
        exact absurd (List.mem_map_of_mem declared) absent
    | _ =>
        rw [form] at same
        cases same

omit makes known in
theorem hintsOf_stated (bare : st.body.isModel = false) (body : st.body.fields = fields) :
    HintsOfBody st m (hintsOf typed) := by
  refine ⟨bare, ?_, ?_⟩
  · intro e listed
    obtain ⟨g, among, rfl⟩ := List.mem_map.1 (Table.mem_of_mem_ofList listed)
    obtain ⟨f, declared, rfl, meaning⟩ := exists_mem_of_forall₂ (forall₂_typeFields meant) among
    exact ⟨g.1, body ▸ declared, rfl, meaning⟩
  · intro f declared
    rw [hintsOf, Table.mem_keys_ofList, Table.keys, List.map_map]
    show f.name ∈ typed.map fun g => g.1.name
    rw [map_name_typeFields meant, ← body]
    exact List.mem_map_of_mem declared

theorem fieldedForm_stated (body : st.body = .fielded fields)
    (far : ∀ a, .declared a ∈ ancestors → Derives name document c a)
    (formed : fieldedForm (m.forms ancestors) typed = .ok form) :
    FormStated name document c form := by
  obtain ⟨valued, valued', own, inherited, each, ⟨distinct, below⟩, rfl⟩ := fieldedForm_eq_ok formed
  have listedFields : st.body.fields = fields := by rw [body]; rfl
  have slotted := forall₂_of_mapM_eq_ok each
  have names : Table.keys own = fields.map FieldStatement.name := by
    rw [← map_name_typeFields meant]
    refine map_eq_map_of_forall₂ slotted fun f e h => ?_
    obtain ⟨t, -, rfl⟩ := map_eq_ok_iff.1 h
    rfl
  refine ⟨⟨st, m, makes, hintsOf_stated meant (by rw [body]; rfl) listedFields⟩, ?_⟩
  intro e listed slot shown
  rcases Table.mem_putAll distinct listed with written | ⟨inside, absent⟩
  · obtain ⟨g, among, made⟩ := exists_mem_of_forall₂ slotted written
    obtain ⟨f, declared, rfl, meaning⟩ := exists_mem_of_forall₂ (forall₂_typeFields meant) among
    obtain ⟨slot', found, rfl⟩ := map_eq_ok_iff.1 made
    obtain rfl : slot' = some slot := shown
    obtain ⟨hint, keywords, flag⟩ := fieldedSlot_eq_ok found
    exact ⟨st, m, g.1, .own makes (listedFields ▸ declared), hint ▸ meaning, keywords, flag⟩
  · obtain ⟨hints, valued, slots, there, member⟩ := below e inside
    obtain ⟨a, definition, ancestor, found, same⟩ := mem_forms there
    have stated := known a definition found
    rw [same] at stated
    refine (stated.2 e member slot shown).inherited makes ?_ (far a ancestor) fun _ _ _ h => h
    intro g declared named
    rw [names, ← named, ← listedFields] at absent
    exact absurd (List.mem_map_of_mem declared) absent

theorem modelForm_stated {s : Scope} (body : st.body = .model fields)
    (inside : LooksInside name document c (s.resolve true))
    (based : ∀ b, .declared b ∈ bases → HasBase name document c b) {others : List Form}
    (formed : modelForm s (m.forms bases) others typed = .ok form) :
    FormStated name document c form := by
  obtain ⟨own, inherited, order, each, ⟨distinct, below⟩, rfl⟩ := modelForm_eq_ok formed
  have listedFields : st.body.fields = fields := by rw [body]; rfl
  have slotted := forall₂_of_mapM_eq_ok each
  have stated : ∀ n slot,
      Table.get? (Table.putAll inherited (Table.ofList (own.filterMap id))) n = some slot →
        Stated name document c n (ModelFrom name document c slot) := by
    intro n slot read
    rcases Table.mem_putAll distinct (Table.mem_of_get? read) with written | ⟨within, absent⟩
    · obtain ⟨entry, among, rfl⟩ := List.mem_filterMap.1 (Table.mem_of_mem_ofList written)
      obtain ⟨g, among, made⟩ := exists_mem_of_forall₂ slotted among
      obtain ⟨f, declared, rfl, meaning⟩ := exists_mem_of_forall₂ (forall₂_typeFields meant) among
      obtain ⟨slot', found, same⟩ := map_eq_ok_iff.1 made
      obtain ⟨slot', rfl, same⟩ := Option.map_eq_some_iff.1 same
      cases same
      obtain ⟨⟨silent, hint⟩, rest⟩ := modelSlot_eq_ok inside found
      exact ⟨st, m, g.1, .own makes (listedFields ▸ declared), ⟨g.2, meaning, silent, hint⟩, rest⟩
    · obtain ⟨names, slots, there, member⟩ := below _ within
      obtain ⟨b, definition, base, found, same⟩ := mem_forms there
      have derives := Relation.TransGen.single (based b base)
      have stated := known b definition found
      rw [same] at stated
      refine (stated _ member).inherited makes ?_ derives fun _ _ _ h => h.inherited derives
      intro g declared named
      refine ⟨by rw [body]; rfl, ?_⟩
      rw [listedFields] at declared
      obtain ⟨g', among, rfl, meaning⟩ :=
        exists_mem_of_forall₂ (forall₂_typeFields meant).flip declared
      obtain ⟨entry, among, made⟩ := exists_mem_of_forall₂ slotted.flip among
      obtain ⟨answer, found, rfl⟩ := map_eq_ok_iff.1 made
      cases answer with
      | none => exact modelSlot_hides found meaning
      | some slot' =>
          have there : (g'.1.name, slot') ∈ own.filterMap id := List.mem_filterMap.2 ⟨_, among, rfl⟩
          have shown := Table.mem_keys_ofList.2 (Table.mem_keys_of_mem there)
          exact absurd (named ▸ shown) absent
  intro e listed
  rcases mem_closeSlots listed with among | ⟨slot, t, among, still, resolved, same⟩
  · obtain ⟨n, -, read⟩ := List.mem_filterMap.1 among
    obtain ⟨slot, present, rfl⟩ := Option.map_eq_some_iff.1 read
    exact stated n slot present
  · obtain ⟨n, -, read⟩ := List.mem_filterMap.1 among
    obtain ⟨slot', present, same'⟩ := Option.map_eq_some_iff.1 read
    cases same'
    obtain ⟨st', m₀, f, declares, ⟨u, meaning, silent, hint⟩, rest⟩ := stated _ slot present
    rw [same]
    refine ⟨st', m₀, f, declares, ⟨u, meaning, silent, ?_⟩, rest⟩
    rw [still] at hint
    generalize slot.hint = h at hint resolved
    cases hint with
    | still => exact .after inside resolved

end Formed

/-! ## Modules -/

/-- **All names of a module that is made from a document stand for well-formed terms.** -/
theorem ofDocument_isProper (made : Module.ofDocument name document = .ok m) :
    m.scope.IsProper := by
  refine ofDocument_invariant (P := fun m => m.scope.IsProper) made (List.forall_mem_nil _) ?_
  intro m st m' proper defined
  rw [← scope_addDocs m st] at proper
  rcases defineClass_cases defined with ⟨h, t, -, meant, rfl⟩ | ⟨_, _, _, _, -, -, rfl⟩
  · exact Table.forall_mem_put proper (Hint.evaluate_isProper proper h meant)
  · exact Table.forall_mem_put proper (isProper_of_not_isUnion rfl)

theorem Makes.isProper (makes : Makes name document c st m) : m.scope.IsProper := by
  obtain ⟨_, _, _, _, made, rfl⟩ := makes.written
  rw [scope_addDocs]
  exact ofDocument_isProper made

theorem Declares.isProper {m₀ : Module} {f : FieldStatement}
    (declares : Declares name document c n st m₀ f) : m₀.scope.IsProper := by
  induction declares with
  | own makes => exact makes.isProper
  | inherited _ _ _ _ ih => exact ih

/-- **What a class of a module that is made from a document knows of its fields is what their
declarations state.** -/
theorem ofDocument_stated (made : Module.ofDocument name document = .ok m) :
    ∀ c definition, m.class? c = some definition →
      LineageStated name document c definition.lineage ∧
        FormStated name document c definition.form := by
  refine ofDocument_induction (P := fun m => ∀ c definition, m.class? c = some definition →
    LineageStated name document c definition.lineage ∧
      FormStated name document c definition.form) made ?_ ?_
  · intro c definition found
    cases found
  · intro earlier later st before after written sofar known defined
    have known' : ∀ a definition, (before.addDocs st).class? a = some definition →
        LineageStated name document a definition.lineage ∧
          FormStated name document a definition.form := by
      intro a definition found
      rw [Module.class?, classes_addDocs] at found
      exact known a definition found
    generalize same : before.addDocs st = m₀ at known' defined
    rcases defineClass_cases defined with
      ⟨_, _, -, -, rfl⟩ | ⟨bases, lineage, form, members, descends, forms, rfl⟩
    · exact known'
    · intro c definition found
      have makes : Makes name document m₀.classes.length st m₀ :=
        ⟨⟨earlier, later, before, written, sofar, same.symm⟩, rfl, fun h body => by
          simp only [Forms, body] at forms⟩
      have placed : (m₀.classes ++ [⟨st.name, lineage, form⟩])[c]? = some definition := found
      rcases Nat.lt_trichotomy c m₀.classes.length with earlier | rfl | later
      · rw [List.getElem?_append_left earlier] at placed
        exact known' c definition placed
      · rw [List.getElem?_concat_length] at placed
        cases placed
        have lineages := descends.lineageStated makes fun a definition found =>
          (known' a definition found).1
        have stated := fun a definition found => (known' a definition found).2
        have based : ∀ b, .declared b ∈ bases → HasBase name document m₀.classes.length b :=
          fun b listed => descends.hasBase makes listed
        refine ⟨lineages, ?_⟩
        rw [Forms] at forms
        split at forms
        · next isTotal hasDocs fields body =>
            obtain ⟨typed, meant, formed⟩ := forms
            exact keyedForm_stated makes stated meant body
              (fun b listed => based b (List.mem_of_mem_filter listed)) formed
        · next fields body =>
            obtain ⟨typed, meant, formed⟩ := forms
            obtain ⟨ancestors, rfl, far⟩ := lineages
            exact fieldedForm_stated makes stated meant body far formed
        · next fields body =>
            obtain ⟨typed, meant, formed⟩ := forms
            exact modelForm_stated makes stated meant body
              ⟨_, st, m₀, .inl rfl, makes, rfl⟩ based formed
        · obtain ⟨values, rfl⟩ := forms
          exact True.intro
        · subst forms
          exact True.intro
        · obtain ⟨actions, rfl⟩ := forms
          exact True.intro
        · exact forms.elim
      · rw [List.getElem?_eq_none] at placed
        · cases placed
        · rw [List.length_append, List.length_singleton]
          exact later

end RouteContract.Sources

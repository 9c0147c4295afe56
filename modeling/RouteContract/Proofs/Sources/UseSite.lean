import RouteContract.Proofs.Sources.Declaration
import RouteContract.Proofs.Sources.Peeling
import RouteContract.Proofs.Sources.Recursion

/-!
# Hints where they are used

What is said around the type of a field, in remarks, with a demand or by making it optional, is said in
the hint of its declaration. A class keeps this hint with its names looked up, a model without the
remarks outside (`fieldsOf_declared`), and describing takes a demand, remarks and the type of null off,
each once and in this order. What stands in another order is left in the type: of remarks below an
optional layer none is read, and a demand below remarks or an optional layer makes the type one that is
not described (`ofDocument_showsField`).
-/

set_option autoImplicit false

namespace RouteContract.Sources

open RouteContract Shape Term

/-! ## Looking up names -/

/-- Leaving names as they are, or resolving them in a scope of well-formed terms. -/
def Looks (look : Term → Except SourceError Term) : Prop :=
  look = .ok ∨ ∃ s : Scope, s.IsProper ∧ look = s.resolve true

section Looking

variable {look : Term → Except SourceError Term} {t t' core core' : Term} {layers : List Layer}

theorem Looks.wrapped (looks : Looks look) (proper : core.IsProper) (found : look core = .ok core')
    (more : core'.solid ≠ []) (wrapped : Wrapped core layers t) (h : look t = .ok t') :
    Wrapped core' layers t' := by
  rcases looks with rfl | ⟨s, whole, rfl⟩
  · cases found
    cases h
    exact wrapped
  · exact Wrapped.resolveBy (resolveName_resolvesNames whole true _ _) (fun _ _ _ => rfl) proper found
      more wrapped h

theorem Looks.isProper (looks : Looks look) (proper : core.IsProper) (found : look core = .ok core') :
    core'.IsProper := by
  rcases looks with rfl | ⟨s, whole, rfl⟩
  · cases found
    exact proper
  · exact (whole.resolve proper found).proper

theorem Looks.isBare (looks : Looks look) (proper : core.IsProper) (found : look core = .ok core')
    (bare : core'.isBare = true) : core.isBare = true := by
  rcases looks with rfl | ⟨s, whole, rfl⟩
  · cases found
    exact bare
  · exact isBare_of_resolveBy (resolveName_resolvesNames whole true _ _) proper found bare

end Looking

/-! ## Hints of keyed and fielded records -/

variable {name : String} {document : ModuleDocument} {m : Module} {c : ClassId} {definition : Class}

/-- The names in the hints of keyed and fielded records stay as they are, or are looked up in the whole
module. -/
def LooksWhole (m : Module) (look : Term → Except SourceError Term) : Prop :=
  look = .ok ∨ look = m.scope.resolve true

theorem resolveHints_eq_some {hints resolved : Table Term}
    (h : m.resolveHints hints = some resolved) :
    List.Forall₂ (fun e e' => e'.1 = e.1 ∧ m.scope.resolve true e.2 = .ok e'.2) hints resolved := by
  rw [Module.resolveHints] at h
  cases all : hints.mapM fun h => (m.scope.resolve true h.2).map fun t => (h.1, t) with
  | error e =>
      rw [all] at h
      cases h
  | ok table =>
      rw [all] at h
      cases h
      refine (forall₂_of_mapM_eq_ok all).imp fun e e' made => ?_
      obtain ⟨t, known, rfl⟩ := map_eq_ok_iff.1 made
      exact ⟨rfl, known⟩

theorem keyed_looked {keys : Table Key} (distinct : (Table.keys keys).Nodup) {e : String × Key}
    (listed : e ∈ keys) : ∃ look, LooksWhole m look ∧
      look e.2.hint = .ok ((Table.get? ((m.resolveHints (Table.mapValues Key.hint keys)).getD
        (Table.mapValues Key.hint keys)) e.1).getD e.2.hint) := by
  have read : Table.get? (Table.mapValues Key.hint keys) e.1 = some e.2.hint := by
    rw [Table.mapValues, Table.get?_map fun _ => Key.hint, Table.get?_eq_some_of_mem distinct listed]
    rfl
  cases all : m.resolveHints (Table.mapValues Key.hint keys) with
  | none =>
      refine ⟨.ok, .inl rfl, ?_⟩
      rw [Option.getD_none, read]
      rfl
  | some resolved =>
      refine ⟨m.scope.resolve true, .inr rfl, ?_⟩
      obtain ⟨t, there, -, known⟩ :=
        Table.get?_of_forall₂ (resolveHints_eq_some all) (fun _ _ h => h.1) read
      rw [Option.getD_some, there]
      exact known

/-- The hints in the body of a form, resolved; a form that is none of a fielded record has none. -/
def ResolvedBody (m : Module) : Form → Table Term → Prop
  | .fielded hints _ _, table => m.resolveHints hints = some table
  | _, table => table = []

theorem resolveLineage_eq_some {l : Lineage} {resolved : Table Term}
    (h : m.resolveLineage l = some resolved) : ∃ tables,
      List.Forall₂ (ResolvedBody m) (m.forms l) tables ∧
        resolved = tables.reverse.foldl Table.putAll [] := by
  obtain ⟨each, every, h⟩ := Option.bind_eq_some_iff.1 h
  cases h
  refine ⟨each.reverse, ?_, by rw [List.reverse_reverse]⟩
  apply List.forall₂_reverse_iff.1
  rw [List.reverse_reverse]
  refine (forall₂_of_mapM_eq_some every).imp fun form table made => ?_
  cases form with
  | fielded hints valued slots => exact made
  | _ => exact (Option.some.inj made).symm

/-- What a keyed or fielded record shows as the hint of a field comes from the hint of a declaration. -/
def Looked (name : String) (document : ModuleDocument) (m : Module) (c : ClassId) (n : String)
    (shown : Term) : Prop :=
  ∃ look, LooksWhole m look ∧ Stated name document c n fun _ m₀ g =>
    ∃ t, g.hint.evaluate m₀.scope = .ok t ∧ look t = .ok shown

/-- What the bodies of the lineage of a fielded record say about a field, the nearest of them counting,
comes from a declaration. -/
theorem resolveLineage_looked {hints : Table Term} {valued : List String}
    {slots : Table (Option Slot)} {resolved : Table Term} {n : String} {shown : Term}
    (found : m.class? c = some definition) (form : definition.form = .fielded hints valued slots)
    (known : ∀ c definition, m.class? c = some definition →
      LineageStated name document c definition.lineage ∧ FormStated name document c definition.form)
    (all : m.resolveLineage definition.lineage = some resolved)
    (read : Table.get? resolved n = some shown) : Looked name document m c n shown := by
  obtain ⟨⟨ancestors, begins, far⟩, stated⟩ := known c definition found
  rw [form] at stated
  obtain ⟨⟨st, m₀, makes, other, meant, names⟩, -⟩ := stated
  have forms : m.forms definition.lineage = definition.form :: m.forms ancestors := by
    rw [begins, Module.forms, List.filterMap_cons]
    simp only [found, Option.map_some]
    rfl
  obtain ⟨tables, each, rfl⟩ := resolveLineage_eq_some all
  rw [forms, form] at each
  obtain ⟨own, others, first, rest, rfl⟩ := List.forall₂_cons_left_iff.1 each
  have hinted := resolveHints_eq_some first
  have below := Table.mem_foldl_putAll others.reverse
  rw [List.reverse_cons, List.foldl_append, List.foldl_cons, List.foldl_nil] at read
  refine ⟨m.scope.resolve true, .inr rfl, ?_⟩
  rcases Table.mem_putAll below.1 (Table.mem_of_get? read) with written | ⟨inside, absent⟩
  · obtain ⟨e, listed, rfl, known⟩ := exists_mem_of_forall₂ hinted written
    obtain ⟨g, declared, same, meaning⟩ := meant e listed
    exact ⟨st, m₀, g, same ▸ .own makes declared, e.2, meaning, known⟩
  · obtain ⟨table, listed, member⟩ := below.2 _ inside
    obtain ⟨other, there, resolved⟩ := exists_mem_of_forall₂ rest (List.mem_reverse.1 listed)
    obtain ⟨a, definition', ancestor, found', rfl⟩ := mem_forms there
    have stated := (known a definition' found').2
    cases form' : definition'.form with
    | fielded hints' valued' slots' =>
        rw [form'] at resolved stated
        obtain ⟨⟨st', m', makes', -, meant', -⟩, -⟩ := stated
        obtain ⟨e, listed, rfl, known⟩ := exists_mem_of_forall₂ (resolveHints_eq_some resolved) member
        obtain ⟨g, declared, same, meaning⟩ := meant' e listed
        have declares : Declares name document a e.1 st' m' g := same ▸ .own makes' declared
        refine ⟨st', m', g, .inherited makes ?_ (far a ancestor) declares, e.2, meaning, known⟩
        intro g' declared' named
        have keys : Table.keys own = Table.keys hints := map_eq_map_of_forall₂ hinted fun _ _ h => h.1
        refine absurd ?_ absent
        rw [keys, ← named]
        exact names g' declared'
    | _ =>
        rw [form'] at resolved
        obtain rfl : table = [] := resolved
        cases member

theorem fielded_looked {hints : Table Term} {valued : List String} {slots : Table (Option Slot)}
    {e : String × Option Slot} {slot : Slot}
    (found : m.class? c = some definition) (form : definition.form = .fielded hints valued slots)
    (known : ∀ c definition, m.class? c = some definition →
      LineageStated name document c definition.lineage ∧ FormStated name document c definition.form)
    (listed : e ∈ slots) (shown : e.2 = some slot) :
    Looked name document m c e.1
      ((Table.get? ((m.resolveLineage definition.lineage).getD hints) e.1).getD slot.hint) := by
  have stated := (known c definition found).2
  rw [form] at stated
  obtain ⟨⟨st, m₀, makes, -, meant, -⟩, slotted⟩ := stated
  have asWritten : Looked name document m c e.1 slot.hint := by
    obtain ⟨st', m', g, declares, meaning, -⟩ := slotted e listed slot shown
    exact ⟨.ok, .inl rfl, st', m', g, declares, slot.hint, meaning, rfl⟩
  cases all : m.resolveLineage definition.lineage with
  | none =>
      rw [Option.getD_none]
      cases read : Table.get? hints e.1 with
      | none => exact asWritten
      | some t =>
          obtain ⟨g, declared, same, meaning⟩ := meant _ (Table.mem_of_get? read)
          have declares : Declares name document c e.1 st m₀ g := same ▸ .own makes declared
          exact ⟨.ok, .inl rfl, st, m₀, g, declares, t, meaning, rfl⟩
  | some resolved =>
      rw [Option.getD_some]
      cases read : Table.get? resolved e.1 with
      | none => exact asWritten
      | some t => exact resolveLineage_looked found form known all read

/-! ## Fields -/

/-- The names in the hints of a class stay as they are, or are looked up: those of a model where it or
a class that it derives from is made, those of other records in the whole module. -/
def LooksFor (name : String) (document : ModuleDocument) (m : Module) (c : ClassId) (form : Form)
    (look : Term → Except SourceError Term) : Prop :=
  look = .ok ∨ if form.isModel then LooksInside name document c look else look = m.scope.resolve true

theorem LooksFor.looks {form : Form} {look : Term → Except SourceError Term}
    (made : Module.ofDocument name document = .ok m)
    (looks : LooksFor name document m c form look) : Looks look := by
  rcases looks with rfl | looks
  · exact .inl rfl
  · split at looks
    · obtain ⟨b, st, m₀, -, makes, rfl⟩ := looks
      have proper : (m₀.bind st.name (.declared b)).scope.IsProper :=
        Table.forall_mem_put makes.isProper (isProper_of_not_isUnion rfl)
      exact .inr ⟨_, proper, rfl⟩
    · exact .inr ⟨m.scope, ofDocument_isProper made, looks⟩

/-- The layers around the hint that a class has of a field: a model takes remarks off before it keeps a
hint. -/
def Form.layersKept (form : Form) (layers : List Layer) : List Layer :=
  if form.isModel then (Layer.splitRemarks layers).1 else layers

/-- What a declaration states about a field beside its type. -/
def Beside (name : String) (document : ModuleDocument) (c : ClassId) (st : Statement)
    (g : FieldStatement) (layers : List Layer) (f : Module.Field) : Form → Prop
  | .keyed _ => ∃ isTotal hasDocs fields, st.body = .keyed isTotal hasDocs fields ∧
      f.name = g.name ∧ f.keywords = [] ∧ f.isOptional = !((Layer.demand? layers).getD isTotal)
  | .fielded _ _ _ => f.name = g.name ∧ Stated name document c g.name fun _ _ g' =>
      f.keywords = g'.keywords ∧
        (f.isOptional = g'.isValued ∨ f.isOptional = true ∧ g'.isSpelledOut = false)
  | .model _ _ => f.name = g.nameShown ∧ f.isOptional = g.isValued ∧
      Layer.remarksRead (Layer.splitRemarks layers).1 = []
  | _ => True

theorem ModelHint.wrapped {t h : Term} {isOpen : Bool} {form : Form} (model : form.isModel = true)
    (made : Module.ofDocument name document = .ok m)
    (hint : ModelHint name document c t isOpen h) :
    ∃ look, LooksFor name document m c form look ∧ ∀ (layers : List Layer) (core core' : Term),
      core.IsProper → look core = .ok core' → core'.isBare = true → Wrapped core layers t →
        Wrapped core' (Layer.splitRemarks layers).1 h := by
  cases hint with
  | still =>
      refine ⟨.ok, .inl rfl, fun layers core core' proper found bare wrapped => ?_⟩
      cases found
      exact ((wrapped.converted none).splitRemarks bare).1
  | @before look u inside resolved =>
      have looks : LooksFor name document m c form look := .inr (by rw [if_pos model]; exact inside)
      refine ⟨look, looks, fun layers core core' proper found bare wrapped => ?_⟩
      have proper' := (looks.looks made).isProper proper found
      have more := proper'.solid_ne_nil (admitsNothing_of_isBare bare)
      have around := (looks.looks made).wrapped proper found more wrapped resolved
      exact ((around.converted none).splitRemarks bare).1
  | @after look u inside resolved =>
      have looks : LooksFor name document m c form look := .inr (by rw [if_pos model]; exact inside)
      refine ⟨look, looks, fun layers core core' proper found bare wrapped => ?_⟩
      have proper' := (looks.looks made).isProper proper found
      have more := proper'.solid_ne_nil (admitsNothing_of_isBare bare)
      have bare' := (looks.looks made).isBare proper found bare
      have below := ((wrapped.converted none).splitRemarks bare').1
      have around := (looks.looks made).wrapped proper found more below resolved
      have kept := (around.splitRemarks bare).1
      rwa [Layer.splitRemarks_fst] at kept

/-- **Every field of a class has a declaration**, and lies in the layers in which its hint is written
there. -/
theorem fieldsOf_declared (made : Module.ofDocument name document = .ok m)
    (found : m.class? c = some definition) {f : Module.Field} (listed : f ∈ m.fieldsOf definition) :
    ∃ st m₀ g look t, Declares name document c g.name st m₀ g ∧
      LooksFor name document m c definition.form look ∧ g.hint.evaluate m₀.scope = .ok t ∧
      ∀ (layers : List Layer) (core core' : Term), core.IsProper → look core = .ok core' →
        core'.isBare = true → Wrapped core layers t →
          Wrapped core' (definition.form.layersKept layers) f.hint ∧
            Beside name document c st g layers f definition.form := by
  have known := ofDocument_stated made
  have named := ofDocument_isNamed made definition (List.mem_of_getElem? found)
  have stated := (known c definition found).2
  rw [Module.fieldsOf] at listed
  cases form : definition.form with
  | keyed keys =>
      rw [form] at named stated
      simp only [form] at listed
      obtain ⟨e, among, rfl⟩ := List.mem_map.1 listed
      obtain ⟨look, looks, looked⟩ := keyed_looked (m := m) named among
      obtain ⟨st, m₀, g, declares, t, isTotal, hasDocs, fields, meaning, body, hint, required⟩ :=
        stated e among
      have same := declares.name_eq
      have looksFor : LooksFor name document m c (.keyed keys) look := looks
      refine ⟨st, m₀, g, look, t, same ▸ declares, looksFor, meaning, ?_⟩
      intro layers core core' proper found bare wrapped
      have proper' := (looksFor.looks made).isProper proper found
      have more := proper'.solid_ne_nil (admitsNothing_of_isBare bare)
      have bare' := (looksFor.looks made).isBare proper found bare
      have inside := wrapped.converted (some m₀.name)
      rw [← hint] at inside
      refine ⟨(looksFor.looks made).wrapped proper found more inside looked, isTotal, hasDocs, fields,
        body, same.symm, rfl, ?_⟩
      show (!e.2.isRequired) = _
      rw [required, inside.demand?_eq bare']
  | fielded hints valued slots =>
      rw [form] at named stated
      simp only [form] at listed
      obtain ⟨e, among, shown⟩ := List.mem_filterMap.1 listed
      obtain ⟨slot, there, rfl⟩ := Option.map_eq_some_iff.1 shown
      obtain ⟨look, looks, st, m₀, g, declares, t, meaning, looked⟩ :=
        fielded_looked found form known among there
      have same := declares.name_eq
      have looksFor : LooksFor name document m c (.fielded hints valued slots) look := looks
      refine ⟨st, m₀, g, look, t, same ▸ declares, looksFor, meaning, ?_⟩
      intro layers core core' proper found bare wrapped
      have proper' := (looksFor.looks made).isProper proper found
      have more := proper'.solid_ne_nil (admitsNothing_of_isBare bare)
      refine ⟨(looksFor.looks made).wrapped proper found more wrapped looked, ?_, ?_⟩
      · exact (named.2 e among slot there).trans same.symm
      · obtain ⟨st', m', g', declares', -, keywords, flag⟩ := stated.2 e among slot there
        exact ⟨st', m', g', same ▸ declares', keywords, flag⟩
  | model own slots =>
      rw [form] at stated
      simp only [form] at listed
      obtain ⟨e, among, rfl⟩ := List.mem_map.1 listed
      obtain ⟨st, m₀, g, declares, ⟨t, meaning, silent, hint⟩, valued, shown⟩ := stated e among
      have same := declares.name_eq
      have model : Form.isModel (.model own slots) = true := rfl
      obtain ⟨look, looks, keeps⟩ := hint.wrapped model made
      refine ⟨st, m₀, g, look, t, same ▸ declares, looks, meaning, ?_⟩
      intro layers core core' proper found bare wrapped
      have bare' := (looks.looks made).isBare proper found bare
      have none := (wrapped.demand?_eq bare').symm.trans silent
      exact ⟨keeps layers core core' proper found bare wrapped, shown, valued,
        Layer.remarksRead_of_demand?_eq_none none⟩
  | enumeration | plain | controller =>
      simp only [form] at listed
      cases listed

/-! ## Properties -/

section Properties

variable {d : Description} {f : Module.Field} {p : Property} {layers : List Layer} {core : Term}

/-- A property shows a field whose hint is written in layers around a core, as far as the layers are
read: the annotations are those among the remarks read, and the type is that of the core in the layers
that are left. -/
structure ShowsLayers (m : Module) (d : Description) (f : Module.Field) (p : Property)
    (layers : List Layer) (core : Term) : Prop where
  annotations : p.annotations = Documentation.mergeAnnotations
    [f.keywords, Documentation.collectAnnotations (Layer.remarksRead layers)]
  isOptional : p.isOptional = (f.isOptional || Layer.isNullable layers)
  type : ∃ t, Wrapped core (Layer.left layers) t ∧ Depicts m d t p.type

/-- A property shows all layers of a field: the annotations are those among all remarks, the property
is optional if any layer is, and the type is that of the core. -/
structure ShowsAll (m : Module) (d : Description) (f : Module.Field) (p : Property)
    (layers : List Layer) (core : Term) : Prop where
  annotations : p.annotations = Documentation.mergeAnnotations
    [f.keywords, Documentation.collectAnnotations (Layer.allRemarks layers)]
  isOptional : p.isOptional = (f.isOptional || layers.any Layer.isOptional)
  type : ∃ t, core.Alike t ∧ Depicts m d t p.type

theorem Portrays.showsLayers (portrays : Portrays m d definition f p)
    (silent : m.docOf? definition f.name = none) (wrapped : Wrapped core layers f.hint)
    (proper : core.IsProper) (bare : core.isBare = true) : ShowsLayers m d f p layers core := by
  obtain ⟨left, nullable, read⟩ := wrapped.hint proper bare
  refine ⟨?_, ?_, f.core, left, portrays.type⟩
  · have said := portrays.annotations
    rw [annotationsOfField, silent, read] at said
    exact (Except.ok.inj said).symm
  · rw [portrays.isOptional, nullable]

theorem ShowsLayers.showsAll (shows' : ShowsLayers m d f p layers core)
    (ordered : Layer.InOrder layers) : ShowsAll m d f p layers core := by
  obtain ⟨left, read, nullable⟩ := ordered.read
  obtain ⟨t, wrapped, depicted⟩ := shows'.type
  rw [left] at wrapped
  refine ⟨?_, ?_, t, wrapped, depicted⟩
  · rw [shows'.annotations, read]
  · rw [shows'.isOptional, nullable]

/-- A property shows a field in the layers in which the hint of its declaration is written. -/
def ShowsField (name : String) (document : ModuleDocument) (m : Module) (d : Description)
    (c : ClassId) (definition : Class) (f : Module.Field) (p : Property) : Prop :=
  ∃ st m₀ g look, Declares name document c g.name st m₀ g ∧
    LooksFor name document m c definition.form look ∧
    ∀ base layers, Wraps base layers g.hint → ∃ core, base.evaluate m₀.scope = .ok core ∧
      ∀ core', look core = .ok core' → core'.isBare = true →
        Beside name document c st g layers f definition.form ∧
        ShowsLayers m d f p (definition.form.layersKept layers) core' ∧
        (Layer.InOrder (definition.form.layersKept layers) →
          ShowsAll m d f p (definition.form.layersKept layers) core')

theorem Portrays.showsField (made : Module.ofDocument name document = .ok m)
    (found : m.class? c = some definition) (listed : f ∈ m.fieldsOf definition)
    (portrays : Portrays m d definition f p) (silent : m.docOf? definition f.name = none) :
    ShowsField name document m d c definition f p := by
  obtain ⟨st, m₀, g, look, t, declares, looks, meaning, keeps⟩ := fieldsOf_declared made found listed
  refine ⟨st, m₀, g, look, declares, looks, fun base layers wraps => ?_⟩
  obtain ⟨core, known, wrapped⟩ := wraps.wrapped declares.isProper meaning
  refine ⟨core, known, fun core' looked bare => ?_⟩
  have proper := Hint.evaluate_isProper declares.isProper base known
  have bare' := (looks.looks made).isBare proper looked bare
  have inside := wrapped (proper.solid_ne_nil (admitsNothing_of_isBare bare'))
  obtain ⟨kept, beside⟩ := keeps layers core core' proper looked bare inside
  have shown := portrays.showsLayers silent kept ((looks.looks made).isProper proper looked) bare
  exact ⟨beside, shown, shown.showsAll⟩

end Properties

/-- **What is read of the layers in which a hint is written.** Where several terms of a module are
described one after the other, the object type of a class has a property for every field, and the
property of a field without documentation shows the hint of the declaration of the field as far as its
layers are in order: one demand, then remarks, then optional ones, each taken off once. -/
theorem ofDocument_showsField {terms : List Term} {ts : List TypeId} {d : Description} {t : TypeId}
    (made : Module.ofDocument name document = .ok m)
    (described : terms.mapM m.describe .empty = (.ok ts, d)) (object : d.object? c = some t) :
    ∃ definition properties, m.record? c = some definition ∧
      d.types.shape t = .object properties none definition.name ∧
      List.Forall₂ (fun f p => m.docOf? definition f.name = none →
        ShowsField name document m d c definition f p) (m.fieldsOf definition) properties := by
  obtain ⟨definition, properties, found, shape, drawn⟩ := (shows_of_eq_ok described).fields c t object
  refine ⟨definition, properties, found, shape, ?_⟩
  have known := (record?_eq_some_iff.1 found).1
  have each := (List.forall₂_and_left _ _).2 ⟨fun _ listed => listed, drawn⟩
  exact each.imp fun f p both silent => both.2.showsField made known both.1 silent

/-- A remark that a number is at least 0. -/
def atLeastZero : Json := .obj [("minimum", .int 0)]

/-- A record with a number that is at least 0, or null: the remark is below the optional layer. -/
def counterDocument : ModuleDocument :=
  let count : FieldStatement := ⟨"count", .optional (.remarked (.named "int") [atLeastZero]), none,
    none, false, false, [], "", ""⟩
  ⟨[⟨"Counter", none, .keyed true true [count]⟩], []⟩

theorem declares_counter {n : String} {st : Statement} {m₀ : Module} {g : FieldStatement}
    (declares : Declares name counterDocument c n st m₀ g) :
    Wraps (.named "int") [.optional, .remarks [atLeastZero]] g.hint ∧
      m₀.scope.lookup "int" = .ok (.general "int") := by
  induction declares with
  | inherited _ _ _ _ ih => exact ih
  | @own c st m₀ g makes declared =>
      obtain ⟨earlier, later, before, written, sofar, rfl⟩ := makes.written
      rw [counterDocument, List.singleton_eq_append_iff] at written
      rcases written with ⟨rfl, only⟩ | ⟨-, none⟩
      · cases only
        cases List.mem_singleton.1 declared
        cases sofar
        refine ⟨.optional (.remarked .bare _) .marked, ?_⟩
        rw [scope_addDocs]
        rfl
      · cases none

theorem Looks.general {look : Term → Except SourceError Term} (looks : Looks look) (n : String) :
    look (.general n) = .ok (.general n) := by
  rcases looks with rfl | ⟨s, -, rfl⟩
  · rfl
  · rw [Scope.resolve, Term.resolveBy]

/-- **The annotation of a counter is not read**: it stands below the optional layer. -/
theorem counterDocument_showsField :
    ∃ (m : Module) (d : Description) (definition : Class) (p : Property),
      Module.ofDocument "counters" counterDocument = .ok m ∧
      [Term.declared 0].mapM m.describe .empty = (.ok [0], d) ∧
      d.types.shape 0 = .object [p] none definition.name ∧ p.annotations = [] ∧ p.isOptional = true ∧
      ∃ core, Wrapped (.general "int") [.remarks [atLeastZero]] core ∧ Depicts m d core p.type := by
  obtain ⟨m, ts, d, made, run, computed⟩ :=
    exists_described "counters" counterDocument [.declared 0]
      (fun m ts d => ts == [0] && d.object? 0 == some 0 && ((m.record? 0).map fun definition =>
        (m.fieldsOf definition).map fun f =>
          ((m.docOf? definition f.name).isNone, f.keywords.isEmpty)) == some [(true, true)])
      (by decide +kernel)
  simp only [Bool.and_eq_true, beq_iff_eq] at computed
  obtain ⟨⟨rfl, object⟩, fields⟩ := computed
  obtain ⟨definition, properties, found, shape, each⟩ := ofDocument_showsField made run object
  rw [found, Option.map_some, Option.some.injEq, List.map_eq_singleton_iff] at fields
  obtain ⟨f, single, plain⟩ := fields
  rw [single, List.forall₂_cons_left_iff] at each
  obtain ⟨p, rest, shows', last, rfl⟩ := each
  cases last
  obtain ⟨silent, bare⟩ := Prod.mk.inj plain
  obtain ⟨st, m₀, g, look, declares, looks, reads⟩ := shows' (Option.isNone_iff_eq_none.1 silent)
  obtain ⟨wraps, known⟩ := declares_counter declares
  obtain ⟨core, meaning, reads⟩ := reads _ _ wraps
  rw [Hint.evaluate, known] at meaning
  cases meaning
  obtain ⟨-, shown, -⟩ := reads _ ((looks.looks made).general "int") rfl
  have kept : definition.form.layersKept [.optional, .remarks [atLeastZero]] =
      [.optional, .remarks [atLeastZero]] := by
    rw [Form.layersKept]
    split
    · rfl
    · rfl
  rw [kept] at shown
  refine ⟨m, d, definition, p, made, run, shape, ?_, ?_, shown.type⟩
  · rw [shown.annotations, List.isEmpty_iff.1 bare]
    rfl
  · rw [shown.isOptional]
    exact Bool.or_true _

end RouteContract.Sources

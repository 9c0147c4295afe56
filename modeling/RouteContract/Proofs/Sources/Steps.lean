import RouteContract.Proofs.Sources.Filling

/-!
# Steps enough

The description of a class takes one step for each record that it begins, and there are only so many
records. With as many steps as there are records to begin, describing comes to the same as with any
greater number: the bound on the steps shows nowhere.
-/

set_option autoImplicit false

namespace RouteContract.Sources

open RouteContract Shape

variable {m : Module} {n : Nat} {onClass onClass' : ClassId → Describing TypeId}

/-- Two ways to describe classes do the same while there are less than a number of records that are
not begun. -/
def AgreeOnClasses (m : Module) (n : Nat) (onClass onClass' : ClassId → Describing TypeId) : Prop :=
  ∀ (c : ClassId) (d : Description), Sound m d → pending m d < n → onClass c d = onClass' c d

section Congruence

variable {α β : Type} {d : Description}

theorem bind_congr_left {x x' : Describing α} (same : x d = x' d) (f : α → Describing β) :
    (x >>= f) d = (x' >>= f) d := by
  rw [run_bind, run_bind, same]

/-- Two computations that go on in the same way from the states that the first part can leave. -/
theorem bind_congr {x x' : Describing α} {f f' : α → Describing β} {blame : ClassId → Prop}
    {post : Description → α → Prop} (first : Describes m blame post d (x d)) (same : x d = x' d)
    (after : ∀ a d', Keeps d d' → Sound m d' → post d' a → f a d' = f' a d') :
    (x >>= f) d = (x' >>= f') d := by
  rw [run_bind, run_bind, ← same]
  cases run : x d with
  | mk answer d' =>
    rw [run] at first
    cases answer with
    | error e => rfl
    | ok a => exact after a d' first.keeps first.sound (first.ok a rfl)

end Congruence

mutual
theorem describeBare_congr (classes : DescribesClasses m n onClass)
    (agree : AgreeOnClasses m n onClass onClass') (term : Term) (d : Description) (sound : Sound m d)
    (few : pending m d < n) : describeBare onClass term d = describeBare onClass' term d := by
  cases term with
  | nothing | general | quoted | reference | dots | choice | demanded => simp only [describeBare]
  | declared c =>
      simp only [describeBare]
      exact agree c d sound few
  | remarked base remarks =>
      simp only [describeBare]
      exact describeBare_congr classes agree base d sound few
  | union isPlain members =>
      simp only [describeBare]
      exact bind_congr_left (describeEach_congr classes agree members d sound few) _
  | applied name arguments =>
      simp only [describeBare]
      have each := describeEach_congr classes agree arguments d sound few
      have first := describeFirst_congr classes agree arguments d sound few
      have second := describeSecond_congr classes agree arguments d sound few
      cases standing name with
      | scalar | any | undescribed => rfl
      | collection => exact bind_congr_left first _
      | mapping => exact bind_congr_left second _
      | tuple =>
          simp only
          split
          · exact bind_congr_left first _
          · exact bind_congr_left each _
termination_by sizeOf term

theorem describeEach_congr (classes : DescribesClasses m n onClass)
    (agree : AgreeOnClasses m n onClass onClass') (terms : List Term) (d : Description)
    (sound : Sound m d) (few : pending m d < n) :
    describeEach onClass terms d = describeEach onClass' terms d := by
  cases terms with
  | nil => simp only [describeEach]
  | cons term rest =>
      have smaller := sizeOf_withoutDemand_le term
      rw [describeEach_cons, describeEach_cons]
      refine bind_congr (describes_bare classes term.withoutDemand d sound few)
        (describeBare_congr classes agree term.withoutDemand d sound few)
        fun t d' keeps sound' _ => ?_
      exact bind_congr_left (describeEach_congr classes agree rest d' sound'
        (pending_lt_of_keeps keeps few)) _
termination_by sizeOf terms
decreasing_by all_goals simp only [List.cons.sizeOf_spec]; omega

theorem describeFirst_congr (classes : DescribesClasses m n onClass)
    (agree : AgreeOnClasses m n onClass onClass') (terms : List Term) (d : Description)
    (sound : Sound m d) (few : pending m d < n) :
    describeFirst onClass terms d = describeFirst onClass' terms d := by
  cases terms with
  | nil => simp only [describeFirst]
  | cons term rest =>
      have smaller := sizeOf_withoutDemand_le term
      rw [describeFirst_cons, describeFirst_cons]
      exact describeBare_congr classes agree term.withoutDemand d sound few
termination_by sizeOf terms
decreasing_by all_goals simp only [List.cons.sizeOf_spec]; omega

theorem describeSecond_congr (classes : DescribesClasses m n onClass)
    (agree : AgreeOnClasses m n onClass onClass') (terms : List Term) (d : Description)
    (sound : Sound m d) (few : pending m d < n) :
    describeSecond onClass terms d = describeSecond onClass' terms d := by
  by_cases two : terms.length = 2
  · obtain ⟨first, second, rfl⟩ := List.length_eq_two.1 two
    have smaller := sizeOf_withoutDemand_le second
    rw [describeSecond_pair, describeSecond_pair]
    exact describeBare_congr classes agree second.withoutDemand d sound few
  · rw [describeSecond_of_ne two, describeSecond_of_ne two]
termination_by sizeOf terms
decreasing_by all_goals subst terms; simp only [List.cons.sizeOf_spec]; omega
end

/-! ## Walks -/

variable {d : Description} {c : ClassId} {t : TypeId} {definition : Class}

theorem forM_describeField_congr (classes : DescribesClasses m n onClass)
    (agree : AgreeOnClasses m n onClass onClass') {rest : List Module.Field}
    {properties : List Property} (sound : Sound m d) (few : pending m d < n)
    (begun : Begun m d c t definition properties)
    (left : rest = (m.fieldsOf definition).drop properties.length) :
    (forM rest fun f => describeField onClass (m.docOf? definition f.name) t f) d =
      (forM rest fun f => describeField onClass' (m.docOf? definition f.name) t f) d := by
  induction rest generalizing d properties with
  | nil => rfl
  | cons f rest ih =>
      rw [List.forM_cons, List.forM_cons]
      have next : (m.fieldsOf definition)[properties.length]? = some f := by
        rw [← List.head?_drop, ← left]
        rfl
      have same : describeField onClass (m.docOf? definition f.name) t f d =
          describeField onClass' (m.docOf? definition f.name) t f d := by
        rw [run_describeField, run_describeField,
          describeBare_congr classes agree f.core d sound few]
      rcases describeField_cases classes sound few begun next with
        ⟨e, d₁, run, -⟩ | ⟨d₁, p, run, keeps, sound₁, portrays, -⟩
      · rw [run_bind_error run, run_bind_error (same ▸ run)]
      · rw [run_bind_ok run, run_bind_ok (same ▸ run)]
        have begun₁ := begun.keep keeps
        have grows := grows_addProperty begun₁.shape p
        refine ih (sound₁.addProperty begun₁ next portrays)
          (Nat.lt_of_le_of_lt (pending_le_of_object m fun c' u object =>
            grows.object c' u (keeps.object c' u object)) few)
          (begun₁.addProperty next portrays) ?_
        rw [List.length_append, List.length_singleton, ← List.drop_drop, ← left]
        rfl

theorem describeRecord_congr (classes : DescribesClasses m n onClass)
    (agree : AgreeOnClasses m n onClass onClass') (found : m.record? c = some definition)
    (sound : Sound m d) (few : pending m d < n + 1) :
    describeRecord m onClass c definition d = describeRecord m onClass' c definition d := by
  rw [run_describeRecord, run_describeRecord]
  cases object : d.object? c with
  | some t => rfl
  | none =>
      have fewer := pending_register_lt (record?_eq_some_iff.1 found).1 object definition.name
      obtain ⟨sound', begun⟩ := sound.register found object
      exact bind_congr_left (forM_describeField_congr classes agree sound' (by omega) begun
        List.drop_zero.symm) _

/-- **More steps than enough change nothing.** -/
theorem describeClass_of_le {steps : Nat} (enough : n ≤ steps) :
    AgreeOnClasses m n (describeClass m n) (describeClass m steps) := by
  induction n generalizing steps with
  | zero => exact fun _ _ _ none => absurd none (Nat.not_lt_zero _)
  | succ n ih =>
      intro c d sound few
      obtain ⟨steps, rfl⟩ : ∃ k, steps = k + 1 := ⟨steps - 1, by omega⟩
      rw [describeClass, describeClass]
      cases known : m.class? c with
      | none => rfl
      | some definition =>
          cases form : definition.form with
          | enumeration | plain | controller => simp only [form]
          | keyed | fielded | model =>
              have found : m.record? c = some definition :=
                record?_eq_some_iff.2 ⟨known, by rw [form]; rfl⟩
              simp only [form]
              exact describeRecord_congr (describes_class m n) (ih (Nat.le_of_succ_le_succ enough)) found
                sound few

/-! ## Terms of a module -/

theorem pending_lt_steps (m : Module) (d : Description) : pending m d < m.classes.length + 2 :=
  Nat.lt_of_le_of_lt (pending_le_length m d) (by omega)

/-- **What describing a term of a module does**: it makes a type that depicts the term. -/
theorem describes (sound : Sound m d) (term : Term) :
    Describes m term.withoutDemand.Mentions (fun d' t => Depicts m d' term.withoutDemand t) d
      (m.describe term d) :=
  describes_bare (describes_class m _) term.withoutDemand d sound (pending_lt_steps m d)

theorem describe_eq_of_le {steps : Nat} (enough : m.classes.length + 2 ≤ steps) (sound : Sound m d)
    (term : Term) : m.describe term d = describeTerm (describeClass m steps) term d :=
  describeBare_congr (describes_class m _) (describeClass_of_le enough) term.withoutDemand d sound
    (pending_lt_steps m d)

end RouteContract.Sources

import RouteContract.Pattern.Matcher
import RouteContract.Proofs.Pattern.Bar

/-!
# Alternatives

Patterns without groups can be joined: with a bar between them they are a pattern that occurs in a
text exactly when one of them does (`read_bar`). With groups this fails, since groups are numbered,
and may be referred to, across the whole pattern, and may change its switches.
-/

set_option autoImplicit false

namespace RouteContract.Pattern

namespace Reader

/-! ## Patterns without groups -/

/-- A state outside of all groups, before any group was opened. -/
def flat (alternatives terms : List Term) : State :=
  { start {} with top := ⟨.root, false, alternatives, terms⟩ }

/-- The bounds of a repetition that has a sign of its own. -/
def signBounds? (c : Char) : Option (Nat × Option Nat) :=
  if c == '?' then some (0, some 1)
  else if c == '*' then some (0, none)
  else if c == '+' then some (1, none)
  else none

/-- The term of a symbol that stands for one. -/
def plainTerm (c : Char) : Term :=
  if c == '.' then .any
  else if c == '^' then .anchor .lineStart
  else if c == '$' then .anchor .lineEnd
  else .char c.toNat

/-- What a symbol does outside of all groups. -/
theorem step_flat_plain (alternatives terms : List Term) (c : Char) (more : List Symbol) :
    step (flat alternatives terms) (.plain c :: more) =
      if c == '|' then .ok (flat (.sequence terms.reverse :: alternatives) [], more)
      else if c == ')' then .error .malformed
      else if c == '[' then
        (bracketed more).map fun (term, after) => ((flat alternatives terms).push term, after)
      else if c == '(' then openGroup (flat alternatives terms) more
      else
        match signBounds? c with
        | some (least, most) => applyRepetition (flat alternatives terms) least most more
        | none =>
            if c == '{' then
              match bounds? more with
              | none => .ok ((flat alternatives terms).push (.char c.toNat), more)
              | some (.error e) => .error e
              | some (.ok (least, most, after)) =>
                  applyRepetition (flat alternatives terms) least most after
            else .ok ((flat alternatives terms).push (plainTerm c), more) := by
  have calm : (flat alternatives terms).top.verbose = false := rfl
  have around : (flat alternatives terms).outer = [] := rfl
  have bar : nextAlternative (flat alternatives terms) =
      .ok (flat (.sequence terms.reverse :: alternatives) []) := rfl
  rw [step]
  simp only [calm, around, bar, Bool.false_and, Bool.false_eq_true, if_false, signBounds?,
    plainTerm]
  refine if_congr Iff.rfl rfl (if_congr Iff.rfl rfl (if_congr Iff.rfl rfl
    (if_congr Iff.rfl rfl ?_)))
  cases c == '?' with
  | true => rfl
  | false =>
      cases c == '*' with
      | true => rfl
      | false =>
          cases c == '+' with
          | true => rfl
          | false =>
              simp only [Bool.false_eq_true, if_false]
              refine if_congr Iff.rfl rfl ?_
              cases c == '.' with
              | true => rfl
              | false =>
                  cases c == '^' with
                  | true => rfl
                  | false => cases c == '$' <;> rfl

/-- A state with alternatives that were read before. -/
def State.after (s : State) (before : List Term) : State :=
  { s with top := { s.top with alternatives := s.top.alternatives ++ before } }

section Step

variable {alternatives terms : List Term} {symbol : Symbol} {more rest : List Symbol} {s : State}

theorem applyRepetition_after (before : List Term) (least : Nat) (most : Option Nat)
    (rest : List Symbol) :
    applyRepetition (flat (alternatives ++ before) terms) least most rest =
      (applyRepetition (flat alternatives terms) least most rest).map fun r =>
        (r.1.after before, r.2) := by
  rw [applyRepetition_eq, applyRepetition_eq]
  have same : (flat (alternatives ++ before) terms).top.terms =
      (flat alternatives terms).top.terms := rfl
  rw [same]
  cases repeatLatest (takeGreed rest).1 least most (flat alternatives terms).top.terms <;> rfl

/-- The alternatives before an element have no part in how it is read. -/
theorem step_after (ungrouped : symbol ≠ .plain '(') (before : List Term) :
    step (flat (alternatives ++ before) terms) (symbol :: more) =
      (step (flat alternatives terms) (symbol :: more)).map fun r => (r.1.after before, r.2) := by
  cases symbol with
  | dangling => rfl
  | escaped c =>
      have same : escape (flat (alternatives ++ before) terms) c more =
        escape (flat alternatives terms) c more := rfl
      rw [step, step, same]
      cases escape (flat alternatives terms) c more <;> rfl
  | plain c =>
      have noGroup : (c == '(') = false := by
        rw [beq_eq_false_iff_ne]
        rintro rfl
        exact ungrouped rfl
      simp only [step_flat_plain, noGroup, Bool.false_eq_true, if_false, applyRepetition_after]
      cases c == '|' with
      | true => rfl
      | false =>
      cases c == ')' with
      | true => rfl
      | false =>
      cases c == '[' with
      | true => cases bracketed more <;> rfl
      | false =>
      cases signBounds? c with
      | some bounds => rfl
      | none =>
      cases c == '{' with
      | false => rfl
      | true =>
      rcases bounds? more with _ | e | ⟨least, most, after⟩ <;> rfl

/-- An element outside of all groups is read as it is in front of a bar. -/
theorem step_flat (ungrouped : symbol ≠ .plain '(')
    (taken : step (flat alternatives terms) (symbol :: more) = .ok (s, rest)) :
    Skips (symbol :: more) rest ∧ (∃ others latest, s = flat others latest) ∧
      ∀ tail, step (flat alternatives terms) (symbol :: barred more tail) =
        .ok (s, barred rest tail) := by
  have pushes {term : Term} {left : List Symbol} 
      (h : ((flat alternatives terms).push term, left) = (s, rest)) :
      left = rest ∧ ∃ others latest, s = flat others latest := by
    cases h
    exact ⟨rfl, alternatives, term :: terms, rfl⟩
  have repeats {least : Nat} {most : Option Nat} {left : List Symbol} 
      (h : applyRepetition (flat alternatives terms) least most left = .ok (s, rest)) :
      Skips left rest ∧ (∃ others latest, s = flat others latest) ∧
        ∀ tail, applyRepetition (flat alternatives terms) least most (barred left tail) =
            .ok (s, barred rest tail) := by
    rw [applyRepetition_eq] at h
    obtain ⟨latest, repeated, same⟩ := map_eq_ok_iff.1 h
    cases same
    refine ⟨takeGreed_skips left, ⟨alternatives, latest, rfl⟩, fun tail => ?_⟩
    rw [applyRepetition_eq, takeGreed_barred]
    exact map_eq_ok_iff.2 ⟨latest, repeated, rfl⟩
  cases symbol with
  | dangling => cases taken
  | escaped c =>
      rw [step] at taken
      obtain ⟨⟨term, left⟩, read, same⟩ := map_eq_ok_iff.1 taken
      obtain ⟨rfl, state⟩ := pushes same
      refine ⟨(escape_skips read).escaped c, state, fun tail => ?_⟩
      rw [step, escape_barred, read]
      cases same
      rfl
  | plain c =>
      have noGroup : (c == '(') = false := by
        rw [beq_eq_false_iff_ne]
        rintro rfl
        exact ungrouped rfl
      simp only [step_flat_plain, noGroup, Bool.false_eq_true, if_false] at taken ⊢
      cases bar : c == '|' with
      | true =>
          simp only [bar, if_true] at taken ⊢
          cases taken
          exact ⟨(Skips.refl _).plain c, ⟨_, [], rfl⟩, fun _ => rfl⟩
      | false =>
      cases closing : c == ')' with
      | true =>
          simp only [bar, closing, Bool.false_eq_true, if_true, if_false] at taken
          cases taken
      | false =>
      cases bracket : c == '[' with
      | true =>
          simp only [bar, closing, bracket, Bool.false_eq_true, if_true, if_false] at taken ⊢
          obtain ⟨⟨term, left⟩, read, same⟩ := map_eq_ok_iff.1 taken
          obtain ⟨inside, behind⟩ := bracketed_stopsAtBar _ _ _ read
          obtain ⟨rfl, state⟩ := pushes same
          refine ⟨inside.plain c, state, fun tail => ?_⟩
          rw [behind]
          cases same
          rfl
      | false =>
      simp only [bar, closing, bracket, Bool.false_eq_true, if_false] at taken ⊢
      cases signed : signBounds? c with
      | some bounds =>
          simp only [signed] at taken ⊢
          obtain ⟨inside, state, behind⟩ := repeats taken
          exact ⟨inside.plain c, state, behind⟩
      | none =>
      cases brace : c == '{' with
      | false =>
          simp only [signed, brace, Bool.false_eq_true, if_false] at taken ⊢
          cases taken
          exact ⟨(Skips.refl _).plain c, ⟨_, _, rfl⟩, fun _ => rfl⟩
      | true =>
          simp only [signed, brace, if_true, bounds?_barred] at taken ⊢
          split at taken
          · next found =>
              cases taken
              simp only [found, Option.map_none]
              exact ⟨(Skips.refl _).plain c, ⟨_, _, rfl⟩, fun _ => trivial⟩
          · cases taken
          · next found =>
              obtain ⟨inside, state, behind⟩ := repeats taken
              simp only [found, Option.map_some, Except.map]
              exact ⟨((bounds?_skips found).trans inside).plain c, state, behind⟩

end Step

/-! ## Whole texts -/

theorem run_nil (fuel : Nat) (s : State) : run fuel s [] = .ok s := by
  cases fuel <;> rfl

/-- More steps than are needed change nothing. -/
theorem run_more {s s' : State} {symbols : List Symbol} {fuel : Nat}
    (h : run fuel s symbols = .ok s') (more : Nat) : run (fuel + more) s symbols = .ok s' := by
  induction fuel generalizing s symbols with
  | zero =>
      cases symbols with
      | nil => rwa [run_nil] at h ⊢
      | cons symbol rest => cases h
  | succ fuel ih =>
      cases symbols with
      | nil => rwa [run_nil] at h ⊢
      | cons symbol rest =>
          simp only [Nat.add_right_comm, run] at h ⊢
          split at h
          · cases h
          · exact ih h

/-- Outside of all groups, symbols are read as they are by themselves: behind any alternatives, and
in front of a bar. -/
structure ReadsFlat (alternatives terms : List Term) (symbols : List Symbol) (s : State)
    (fuel : Nat) : Prop where
  whole : .dangling ∉ symbols
  state : ∃ others latest, s = flat others latest
  behind : ∀ before,
    run fuel (flat (alternatives ++ before) terms) symbols = .ok (s.after before)
  inFront : ∀ more tail, ∃ left, more ≤ left ∧
    run (fuel + more) (flat alternatives terms) (barred symbols tail) =
      run left s (.plain '|' :: tail)

theorem ReadsFlat.nothing (alternatives terms : List Term) (fuel : Nat) :
    ReadsFlat alternatives terms [] (flat alternatives terms) fuel where
  whole := List.not_mem_nil
  state := ⟨_, _, rfl⟩
  behind _ := run_nil ..
  inFront more _ := ⟨fuel + more, Nat.le_add_left .., rfl⟩

theorem run_flat {alternatives terms : List Term} {symbols : List Symbol} {s : State} {fuel : Nat}
    (ungrouped : .plain '(' ∉ symbols)
    (h : run fuel (flat alternatives terms) symbols = .ok s) :
    ReadsFlat alternatives terms symbols s fuel := by
  induction fuel generalizing alternatives terms symbols with
  | zero =>
      cases symbols with
      | nil =>
          cases h
          exact .nothing alternatives terms 0
      | cons symbol later => cases h
  | succ fuel ih =>
      cases symbols with
      | nil =>
          cases h
          exact .nothing alternatives terms (fuel + 1)
      | cons symbol later =>
          have opens : symbol ≠ .plain '(' := by
            rintro rfl
            exact ungrouped (List.mem_cons_self ..)
          simp only [run] at h
          split at h
          · cases h
          · next next rest taken =>
              obtain ⟨skipped, ⟨others, latest, rfl⟩, barred_⟩ := step_flat opens taken
              have later := ih (fun mem => ungrouped (skipped.mem mem)) h
              refine ⟨skipped.free later.whole, later.state, fun before => ?_, fun more tail => ?_⟩
              · simp only [run, step_after opens, taken, Except.map]
                exact later.behind before
              · simp only [barred_cons, Nat.add_right_comm, run, barred_]
                exact later.inFront more tail

/-! ## Two patterns -/

theorem symbols_barred {a : List Char} (whole : .dangling ∉ symbols a) (b : List Char) :
    symbols (a ++ '|' :: b) = barred (symbols a) (symbols b) := by
  fun_induction symbols a with
  | case1 => rfl
  | case2 => simp at whole
  | case3 c rest ih =>
      rw [List.mem_cons, not_or] at whole
      exact congrArg (Symbol.escaped c :: ·) (ih whole.2)
  | case4 c rest ordinary alone ih =>
      rw [List.mem_cons, not_or] at whole
      have other : c ≠ '\\' := by
        rintro rfl
        cases rest with
        | nil => exact ordinary rfl rfl
        | cons d more => exact alone d more rfl rfl
      rw [List.cons_append, symbols.eq_4 _ _ (fun same _ => other same)
        (fun _ _ same _ => other same), ih whole.2]
      rfl

theorem mem_of_plain {a : List Char} {c : Char} (h : .plain c ∈ symbols a) : c ∈ a := by
  fun_induction symbols a with
  | case1 => cases h
  | case2 => simp at h
  | case3 d rest ih =>
      have later : Symbol.plain c ∈ symbols rest := by simpa using h
      exact List.mem_cons_of_mem _ (List.mem_cons_of_mem _ (ih later))
  | case4 d rest _ _ ih =>
      rcases List.mem_cons.1 h with same | later
      · cases same
        exact List.mem_cons_self ..
      · exact List.mem_cons_of_mem _ (ih later)

/-- The alternatives of a state outside of all groups, latest first. -/
def State.choices (s : State) : List Term := .sequence s.top.terms.reverse :: s.top.alternatives

theorem runChoice_isSome (flags : Flags) (c : Cursor) (terms : List Term) (k : Continuation) :
    (runChoice flags terms c k).isSome = terms.any fun term => (term.run flags c k).isSome := by
  induction terms with
  | nil => rfl
  | cons term rest ih =>
      rw [runChoice, List.any_cons, ← ih]
      cases term.run flags c k <;> rfl

/-- A group matches where one of its alternatives does. -/
theorem frameTerm_isSome (s : State) (flags : Flags) (c : Cursor) (k : Continuation) :
    (s.top.term.run flags c k).isSome =
      s.choices.any fun term => (term.run flags c k).isSome := by
  rw [State.choices, ← List.any_reverse, Frame.term]
  split
  · next single same => 
    rw [same]
    simp
  · next several other => rw [Term.run, runChoice_isSome]

/-- A text that is read to a state outside of all groups. -/
theorem read_flat {source : List Char} {alternatives terms : List Term}
    (h : run (symbols source).length (flat [] []) (symbols source) =
      .ok (flat alternatives terms)) :
    read {} source = .ok ⟨(flat alternatives terms).top.term, { unicode := true }, []⟩ := by
  have first : start {} = flat [] [] := rfl
  simp only [read, first, h]
  rfl

theorem ungrouped_symbols {source : List Char} (ungrouped : '(' ∉ source) :
    .plain '(' ∉ symbols source :=
  fun mem => ungrouped (mem_of_plain mem)

/-- A pattern without groups is read to a state outside of all groups. -/
theorem run_of_read {source : List Char} {p : Pattern} (ungrouped : '(' ∉ source)
    (h : read {} source = .ok p) :
    ∃ alternatives terms,
      run (symbols source).length (flat [] []) (symbols source) = .ok (flat alternatives terms) ∧
        p = ⟨(flat alternatives terms).top.term, { unicode := true }, []⟩ := by
  have first : start {} = flat [] [] := rfl
  cases done : run (symbols source).length (flat [] []) (symbols source) with
  | error e =>
      simp only [read, first, done] at h
      cases h
  | ok s =>
      obtain ⟨alternatives, terms, rfl⟩ := (run_flat (ungrouped_symbols ungrouped) done).state
      refine ⟨alternatives, terms, rfl, ?_⟩
      rw [read_flat done] at h
      exact (Except.ok.inj h).symm

end Reader

open Reader

variable {p q r : Pattern}

/-- A pattern occurs where one of two others does, when it matches where one of them does. -/
theorem occursIn_or
    (h : ∀ c, (matchAt? r c).isSome = ((matchAt? p c).isSome || (matchAt? q c).isSome))
    (text : List Char) : r.occursIn text = (p.occursIn text || q.occursIn text) := by
  have onward (passed : List Char) :
      occursFrom r passed text = (occursFrom p passed text || occursFrom q passed text) := by
    induction text generalizing passed with
    | nil => simp only [occursFrom, h]
    | cons c rest ih => simp only [occursFrom, h, ih, Bool.or_assoc, Bool.or_left_comm]
  exact onward []

/-- **Alternatives.** Two patterns without groups, with a bar between them, are a pattern that
occurs where one of the two does. -/
theorem read_bar {a b : List Char} (aUngrouped : '(' ∉ a) (bUngrouped : '(' ∉ b)
    (first : read {} a = .ok p) (second : read {} b = .ok q) :
    ∃ r, read {} (a ++ '|' :: b) = .ok r ∧
      ∀ text, r.occursIn text = (p.occursIn text || q.occursIn text) := by
  obtain ⟨as, aTerms, aDone, rfl⟩ := run_of_read aUngrouped first
  obtain ⟨bs, bTerms, bDone, rfl⟩ := run_of_read bUngrouped second
  have aRead := run_flat (ungrouped_symbols aUngrouped) aDone
  have bRead := run_flat (ungrouped_symbols bUngrouped) bDone
  obtain ⟨left, enough, reached⟩ := aRead.inFront ((symbols b).length + 1) (symbols b)
  obtain ⟨more, rfl⟩ := Nat.exists_eq_add_of_le enough
  have done : run (symbols (a ++ '|' :: b)).length (flat [] []) (symbols (a ++ '|' :: b)) =
      .ok (flat (bs ++ (flat as aTerms).choices) bTerms) := by
    have length : (barred (symbols a) (symbols b)).length =
        (symbols a).length + ((symbols b).length + 1) := by
      simp [barred]
    rw [symbols_barred aRead.whole, length, reached]
    have bar : step (flat as aTerms) (.plain '|' :: symbols b) =
        .ok (flat (flat as aTerms).choices [], symbols b) := rfl
    simp only [Nat.add_right_comm (symbols b).length 1 more, run, bar]
    exact run_more (bRead.behind (flat as aTerms).choices) more
  refine ⟨_, read_flat done, occursIn_or fun c => ?_⟩
  have joined : (flat (bs ++ (flat as aTerms).choices) bTerms).choices =
      (flat bs bTerms).choices ++ (flat as aTerms).choices := rfl
  simp only [matchAt?, frameTerm_isSome]
  rw [joined, List.any_append, Bool.or_comm]

end RouteContract.Pattern

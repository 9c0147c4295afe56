import RouteContract.Proofs.Data.Result
import RouteContract.Proofs.Pattern.Reading

/-!
# Reading up to a bar

What the reader takes at one place, an escape, a class or the bounds of a repetition, it also takes
when a bar and more symbols stand behind the text: a bar continues none of them. Each lemma says so
of one function of the reader, and that the symbols it takes are whole (`Skips`), no backslash at
the very end among them.
-/

set_option autoImplicit false

namespace RouteContract.Pattern.Reader

/-! ## Symbols and a bar -/

/-- Symbols, a bar, and more symbols. -/
def barred (s tail : List Symbol) : List Symbol := s ++ .plain '|' :: tail

@[simp] theorem barred_nil (tail : List Symbol) : barred [] tail = .plain '|' :: tail := rfl

@[simp] theorem barred_cons (symbol : Symbol) (s tail : List Symbol) :
    barred (symbol :: s) tail = symbol :: barred s tail := rfl

/-- A symbol in front of the bar that is not the bar itself is the first of its symbols. -/
theorem eq_cons_of_barred {c : Char} {s tail rest : List Symbol} (other : c ≠ '|')
    (h : barred s tail = .plain c :: rest) : ∃ more, s = .plain c :: more := by
  cases s with
  | nil =>
      rw [barred_nil] at h
      cases h
      exact absurd rfl other
  | cons symbol more =>
      rw [barred_cons] at h
      cases h
      exact ⟨more, rfl⟩

/-- Symbols from the front are taken, none of them a backslash at the very end. -/
def Skips (s rest : List Symbol) : Prop := ∃ front, s = front ++ rest ∧ .dangling ∉ front

namespace Skips

variable {s rest deeper : List Symbol}

theorem refl (s : List Symbol) : Skips s s := ⟨[], rfl, List.not_mem_nil⟩

theorem trans (h : Skips s rest) (next : Skips rest deeper) : Skips s deeper := by
  obtain ⟨front, rfl, first⟩ := h
  obtain ⟨more, rfl, second⟩ := next
  refine ⟨front ++ more, (List.append_assoc ..).symm, ?_⟩
  rw [List.mem_append, not_or]
  exact ⟨first, second⟩

theorem plain (c : Char) (h : Skips s rest) : Skips (.plain c :: s) rest := by
  obtain ⟨front, rfl, free⟩ := h
  exact ⟨.plain c :: front, rfl, by simp [free]⟩

theorem escaped (c : Char) (h : Skips s rest) : Skips (.escaped c :: s) rest := by
  obtain ⟨front, rfl, free⟩ := h
  exact ⟨.escaped c :: front, rfl, by simp [free]⟩

/-- What is left was there before. -/
theorem mem {symbol : Symbol} (h : Skips s rest) (left : symbol ∈ rest) : symbol ∈ s := by
  obtain ⟨front, rfl, -⟩ := h
  exact List.mem_append_right front left

theorem free (h : Skips s rest) (later : .dangling ∉ rest) : .dangling ∉ s := by
  obtain ⟨front, rfl, first⟩ := h
  rw [List.mem_append, not_or]
  exact ⟨first, later⟩

end Skips

/-- A reader that takes symbols from the front and takes the same ones in front of a bar. -/
def StopsAtBar {α : Type} (read : List Symbol → Except ReadError (α × List Symbol)) : Prop :=
  ∀ s x rest, read s = .ok (x, rest) →
    Skips s rest ∧ ∀ tail, read (barred s tail) = .ok (x, barred rest tail)

theorem takeRun_barred {p : Char → Bool} (bar : p '|' = false) (tail : List Symbol) :
    ∀ (n : Nat) (s : List Symbol),
      takeRun p n (barred s tail) = ((takeRun p n s).1, barred (takeRun p n s).2 tail)
  | 0, s => by simp [takeRun]
  | n + 1, [] => by simp [takeRun, bar]
  | n + 1, .dangling :: rest => by simp [takeRun]
  | n + 1, .escaped c :: rest => by simp [takeRun]
  | n + 1, .plain c :: rest => by
      simp only [barred_cons, takeRun, takeRun_barred bar tail n rest]
      split <;> rfl

theorem takeRun_skips (p : Char → Bool) :
    ∀ (n : Nat) (s : List Symbol), Skips s (takeRun p n s).2
  | 0, s => Skips.refl _
  | n + 1, [] => Skips.refl _
  | n + 1, .dangling :: rest => Skips.refl _
  | n + 1, .escaped c :: rest => Skips.refl _
  | n + 1, .plain c :: rest => by
      simp only [takeRun]
      split
      · exact (takeRun_skips p n rest).plain c
      · exact .refl _

/-- A run does not depend on how many symbols it may take when it may take all. -/
theorem takeRun_enough (p : Char → Bool) :
    ∀ (n : Nat) (s : List Symbol), s.length ≤ n → takeRun p n s = takeRun p s.length s
  | n, [], _ => by cases n <;> rfl
  | n + 1, .dangling :: rest, _ => rfl
  | n + 1, .escaped c :: rest, _ => rfl
  | n + 1, .plain c :: rest, h => by
      simp only [List.length_cons, Nat.add_le_add_iff_right] at h
      simp only [takeRun, List.length_cons, takeRun_enough p n rest h]


/-! ## Escapes -/

/-- What a reader took, with a bar behind what it left. -/
def withBar {α : Type} (tail : List Symbol) (taken : α × List Symbol) : α × List Symbol :=
  (taken.1, barred taken.2 tail)

theorem hexEscape_barred (count : Nat) (s tail : List Symbol) :
    hexEscape count (barred s tail) = (hexEscape count s).map (withBar tail) := by
  rw [hexEscape, hexEscape, takeRun_barred rfl]
  simp only
  split <;> rfl

theorem numberedEscape?_barred (c : Char) (s tail : List Symbol) :
    numberedEscape? c (barred s tail) =
      (numberedEscape? c s).map fun result => result.map (withBar tail) := by
  simp only [numberedEscape?, hexEscape_barred]
  split
  · rfl
  · split
    · rfl
    · split
      · cases hexEscape 8 s with
        | error e => rfl
        | ok taken =>
            simp only [Except.map, withBar]
            split <;> simp_all
      · rfl

theorem classEscape_barred (c : Char) (s tail : List Symbol) :
    classEscape c (barred s tail) = (classEscape c s).map (withBar tail) := by
  have octal : isOctalDigit '|' = false := rfl
  simp only [classEscape, numberedEscape?_barred, takeRun_barred octal]
  cases controlEscape? c with
  | some code => rfl
  | none =>
      cases categoryEscape? c with
      | some item => rfl
      | none =>
          cases numberedEscape? c s with
          | some result => cases result <;> rfl
          | none =>
              simp only [Option.map_none]
              repeat' split
              all_goals rfl

theorem map_withBar (r : Except ReadError Term) (rest tail : List Symbol) :
    (r.map (·, rest)).map (withBar tail) = r.map (·, barred rest tail) := by
  cases r <;> rfl

theorem digitEscape_barred (state : State) (c : Char) (s tail : List Symbol) :
    digitEscape state c (barred s tail) = (digitEscape state c s).map (withBar tail) := by
  have octal : isOctalDigit '|' = false := rfl
  have digit : Char.isDigit '|' = false := rfl
  rw [digitEscape.eq_def, digitEscape.eq_def]
  simp only [takeRun_barred octal]
  split
  · rfl
  · match s with
    | [] => simp [digit, map_withBar]
    | .dangling :: rest => simp [map_withBar]
    | .escaped d :: rest => simp [map_withBar]
    | .plain d :: [] =>
        simp only [barred_cons, barred_nil, octal]
        split <;> simp [map_withBar]
    | .plain d :: .dangling :: rest =>
        simp only [barred_cons]
        split <;> simp [map_withBar]
    | .plain d :: .escaped e :: rest =>
        simp only [barred_cons]
        split <;> simp [map_withBar]
    | .plain d :: .plain e :: rest =>
        simp only [barred_cons]
        split
        · split
          · split <;> rfl
          · simp [map_withBar]
        · simp [map_withBar]

theorem escape_barred (state : State) (c : Char) (s tail : List Symbol) :
    escape state c (barred s tail) = (escape state c s).map (withBar tail) := by
  simp only [escape, numberedEscape?_barred, digitEscape_barred]
  cases anchorEscape? c with
  | some anchor => rfl
  | none =>
      cases categoryEscape? c with
      | some item => rfl
      | none =>
          cases controlEscape? c with
          | some code => rfl
          | none =>
              cases numberedEscape? c s with
              | some result => cases result <;> rfl
              | none =>
                  simp only [Option.map_none]
                  repeat' split
                  all_goals rfl


theorem hexEscape_skips {count n : Nat} {s rest : List Symbol}
    (h : hexEscape count s = .ok (n, rest)) : Skips s rest := by
  simp only [hexEscape] at h
  split at h
  · cases h
    exact takeRun_skips _ _ _
  · cases h

theorem numberedEscape?_skips {c : Char} {n : Nat} {s rest : List Symbol}
    (h : numberedEscape? c s = some (.ok (n, rest))) : Skips s rest := by
  simp only [numberedEscape?] at h
  split at h
  · exact hexEscape_skips (Option.some.inj h)
  · split at h
    · exact hexEscape_skips (Option.some.inj h)
    · split at h
      · have taken := Option.some.inj h
        split at taken
        · cases taken
        · next code after found =>
            split at taken
            · cases taken
              exact hexEscape_skips found
            · cases taken
      · cases h

theorem classEscape_skips {c : Char} {item : ClassItem} {s rest : List Symbol}
    (h : classEscape c s = .ok (item, rest)) : Skips s rest := by
  simp only [classEscape] at h
  split at h
  · cases h
    exact .refl _
  · cases h
    exact .refl _
  · next found =>
      obtain ⟨taken, rfl, same⟩ := map_eq_ok_iff.1 h
      cases same
      exact numberedEscape?_skips found
  · split at h
    · cases h
      exact .refl _
    · split at h
      · split at h
        · cases h
          exact takeRun_skips _ _ _
        · cases h
      · split at h
        · cases h
        · cases h
          exact .refl _

theorem digitEscape_skips {state : State} {c : Char} {term : Term} {s rest : List Symbol}
    (h : digitEscape state c s = .ok (term, rest)) : Skips s rest := by
  have mapped {r : Except ReadError Term} {left : List Symbol}
      (h : r.map (·, left) = .ok (term, rest)) (inside : Skips s left) : Skips s rest := by
    obtain ⟨_, -, same⟩ := map_eq_ok_iff.1 h
    cases same
    exact inside
  rw [digitEscape.eq_def] at h
  split at h
  · cases h
    exact takeRun_skips _ _ _
  · split at h
    · next d afterTwo =>
        have two : Skips (.plain d :: afterTwo) afterTwo := (Skips.refl _).plain d
        split at h
        · split at h
          · next e afterThree =>
              split at h
              · simp only at h
                split at h
                · cases h
                  exact two.trans ((Skips.refl _).plain e)
                · cases h
              · exact mapped h two
          · exact mapped h two
        · exact mapped h (.refl _)
    · exact mapped h (.refl _)

theorem escape_skips {state : State} {c : Char} {term : Term} {s rest : List Symbol}
    (h : escape state c s = .ok (term, rest)) : Skips s rest := by
  simp only [escape] at h
  split at h
  · cases h
    exact .refl _
  · cases h
    exact .refl _
  · cases h
    exact .refl _
  · next found =>
      obtain ⟨taken, rfl, same⟩ := map_eq_ok_iff.1 h
      cases same
      exact numberedEscape?_skips found
  · split at h
    · exact digitEscape_skips h
    · split at h
      · cases h
      · cases h
        exact .refl _

/-! ## Classes -/

theorem classEnd_stopsAtBar : StopsAtBar classEnd := by
  intro s item rest h
  match s with
  | [] => cases h
  | .dangling :: _ => cases h
  | .plain c :: more =>
      cases h
      exact ⟨(Skips.refl _).plain c, fun _ => rfl⟩
  | .escaped c :: more =>
      rw [classEnd] at h
      refine ⟨(classEscape_skips h).escaped c, fun tail => ?_⟩
      rw [barred_cons, classEnd, classEscape_barred, h]
      rfl

/-- A class may be given more steps than it takes. -/
theorem classItems_more {first : Bool} {s rest : List Symbol} {items : List ClassItem} {fuel : Nat}
    (h : classItems fuel first s = .ok (items, rest)) (more : Nat) :
    Skips s rest ∧ ∀ tail, classItems (fuel + more) first (barred s tail) =
      .ok (items, barred rest tail) := by
  induction fuel generalizing first s items rest with
  | zero => cases h
  | succ fuel ih =>
      have sameHead (tail : List Symbol) :
          (barred s tail).head? = some (.plain ']') ↔ s.head? = some (.plain ']') := by
        cases s <;> simp
      simp only [Nat.add_right_comm, classItems, sameHead]
      rw [classItems] at h
      split at h
      · next closes =>
          cases h
          rw [Bool.and_eq_true, decide_eq_true_eq] at closes
          obtain ⟨left, rfl⟩ := List.head?_eq_some_iff.1 closes.2
          refine ⟨(Skips.refl _).plain ']', fun tail => ?_⟩
          simp only [closes, decide_true, Bool.and_self, if_true]
          rfl
      · next opens =>
          simp only [opens, Bool.false_eq_true, if_false]
          split at h
          · cases h
          · next low left found =>
              cases h
              obtain ⟨inside, behind⟩ := classEnd_stopsAtBar _ _ _ found
              refine ⟨inside.trans (((Skips.refl _).plain ']').plain '-'), fun tail => ?_⟩
              simp only [behind, barred_cons]
          · next left other found =>
              obtain ⟨inside, behind⟩ := classEnd_stopsAtBar _ _ _ found
              split at h
              · next a b after last =>
                  obtain ⟨inner, onward⟩ := classEnd_stopsAtBar _ _ _ last
                  split at h
                  · cases h
                  · next ordered =>
                      obtain ⟨⟨others, final⟩, done, same⟩ := map_eq_ok_iff.1 h
                      cases same
                      obtain ⟨deeper, again⟩ := ih done
                      refine ⟨inside.trans ((inner.trans deeper).plain '-'), fun tail => ?_⟩
                      rw [behind, barred_cons]
                      split
                      · next wrong => cases wrong
                      · next last same =>
                          rw [Except.ok.injEq, Prod.mk.injEq, List.cons.injEq] at same
                          obtain ⟨_, closing⟩ := eq_cons_of_barred (by decide) same.2.2
                          exact absurd closing (other _)
                      · next same =>
                          cases same
                          simp only [onward, ordered, if_false, again]
                          rfl
                      · next separate same =>
                          cases same
                          exact (separate _ rfl).elim
              · cases h
              · cases h
          · next item left single plain found =>
              obtain ⟨inside, behind⟩ := classEnd_stopsAtBar _ _ _ found
              obtain ⟨⟨others, final⟩, done, same⟩ := map_eq_ok_iff.1 h
              cases same
              obtain ⟨deeper, again⟩ := ih done
              refine ⟨inside.trans deeper, fun tail => ?_⟩
              rw [behind]
              have noRange {low : ClassItem} {last : List Symbol}
                  (same : (Except.ok (item, barred left tail) : Except ReadError _) =
                    .ok (low, .plain '-' :: last)) : False := by
                rw [Except.ok.injEq, Prod.mk.injEq] at same
                obtain ⟨_, dash⟩ := eq_cons_of_barred (by decide) same.2
                exact plain _ dash
              split
              · next wrong => cases wrong
              · next same => exact (noRange same).elim
              · next same => exact (noRange same).elim
              · next same =>
                  cases same
                  rw [again]
                  rfl

/-- The term of the items of a class, with the symbols behind it. -/
def classTerm (negated : Bool) (taken : List ClassItem × List Symbol) : Term × List Symbol :=
  match taken.1 with
  | [.char code] => if negated then (.set true taken.1, taken.2) else (.char code, taken.2)
  | _ => (.set negated taken.1, taken.2)

theorem classTerm_rest (negated : Bool) (items : List ClassItem) :
    ∃ term, ∀ rest, classTerm negated (items, rest) = (term, rest) := by
  simp only [classTerm]
  split
  · cases negated with
    | false => exact ⟨_, fun _ => rfl⟩
    | true => exact ⟨_, fun _ => rfl⟩
  · exact ⟨_, fun _ => rfl⟩

theorem bracketed_eq (s : List Symbol) :
    bracketed s =
      if s.head? = some (.plain '^') then
        (classItems (s.length + 1) true s.tail).map (classTerm true)
      else (classItems (s.length + 1) true s).map (classTerm false) := by
  rw [bracketed.eq_def]
  split
  next sign negated body found =>
    split at found
    · cases found
      rfl
    · next other =>
        cases found
        rw [if_neg]
        · rfl
        · intro head
          obtain ⟨rest, same⟩ := List.head?_eq_some_iff.1 head
          exact other rest same

theorem bracketed_stopsAtBar : StopsAtBar bracketed := by
  have items_stop {negated : Bool} {body rest : List Symbol} {term : Term} {fuel more : Nat}
      (h : (classItems fuel true body).map (classTerm negated) = .ok (term, rest))
      (enough : fuel ≤ more) :
      Skips body rest ∧ ∀ tail,
        (classItems more true (barred body tail)).map (classTerm negated) =
          .ok (term, barred rest tail) := by
    obtain ⟨⟨items, left⟩, done, same⟩ := map_eq_ok_iff.1 h
    obtain ⟨made, shape⟩ := classTerm_rest negated items
    rw [shape] at same
    cases same
    obtain ⟨inside, behind⟩ := classItems_more done (more - fuel)
    rw [Nat.add_sub_cancel' enough] at behind
    refine ⟨inside, fun tail => ?_⟩
    rw [behind, Except.map, shape]
  intro s term rest h
  rw [bracketed_eq] at h
  split at h
  · next head =>
      obtain ⟨body, rfl⟩ := List.head?_eq_some_iff.1 head
      refine ⟨(items_stop h (Nat.le_refl _)).1.plain '^', fun tail => ?_⟩
      rw [bracketed_eq, barred_cons, List.head?_cons, if_pos rfl]
      exact (items_stop h (by simp [barred])).2 tail
  · next head =>
      refine ⟨(items_stop h (Nat.le_refl _)).1, fun tail => ?_⟩
      rw [bracketed_eq, if_neg]
      · exact (items_stop h (by simp [barred])).2 tail
      · cases s with
        | nil => simp
        | cons symbol more => exact head

/-! ## Repetitions -/

theorem takeRun_all_barred {p : Char → Bool} (bar : p '|' = false) (s tail : List Symbol) :
    takeRun p (barred s tail).length (barred s tail) =
      ((takeRun p s.length s).1, barred (takeRun p s.length s).2 tail) := by
  have enough : s.length ≤ (barred s tail).length := by simp [barred]
  rw [takeRun_barred bar, takeRun_enough p _ s enough]

/-- What the braces of a repetition hold, behind the first count. -/
def boundsAfter (low : List Char) (afterLow : List Symbol) : List Char × List Symbol :=
  match afterLow with
  | .plain ',' :: more => takeRun Char.isDigit more.length more
  | _ => (low, afterLow)

theorem boundsAfter_barred (low : List Char) (s tail : List Symbol) :
    boundsAfter low (barred s tail) =
      ((boundsAfter low s).1, barred (boundsAfter low s).2 tail) := by
  have digit : Char.isDigit '|' = false := rfl
  match s with
  | [] => rfl
  | .dangling :: more => rfl
  | .escaped c :: more => rfl
  | .plain c :: more =>
      by_cases comma : c = ','
      · subst comma
        exact takeRun_all_barred digit more tail
      · simp [boundsAfter, comma]

theorem boundsAfter_skips (low : List Char) (s : List Symbol) : Skips s (boundsAfter low s).2 := by
  unfold boundsAfter
  split
  · exact (takeRun_skips _ _ _).plain ','
  · exact .refl _

/-- The bounds that two counts spell, with the symbols behind the braces. -/
def boundsRead (low high : List Char) (after : List Symbol) :
    Except ReadError (Nat × Option Nat × List Symbol) :=
  if after.head? = some .dangling then .error .malformed
  else
    match count low, count high with
    | .error e, _ => .error e
    | _, .error e => .error e
    | .ok least, .ok most =>
        match most with
        | some m => if m < least.getD 0 then .error .malformed else .ok (least.getD 0, most, after)
        | none => .ok (least.getD 0, none, after)

theorem boundsRead_barred (low high : List Char) (s tail : List Symbol) :
    boundsRead low high (barred s tail) =
      (boundsRead low high s).map fun b => (b.1, b.2.1, barred b.2.2 tail) := by
  have sameHead : (barred s tail).head? = some .dangling ↔ s.head? = some .dangling := by
    cases s <;> simp
  simp only [boundsRead, sameHead]
  repeat' split
  all_goals rfl

theorem boundsRead_rest {low high : List Char} {s rest : List Symbol} {least : Nat}
    {most : Option Nat} (h : boundsRead low high s = .ok (least, most, rest)) : rest = s := by
  rw [boundsRead] at h
  repeat' split at h
  all_goals cases h
  all_goals rfl

theorem bounds?_eq (s : List Symbol) :
    bounds? s =
      if s.head? = some (.plain '}') then none
      else
        let (low, afterLow) := takeRun Char.isDigit s.length s
        let (high, rest) := boundsAfter low afterLow
        match rest with
        | .plain '}' :: after => some (boundsRead low high after)
        | _ => none := rfl

theorem bounds?_barred (s tail : List Symbol) :
    bounds? (barred s tail) =
      (bounds? s).map fun r => r.map fun b => (b.1, b.2.1, barred b.2.2 tail) := by
  have digit : Char.isDigit '|' = false := rfl
  have sameHead : (barred s tail).head? = some (.plain '}') ↔ s.head? = some (.plain '}') := by
    cases s <;> simp
  simp only [bounds?_eq, sameHead, takeRun_all_barred digit, boundsAfter_barred]
  split
  · rfl
  · rcases takeRun Char.isDigit s.length s with ⟨low, afterLow⟩
    match (boundsAfter low afterLow).2 with
    | [] => rfl
    | .dangling :: more => rfl
    | .escaped c :: more => rfl
    | .plain c :: more =>
        by_cases brace : c = '}'
        · subst brace
          exact congrArg some (boundsRead_barred _ _ more tail)
        · simp [brace]

theorem bounds?_skips {s rest : List Symbol} {least : Nat} {most : Option Nat}
    (h : bounds? s = some (.ok (least, most, rest))) : Skips s rest := by
  have first := takeRun_skips Char.isDigit s.length s
  have second := boundsAfter_skips (takeRun Char.isDigit s.length s).1
    (takeRun Char.isDigit s.length s).2
  simp only [bounds?_eq] at h
  split at h
  · cases h
  · split at h
    · next after found =>
        rw [found] at second
        obtain rfl := boundsRead_rest (Option.some.inj h)
        exact first.trans (second.trans ((Skips.refl _).plain '}'))
    · cases h

/-- How a repetition goes about, by the sign behind it. -/
def takeGreed (s : List Symbol) : Greed × List Symbol :=
  match s with
  | .plain '?' :: more => (.reluctant, more)
  | .plain '+' :: more => (.possessive, more)
  | _ => (.greedy, s)

theorem takeGreed_barred (s tail : List Symbol) :
    takeGreed (barred s tail) = ((takeGreed s).1, barred (takeGreed s).2 tail) := by
  match s with
  | [] => rfl
  | .dangling :: more => rfl
  | .escaped c :: more => rfl
  | .plain c :: more =>
      by_cases reluctant : c = '?'
      · subst reluctant
        rfl
      · by_cases possessive : c = '+'
        · subst possessive
          rfl
        · simp [takeGreed, reluctant, possessive]

theorem takeGreed_skips (s : List Symbol) : Skips s (takeGreed s).2 := by
  unfold takeGreed
  split
  · exact (Skips.refl _).plain '?'
  · exact (Skips.refl _).plain '+'
  · exact .refl _

/-- Terms, latest first, after the latest one has been repeated. -/
def repeatLatest (greed : Greed) (least : Nat) (most : Option Nat) :
    List Term → Except ReadError (List Term)
  | [] => .error .malformed
  | .anchor _ :: _ => .error .malformed
  | .repetition _ _ _ _ :: _ => .error .malformed
  | body :: terms => .ok (.repetition greed least most body :: terms)

theorem applyRepetition_eq (s : State) (least : Nat) (most : Option Nat) (rest : List Symbol) :
    applyRepetition s least most rest =
      (repeatLatest (takeGreed rest).1 least most s.top.terms).map fun terms =>
        ({ s with top := { s.top with terms := terms } }, (takeGreed rest).2) := by
  rw [applyRepetition.eq_def]
  rcases s.top.terms with _ | ⟨body, terms⟩
  · rfl
  · cases body <;> dsimp only <;> rfl

end RouteContract.Pattern.Reader

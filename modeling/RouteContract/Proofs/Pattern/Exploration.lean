import Mathlib
import RouteContract.Pattern.Matcher

/-!
# The cursors that a matcher tries

A matcher hands one cursor after another to its continuation until the continuation succeeds. For a
term that commits to nothing, which cursors these are does not depend on the continuation, nor on
the order in which they come: such a term explores a relation between cursors (`Explores`). Then a
match ends at a cursor that the relation leads to, and where the continuation succeeds for one of
these cursors there is a match.

Letters, groups, terms in a row and repetitions are explored as what they take of the text says.
-/

set_option autoImplicit false

namespace RouteContract.Pattern

/-- A matcher tries the cursors that a relation leads to, and no others. -/
structure Explores (m : Matching) (R : Cursor → Cursor → Prop) : Prop where
  sound {c r : Cursor} {k : Continuation} : m c k = some r → ∃ c', R c c' ∧ k c' = some r
  complete {c c' : Cursor} {k : Continuation} : R c c' → (k c').isSome → (m c k).isSome

namespace Explores

variable {m m' : Matching} {R R' : Cursor → Cursor → Prop}

theorem congr (h : Explores m R) (same : ∀ c c', R c c' ↔ R' c c') : Explores m R' where
  sound matched := by
    obtain ⟨c', leads, found⟩ := h.sound matched
    exact ⟨c', (same ..).1 leads, found⟩
  complete leads := h.complete ((same ..).2 leads)

/-- Nothing is left to match. -/
theorem done : Explores (fun c k => k c) Eq where
  sound matched := ⟨_, rfl, matched⟩
  complete leads found := leads ▸ found

/-- One after the other. -/
theorem comp (first : Explores m R) (second : Explores m' R') :
    Explores (fun c k => m c fun next => m' next k) (Relation.Comp R R') where
  sound matched := by
    obtain ⟨n, leads, matched⟩ := first.sound matched
    obtain ⟨c', leads', found⟩ := second.sound matched
    exact ⟨c', ⟨n, leads, leads'⟩, found⟩
  complete := by
    rintro c c' k ⟨n, leads, leads'⟩ found
    exact first.complete leads (second.complete leads' found)

/-- A condition on the cursor. -/
theorem guard (holds : Cursor → Bool) :
    Explores (fun c k => if holds c then k c else none) fun c c' => holds c = true ∧ c = c' where
  sound {c r k} matched := by
    by_cases held : holds c = true
    · rw [if_pos held] at matched
      exact ⟨c, ⟨held, rfl⟩, matched⟩
    · rw [if_neg held] at matched
      cases matched
  complete := by
    rintro c _ k ⟨held, rfl⟩ found
    rwa [if_pos held]

/-- A group around what is matched. -/
theorem capture (h : Explores m R) (index : Nat) :
    Explores (fun c k => m (c.enter index) fun next => k (next.leave index))
      fun c c' => ∃ n, R (c.enter index) n ∧ n.leave index = c' where
  sound matched := by
    obtain ⟨n, leads, found⟩ := h.sound matched
    exact ⟨n.leave index, ⟨n, leads, rfl⟩, found⟩
  complete := by
    rintro c _ k ⟨n, leads, rfl⟩ found
    exact h.complete leads found

/-! ## Repetition -/

theorem repeatGreedily_zero (m : Matching) (c : Cursor) (k : Continuation) :
    repeatGreedily m (some 0) c k = k c := by
  rw [repeatGreedily]
  rfl

theorem repeatGreedily_one (m : Matching) (c : Cursor) (k : Continuation) :
    repeatGreedily m (some 1) c k = (m c k).or (k c) := by
  have once : (fun next : Cursor =>
      if _h : next.rest.length < c.rest.length then repeatGreedily m (oneLess (some 1)) next k
      else k next) = k := by
    funext next
    split
    · exact repeatGreedily_zero m next k
    · rfl
  rw [repeatGreedily, if_neg (by simp), once]
  cases m c k <;> rfl

/-- At most one round, if possible. -/
theorem optional (h : Explores m R) :
    Explores (repeatGreedily m (some 1)) fun c c' => c = c' ∨ R c c' where
  sound {c r k} matched := by
    rw [repeatGreedily_one, Option.or_eq_some_iff] at matched
    rcases matched with matched | ⟨-, found⟩
    · obtain ⟨c', leads, found⟩ := h.sound matched
      exact ⟨c', .inr leads, found⟩
    · exact ⟨c, .inl rfl, found⟩
  complete {c c' k} leads found := by
    rw [repeatGreedily_one, Option.isSome_or, Bool.or_eq_true]
    rcases leads with rfl | leads
    · exact .inr found
    · exact .inl (h.complete leads found)

/-- As many rounds as possible are tried first, and fewer where the continuation fails. A round that
takes something is followed by others. -/
theorem repeatGreedily_of_progress (h : Explores m R)
    (progress : ∀ c c', R c c' → c'.rest.length < c.rest.length) :
    Explores (repeatGreedily m none) (Relation.ReflTransGen R) where
  sound {c r k} matched := by
    induction left : c.rest.length using Nat.strong_induction_on generalizing c with
    | _ length ih =>
        rw [repeatGreedily, if_neg (by simp)] at matched
        split at matched
        · next found further =>
            cases matched
            obtain ⟨n, round, further⟩ := h.sound further
            have less := progress c n round
            rw [dif_pos less] at further
            obtain ⟨c', rounds, found⟩ := ih _ (left ▸ less) further rfl
            exact ⟨c', .head round rounds, found⟩
        · exact ⟨c, .refl, matched⟩
  complete {c c' k} leads found := by
    induction leads using Relation.ReflTransGen.head_induction_on with
    | refl =>
        rw [repeatGreedily]
        split
        · rfl
        · exact found
    | @head c n round _ ih =>
        rw [repeatGreedily, if_neg (by simp)]
        have further : (m c fun next =>
            if _h : next.rest.length < c.rest.length then repeatGreedily m (oneLess none) next k
            else k next).isSome := by
          refine h.complete round ?_
          rw [dif_pos (progress _ _ round)]
          exact ih
        split
        · rfl
        · next failed =>
            rw [failed] at further
            cases further

/-- A further round is tried where the continuation fails. A round that takes something is followed
by others. -/
theorem repeatReluctantly_of_progress (h : Explores m R)
    (progress : ∀ c c', R c c' → c'.rest.length < c.rest.length) :
    Explores (repeatReluctantly m none) (Relation.ReflTransGen R) where
  sound {c r k} matched := by
    induction left : c.rest.length using Nat.strong_induction_on generalizing c with
    | _ length ih =>
        rw [repeatReluctantly] at matched
        cases here : k c with
        | some found =>
            rw [here] at matched
            cases matched
            exact ⟨c, .refl, here⟩
        | none =>
            rw [here] at matched
            obtain ⟨n, round, matched⟩ := h.sound matched
            have less := progress c n round
            rw [dif_pos less] at matched
            obtain ⟨c', rounds, found⟩ := ih _ (left ▸ less) matched rfl
            exact ⟨c', .head round rounds, found⟩
  complete {c c' k} leads found := by
    induction leads using Relation.ReflTransGen.head_induction_on with
    | refl =>
        rw [repeatReluctantly]
        cases here : k c' with
        | some r => rfl
        | none =>
            rw [here] at found
            cases found
    | head round _ ih =>
        rw [repeatReluctantly]
        split
        · rfl
        · rw [if_neg (by simp)]
          refine h.complete round ?_
          rw [dif_pos (progress _ _ round)]
          exact ih

end Explores

/-! ## Texts that are taken -/

/-- A cursor is behind another one, with a text between them in which no group begins or ends. -/
structure Cursor.Passes (c : Cursor) (x : List Char) (c' : Cursor) : Prop where
  rest : c.rest = x ++ c'.rest
  passed : c'.passed = x.reverse ++ c.passed
  starts : c'.starts = c.starts
  ends : c'.ends = c.ends

namespace Cursor

variable {c n c' : Cursor} {x y : List Char} {d : Char}

theorem passes_nil : c.Passes [] c' ↔ c = c' := by
  constructor
  · rintro ⟨rest, passed, starts, ends⟩
    cases c
    cases c'
    simp_all
  · rintro rfl
    exact ⟨rfl, rfl, rfl, rfl⟩

theorem passes_append : c.Passes (x ++ y) c' ↔ ∃ n, c.Passes x n ∧ n.Passes y c' := by
  constructor
  · rintro ⟨rest, passed, starts, ends⟩
    rw [List.append_assoc] at rest
    rw [List.reverse_append, List.append_assoc] at passed
    exact ⟨{ c with passed := x.reverse ++ c.passed, rest := y ++ c'.rest },
      ⟨rest, rfl, rfl, rfl⟩, ⟨rfl, passed, starts, ends⟩⟩
  · rintro ⟨n, first, second⟩
    refine ⟨?_, ?_, second.starts.trans first.starts, second.ends.trans first.ends⟩
    · rw [first.rest, second.rest, List.append_assoc]
    · rw [second.passed, first.passed, List.reverse_append, List.append_assoc]

/-- There is a cursor behind every text that comes next. -/
theorem exists_passes {rest : List Char} (before : c.rest = x ++ rest) :
    ∃ c', c.Passes x c' ∧ c'.rest = rest :=
  ⟨{ c with passed := x.reverse ++ c.passed, rest := rest }, ⟨before, rfl, rfl, rfl⟩, rfl⟩

end Cursor

/-- A text with a property is taken. -/
def Takes (P : List Char → Prop) (c c' : Cursor) : Prop := ∃ x, P x ∧ c.Passes x c'

section Takes

variable {P Q : List Char → Prop} {c c' : Cursor}

theorem takes_comp :
    Relation.Comp (Takes P) (Takes Q) c c' ↔
      Takes (fun z => ∃ x y, P x ∧ Q y ∧ z = x ++ y) c c' := by
  constructor
  · rintro ⟨n, ⟨x, hx, first⟩, ⟨y, hy, second⟩⟩
    exact ⟨x ++ y, ⟨x, y, hx, hy, rfl⟩, Cursor.passes_append.2 ⟨n, first, second⟩⟩
  · rintro ⟨_, ⟨x, y, hx, hy, rfl⟩, passes⟩
    obtain ⟨n, first, second⟩ := Cursor.passes_append.1 passes
    exact ⟨n, ⟨x, hx, first⟩, ⟨y, hy, second⟩⟩

theorem explores_matchOne (p : Char → Bool) :
    Explores (matchOne p) (Takes fun x => ∃ d, p d = true ∧ x = [d]) where
  sound {c r k} matched := by
    rw [matchOne] at matched
    cases rest : c.rest with
    | nil =>
        rw [rest] at matched
        cases matched
    | cons d more =>
        rw [rest] at matched
        by_cases holds : p d = true
        · simp only [holds, if_true] at matched
          exact ⟨{ c with passed := d :: c.passed, rest := more },
            ⟨[d], ⟨d, holds, rfl⟩, ⟨rest, rfl, rfl, rfl⟩⟩, matched⟩
        · simp only [holds] at matched
          cases matched
  complete := by
    rintro c c' k ⟨_, ⟨d, holds, rfl⟩, ⟨rest, passed, starts, ends⟩⟩ found
    have same : ({ c with passed := d :: c.passed, rest := c'.rest } : Cursor) = c' := by
      cases c'
      simp_all
    rw [matchOne]
    simp only [rest, List.singleton_append, holds, if_true, same]
    exact found

/-- A letter is some progress. -/
theorem length_lt_of_takes_one {p : Char → Bool}
    (takes : Takes (fun x => ∃ d, p d = true ∧ x = [d]) c c') : c'.rest.length < c.rest.length := by
  obtain ⟨_, ⟨d, -, rfl⟩, passes⟩ := takes
  rw [passes.rest]
  exact Nat.lt_succ_self _

/-- Any number of letters. -/
theorem reflTransGen_takes_one {p : Char → Bool} :
    Relation.ReflTransGen (Takes fun x => ∃ d, p d = true ∧ x = [d]) c c' ↔
      Takes (fun x => ∀ d ∈ x, p d = true) c c' := by
  constructor
  · intro rounds
    induction rounds using Relation.ReflTransGen.head_induction_on with
    | refl => exact ⟨[], nofun, Cursor.passes_nil.2 rfl⟩
    | head round _ ih =>
        obtain ⟨_, ⟨d, holds, rfl⟩, first⟩ := round
        obtain ⟨x, all, second⟩ := ih
        exact ⟨[d] ++ x, List.forall_mem_cons.2 ⟨holds, all⟩,
          Cursor.passes_append.2 ⟨_, first, second⟩⟩
  · rintro ⟨x, all, passes⟩
    induction x generalizing c with
    | nil => rw [Cursor.passes_nil.1 passes]
    | cons d x ih =>
        obtain ⟨holds, all⟩ := List.forall_mem_cons.1 all
        obtain ⟨n, first, second⟩ := Cursor.passes_append (x := [d]).1 passes
        exact .head ⟨[d], ⟨d, holds, rfl⟩, first⟩ (ih all second)

/-- One letter at least, and further ones as they are needed. -/
theorem explores_oneOrMore (p : Char → Bool) :
    Explores (repeatBody .reluctant 1 none (matchOne p))
      (Takes fun x => x ≠ [] ∧ ∀ d ∈ x, p d = true) := by
  have letter := explores_matchOne p
  have more := (letter.repeatReluctantly_of_progress fun _ _ => length_lt_of_takes_one).congr
    fun _ _ => reflTransGen_takes_one
  refine (letter.comp more).congr fun c c' => takes_comp.trans ⟨?_, ?_⟩
  · rintro ⟨_, ⟨_, x, ⟨d, first, rfl⟩, more, rfl⟩, passes⟩
    exact ⟨_, ⟨List.cons_ne_nil d x, List.forall_mem_cons.2 ⟨first, more⟩⟩, passes⟩
  · rintro ⟨x, ⟨some, all⟩, passes⟩
    obtain ⟨d, x, rfl⟩ := List.exists_cons_of_ne_nil some
    obtain ⟨first, more⟩ := List.forall_mem_cons.1 all
    exact ⟨_, ⟨[d], x, ⟨d, first, rfl⟩, more, rfl⟩, passes⟩

/-- Any number of letters, as many as possible first. -/
theorem explores_zeroOrMore (p : Char → Bool) :
    Explores (repeatBody .greedy 0 none (matchOne p)) (Takes fun x => ∀ d ∈ x, p d = true) :=
  ((explores_matchOne p).repeatGreedily_of_progress fun _ _ => length_lt_of_takes_one).congr
    fun _ _ => reflTransGen_takes_one

/-! ## Terms -/

theorem runSequence_append (flags : Flags) (a b : List Term) (c : Cursor) (k : Continuation) :
    runSequence flags (a ++ b) c k =
      runSequence flags a c fun next => runSequence flags b next k := by
  induction a generalizing c with
  | nil =>
      rw [List.nil_append, runSequence]
  | cons term a ih =>
      rw [List.cons_append, runSequence, runSequence]
      congr 1
      funext next
      exact ih next

/-- Terms behind other terms. -/
theorem explores_append {flags : Flags} {a b : List Term} {R R' : Cursor → Cursor → Prop}
    (first : Explores (runSequence flags a) R) (second : Explores (runSequence flags b) R') :
    Explores (runSequence flags (a ++ b)) (Relation.Comp R R') := by
  have same : runSequence flags (a ++ b) =
      fun c k => runSequence flags a c fun next => runSequence flags b next k := by
    funext c k
    exact runSequence_append flags a b c k
  rw [same]
  exact first.comp second

end Takes

end RouteContract.Pattern

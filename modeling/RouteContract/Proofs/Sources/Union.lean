import Mathlib.Data.List.Forall2
import RouteContract.Proofs.Sources.Fields
import RouteContract.Sources.Evaluation

/-!
# Unions of terms

A union is put together from the members of its parts, without repetitions. What it is a union of does
not depend on the order in which this is done, and the type of null is told apart from all other
members: leaving it out before or after comes to the same (`solid_joined`). Every term that a hint
means or is resolved to is well formed in this respect: its members are no unions, none of them is
there twice, and a union has at least two (`IsProper`).
-/

set_option autoImplicit false

namespace RouteContract.Sources

open RouteContract

namespace Term

/-! ## Members -/

/-- Whether a term is a union. -/
def isUnion : Term → Bool
  | .union _ _ => true
  | _ => false

/-- Whether a term is a name in quotation marks that has not been looked at yet. -/
def isQuoted : Term → Bool
  | .quoted _ => true
  | _ => false

/-- The members of a term other than the type of null. -/
def solid (t : Term) : List Term := t.members.filter fun u => !u.isNothing

/-- Whether the type of null is a member of a term. -/
def admitsNothing (t : Term) : Bool := t.members.any isNothing

theorem members_of_not_isUnion {t : Term} (single : t.isUnion = false) : t.members = [t] := by
  cases t with
  | union => cases single
  | _ => rfl

theorem eq_nothing {t : Term} (h : t.isNothing = true) : t = .nothing := by
  cases t with
  | nothing => rfl
  | _ => cases h

theorem same_nothing : same .nothing = isNothing := by
  funext t
  cases t <;> simp only [same, isNothing]

/-- The type of null is the same as no other type. -/
theorem isNothing_of_same {t u : Term} (alike : same t u = true) (null : u.isNothing = true) :
    t.isNothing = true := by
  rw [eq_nothing null] at alike
  cases t with
  | nothing => rfl
  | _ => simp only [same, Bool.false_eq_true] at alike

/-! ## Without repetitions -/

/-- Terms with one more, if it is not among them. -/
def insertNew (done : List Term) (t : Term) : List Term :=
  if done.any (same t) then done else done ++ [t]

theorem distinct_eq (ts : List Term) : distinct ts = ts.foldl insertNew [] := rfl

/-- No term is the same as one before it. -/
def IsDistinct (ts : List Term) : Prop := ts.Pairwise fun earlier later => same later earlier = false

theorem insertNew_of_new {done : List Term} {t : Term} (new : ∀ u ∈ done, same t u = false) :
    insertNew done t = done ++ [t] := by
  rw [insertNew, if_neg]
  intro found
  obtain ⟨u, listed, alike⟩ := List.any_eq_true.1 found
  rw [new u listed] at alike
  cases alike

theorem isDistinct_insertNew {done : List Term} (h : IsDistinct done) (t : Term) :
    IsDistinct (insertNew done t) := by
  rw [insertNew]
  split
  · exact h
  · next new =>
      apply List.pairwise_append.2
      refine ⟨h, List.pairwise_singleton _ t, ?_⟩
      intro u listed v only
      rw [List.mem_singleton.1 only]
      cases alike : same t u with
      | false => rfl
      | true => exact absurd (List.any_eq_true.2 ⟨u, listed, alike⟩) new

theorem isDistinct_distinct (ts : List Term) : IsDistinct (distinct ts) :=
  List.foldlRecOn (motive := IsDistinct) ts insertNew List.Pairwise.nil
    fun _ done t _ => isDistinct_insertNew done t

theorem foldl_insertNew_of_isDistinct {done ts : List Term} (h : IsDistinct (done ++ ts)) :
    ts.foldl insertNew done = done ++ ts := by
  induction ts generalizing done with
  | nil => rw [List.append_nil]; rfl
  | cons t ts ih =>
      have new : ∀ u ∈ done, same t u = false := by
        intro u listed
        exact (List.pairwise_append.1 h).2.2 u listed t (List.mem_cons_self ..)
      rw [List.foldl_cons, insertNew_of_new new, ih, List.append_assoc]
      · rfl
      · rw [List.append_assoc]
        exact h

/-- Terms without repetitions stay as they are. -/
theorem distinct_of_isDistinct {ts : List Term} (h : IsDistinct ts) : distinct ts = ts :=
  foldl_insertNew_of_isDistinct h

theorem mem_of_mem_distinct {ts : List Term} {t : Term} (listed : t ∈ distinct ts) : t ∈ ts := by
  have all : ∀ (done : List Term), t ∈ ts.foldl insertNew done → t ∈ done ∨ t ∈ ts := by
    clear listed
    induction ts with
    | nil => exact fun _ found => .inl found
    | cons u ts ih =>
        intro done found
        rcases ih _ found with before | later
        · rw [insertNew] at before
          split at before
          · exact .inl before
          · rcases List.mem_append.1 before with before | only
            · exact .inl before
            · rw [List.mem_singleton.1 only]
              exact .inr (List.mem_cons_self ..)
        · exact .inr (List.mem_cons_of_mem _ later)
  exact (all [] listed).resolve_left List.not_mem_nil

/-- Whether the type of null is there does not depend on repetitions. -/
theorem any_isNothing_distinct (ts : List Term) :
    (distinct ts).any isNothing = ts.any isNothing := by
  have all : ∀ (done : List Term),
      (ts.foldl insertNew done).any isNothing = (done.any isNothing || ts.any isNothing) := by
    induction ts with
    | nil =>
        intro done
        rw [List.any_nil, Bool.or_false]
        rfl
    | cons t ts ih =>
        intro done
        have step : (insertNew done t).any isNothing = (done.any isNothing || t.isNothing) := by
          rw [insertNew]
          split
          · next found =>
              cases null : t.isNothing with
              | false => rw [Bool.or_false]
              | true =>
                  rw [eq_nothing null, same_nothing] at found
                  rw [Bool.or_true, found]
          · rw [List.any_append, List.any_cons, List.any_nil, Bool.or_false]
        rw [List.foldl_cons, ih, step, List.any_cons, Bool.or_assoc]
  rw [distinct_eq, all, List.any_nil, Bool.false_or]

/-- **The type of null may be left out before or after repetitions are.** -/
theorem filter_distinct (ts : List Term) :
    (distinct ts).filter (fun u => !u.isNothing) = distinct (ts.filter fun u => !u.isNothing) := by
  have all : ∀ (done : List Term), (ts.foldl insertNew done).filter (fun u => !u.isNothing) =
      (ts.filter fun u => !u.isNothing).foldl insertNew (done.filter fun u => !u.isNothing) := by
    induction ts with
    | nil => exact fun _ => rfl
    | cons t ts ih =>
        intro done
        rw [List.foldl_cons, ih, List.filter_cons]
        cases null : t.isNothing with
        | true =>
            rw [insertNew]
            split
            · rfl
            · rw [List.filter_append, List.filter_cons_of_neg (by rw [null]; decide), List.filter_nil,
                List.append_nil]
              rfl
        | false =>
            have found : (done.filter fun u => !u.isNothing).any (same t) = done.any (same t) := by
              rw [List.any_filter]
              congr 1
              funext u
              cases alike : same t u with
              | false => rw [Bool.and_false]
              | true =>
                  cases other : u.isNothing with
                  | false => rfl
                  | true =>
                      rw [isNothing_of_same alike other] at null
                      cases null
            rw [if_pos (by rfl), List.foldl_cons, insertNew, insertNew, found]
            split
            · rfl
            · rw [List.filter_append, List.filter_cons_of_pos (by rw [null]; rfl), List.filter_nil]
  exact all []

/-! ## Well-formed terms -/

/-- The members of a term are no unions, none of them is there twice, and a union has several of them
and no name that has not been looked at. -/
structure IsProper (t : Term) : Prop where
  flat : ∀ u ∈ t.members, u.isUnion = false
  distinct : IsDistinct t.members
  several : t.isUnion = true → 2 ≤ t.members.length
  looked : t.isUnion = true → ∀ u ∈ t.members, u.isQuoted = false

theorem isProper_of_not_isUnion {t : Term} (single : t.isUnion = false) : t.IsProper := by
  have only := members_of_not_isUnion single
  refine ⟨?_, ?_, ?_, ?_⟩
  · rw [only]
    intro u listed
    rw [List.mem_singleton.1 listed]
    exact single
  · rw [only]
    exact List.pairwise_singleton _ t
  · intro union
    rw [single] at union
    cases union
  · intro union
    rw [single] at union
    cases union

theorem IsProper.members_ne_nil {t : Term} (proper : t.IsProper) : t.members ≠ [] := by
  cases union : t.isUnion with
  | false =>
      rw [members_of_not_isUnion union]
      exact List.cons_ne_nil t []
  | true =>
      intro none
      have several := proper.several union
      rw [none] at several
      exact absurd several (by decide)

theorem IsProper.distinct_solid {t : Term} (proper : t.IsProper) :
    Term.distinct t.solid = t.solid :=
  distinct_of_isDistinct (proper.distinct.filter _)

/-- **What terms are put together to.** -/
theorem joined_eq_ok {p : Bool} {ts : List Term} {t : Term} (proper : ∀ u ∈ ts, u.IsProper)
    (looked : ∀ u ∈ ts, u.isQuoted = false) (h : joined p ts = .ok t) :
    t.members = Term.distinct (ts.flatMap members) ∧ t.IsProper ∧ t.isQuoted = false := by
  have flat : ∀ u ∈ ts.flatMap members, u.isUnion = false ∧ u.isQuoted = false := by
    intro u listed
    obtain ⟨v, among, inside⟩ := List.mem_flatMap.1 listed
    refine ⟨(proper v among).flat u inside, ?_⟩
    cases union : v.isUnion with
    | true => exact (proper v among).looked union u inside
    | false =>
        rw [members_of_not_isUnion union] at inside
        rw [List.mem_singleton.1 inside]
        exact looked v among
  have listed : ∀ u ∈ Term.distinct (ts.flatMap members), u.isUnion = false ∧ u.isQuoted = false :=
    fun u among => flat u (mem_of_mem_distinct among)
  have apart := isDistinct_distinct (ts.flatMap members)
  rw [joined] at h
  generalize Term.distinct (ts.flatMap members) = ms at h listed apart ⊢
  rcases ms with _ | ⟨u, _ | ⟨v, more⟩⟩
  · cases h
  · cases h
    obtain ⟨single, seen⟩ := listed t (List.mem_singleton_self t)
    exact ⟨members_of_not_isUnion single, isProper_of_not_isUnion single, seen⟩
  · cases h
    refine ⟨rfl, ⟨?_, apart, ?_, ?_⟩, rfl⟩
    · exact fun u among => (listed u among).1
    · exact fun _ => Nat.le_add_left 2 more.length
    · exact fun _ u among => (listed u among).2

/-- Which members a union has beside the type of null, and whether it has that one. -/
theorem solid_joined {p : Bool} {ts : List Term} {t : Term} (proper : ∀ u ∈ ts, u.IsProper)
    (looked : ∀ u ∈ ts, u.isQuoted = false) (h : joined p ts = .ok t) :
    t.solid = Term.distinct (ts.flatMap solid) ∧ t.admitsNothing = ts.any admitsNothing := by
  have made := (joined_eq_ok proper looked h).1
  constructor
  · rw [solid, made, filter_distinct, List.filter_flatMap]
    rfl
  · rw [admitsNothing, made, any_isNothing_distinct, List.any_flatMap]
    rfl

/-! ## Terms as arguments -/

theorem argument_eq_ok {place : Option String} {allowsMarks : Bool} {t u : Term}
    (h : t.argument place allowsMarks = .ok u) : u = t.converted place := by
  rw [argument] at h
  split at h
  · next named =>
      split at h
      · cases h
      · cases h
        exact named.symm
  · next named =>
      split at h
      · cases h
      · cases h
        exact named.symm
  · cases h
    rfl

theorem converted_of_not_isQuoted {t : Term} (looked : t.isQuoted = false) (place : Option String) :
    t.converted place = t := by
  cases t with
  | quoted => cases looked
  | _ => rfl

theorem isQuoted_converted (t : Term) (place : Option String) :
    (t.converted place).isQuoted = false := by
  cases t <;> rfl

theorem isUnion_converted (t : Term) (place : Option String) :
    (t.converted place).isUnion = t.isUnion := by
  cases t <;> rfl

theorem IsProper.converted {t : Term} (proper : t.IsProper) (place : Option String) :
    (t.converted place).IsProper := by
  cases quoted : t.isQuoted with
  | false =>
      rw [converted_of_not_isQuoted quoted]
      exact proper
  | true =>
      apply isProper_of_not_isUnion
      rw [isUnion_converted]
      cases t with
      | quoted => rfl
      | _ => cases quoted

theorem mapM_argument_eq_ok {place : Option String} {allowsMarks : Bool} {ts us : List Term}
    (h : ts.mapM (argument place allowsMarks) = .ok us) : us = ts.map fun t => t.converted place := by
  induction ts generalizing us with
  | nil =>
      rw [List.mapM_nil] at h
      cases h
      rfl
  | cons t ts ih =>
      rw [List.mapM_cons] at h
      obtain ⟨u, first, h⟩ := bind_eq_ok_iff.1 h
      obtain ⟨us, rest, h⟩ := bind_eq_ok_iff.1 h
      cases h
      rw [List.map_cons, argument_eq_ok first, ih rest]

/-- What a union of terms is. -/
theorem unionOf_eq_ok {ts : List Term} {t : Term} (h : unionOf ts = .ok t) :
    joined false (ts.map fun u => u.converted none) = .ok t := by
  obtain ⟨us, each, h⟩ := bind_eq_ok_iff.1 h
  rw [← mapM_argument_eq_ok each]
  exact h

theorem isQuoted_of_isPlain {t : Term} (plain : t.isPlain = true) : t.isQuoted = false := by
  cases t with
  | quoted => cases plain
  | _ => rfl

/-- Two terms with a bar between them are the union of both. -/
theorem bar_eq_ok {t u v : Term} (h : bar t u = .ok v) :
    ∃ p, joined p [t.converted none, u.converted none] = .ok v := by
  rw [bar] at h
  split at h
  · exact ⟨false, unionOf_eq_ok h⟩
  · split at h
    · next plain =>
        simp only [Bool.and_eq_true] at plain
        rw [converted_of_not_isQuoted (isQuoted_of_isPlain plain.1.1),
          converted_of_not_isQuoted (isQuoted_of_isPlain plain.1.2)]
        exact ⟨true, h⟩
    · cases h

end Term

/-! ## What hints mean -/

open Term

/-- All names of a scope stand for well-formed terms. -/
def Scope.IsProper (s : Scope) : Prop := ∀ e ∈ s.names, e.2.IsProper

section Meaning

variable {s : Scope}

theorem Scope.IsProper.lookup (proper : s.IsProper) {name : String} {t : Term}
    (h : s.lookup name = .ok t) : t.IsProper := by
  rw [Scope.lookup] at h
  split at h
  · next u found =>
      cases h
      rw [Scope.lookup?] at found
      split at found
      · next named =>
          cases found
          exact proper _ (Table.mem_of_get? named)
      · split at found
        · cases found
          exact isProper_of_not_isUnion rfl
        · split at found
          · cases found
            exact isProper_of_not_isUnion rfl
          · cases found
  · cases h

theorem unionOf_isProper {ts : List Term} {t : Term} (proper : ∀ u ∈ ts, u.IsProper)
    (h : unionOf ts = .ok t) : t.IsProper := by
  refine (joined_eq_ok ?_ ?_ (unionOf_eq_ok h)).2.1
  · intro u listed
    obtain ⟨v, among, rfl⟩ := List.mem_map.1 listed
    exact (proper v among).converted none
  · intro u listed
    obtain ⟨v, -, rfl⟩ := List.mem_map.1 listed
    exact isQuoted_converted v none

theorem bar_isProper {t u v : Term} (first : t.IsProper) (second : u.IsProper)
    (h : bar t u = .ok v) : v.IsProper := by
  obtain ⟨p, joins⟩ := bar_eq_ok h
  refine (joined_eq_ok ?_ ?_ joins).2.1
  · intro w listed
    rcases List.mem_pair.1 listed with rfl | rfl
    · exact first.converted none
    · exact second.converted none
  · intro w listed
    rcases List.mem_pair.1 listed with rfl | rfl
    · exact isQuoted_converted t none
    · exact isQuoted_converted u none

theorem foldlM_bar_isProper {ts : List Term} {t u : Term} (first : t.IsProper)
    (others : ∀ v ∈ ts, v.IsProper) (h : ts.foldlM bar t = .ok u) : u.IsProper := by
  induction ts generalizing t with
  | nil =>
      rw [List.foldlM_nil] at h
      cases h
      exact first
  | cons v ts ih =>
      rw [List.foldlM_cons] at h
      obtain ⟨w, both, h⟩ := bind_eq_ok_iff.1 h
      obtain ⟨second, rest⟩ := List.forall_mem_cons.1 others
      exact ih (bar_isProper first second both) rest h

theorem applyGeneral_isProper {name : String} {arguments : List Term} {t : Term}
    (proper : ∀ u ∈ arguments, u.IsProper) (h : applyGeneral name arguments = .ok t) :
    t.IsProper := by
  unfold applyGeneral at h
  split at h
  · exact unionOf_isProper proper h
  · split at h
    · split at h
      · next u =>
          refine unionOf_isProper ?_ h
          intro v listed
          rcases List.mem_pair.1 listed with rfl | rfl
          · exact proper v (List.mem_singleton_self v)
          · exact isProper_of_not_isUnion rfl
      · cases h
    · split at h
      · obtain ⟨us, -, h⟩ := bind_eq_ok_iff.1 h
        cases h
        exact isProper_of_not_isUnion rfl
      · split at h
        · cases h
        · cases h
        · cases h
          exact isProper_of_not_isUnion rfl

theorem isUnion_remark (t : Term) (remarks : List Json) : (t.remark remarks).isUnion = false := by
  cases t <;> rfl

mutual
/-- **Every hint means a well-formed term.** -/
theorem Hint.evaluate_isProper (proper : s.IsProper) (h : Hint) {t : Term}
    (meant : h.evaluate s = .ok t) : t.IsProper := by
  cases h with
  | nothing | quoted =>
      rw [Hint.evaluate] at meant
      cases meant
      exact isProper_of_not_isUnion rfl
  | named n =>
      rw [Hint.evaluate] at meant
      exact proper.lookup meant
  | applied n arguments =>
      rw [Hint.evaluate] at meant
      obtain ⟨head, -, meant⟩ := bind_eq_ok_iff.1 meant
      obtain ⟨us, each, meant⟩ := bind_eq_ok_iff.1 meant
      have parts := Hint.evaluateAll_isProper proper arguments each
      split at meant
      · exact applyGeneral_isProper parts meant
      · cases meant
  | union ms =>
      rw [Hint.evaluate] at meant
      obtain ⟨us, each, meant⟩ := bind_eq_ok_iff.1 meant
      exact unionOf_isProper (Hint.evaluateAll_isProper proper ms each) meant
  | either ms =>
      rw [Hint.evaluate] at meant
      obtain ⟨us, each, meant⟩ := bind_eq_ok_iff.1 meant
      have parts := Hint.evaluateAll_isProper proper ms each
      cases us with
      | nil => cases meant
      | cons u rest =>
          obtain ⟨first, others⟩ := List.forall_mem_cons.1 parts
          exact foldlM_bar_isProper first others meant
  | optional h =>
      rw [Hint.evaluate] at meant
      obtain ⟨u, inner, meant⟩ := bind_eq_ok_iff.1 meant
      refine unionOf_isProper ?_ meant
      intro v listed
      rcases List.mem_pair.1 listed with rfl | rfl
      · exact Hint.evaluate_isProper proper h inner
      · exact isProper_of_not_isUnion rfl
  | choice constants =>
      rw [Hint.evaluate] at meant
      obtain ⟨cs, -, meant⟩ := bind_eq_ok_iff.1 meant
      cases meant
      exact isProper_of_not_isUnion rfl
  | remarked h remarks =>
      rw [Hint.evaluate] at meant
      obtain ⟨u, -, meant⟩ := bind_eq_ok_iff.1 meant
      obtain ⟨v, -, meant⟩ := bind_eq_ok_iff.1 meant
      split at meant
      · cases meant
      · cases meant
        exact isProper_of_not_isUnion (isUnion_remark v remarks)
  | demanded isRequired h =>
      rw [Hint.evaluate] at meant
      obtain ⟨u, -, meant⟩ := bind_eq_ok_iff.1 meant
      obtain ⟨v, -, meant⟩ := bind_eq_ok_iff.1 meant
      cases meant
      exact isProper_of_not_isUnion rfl
  | request parts =>
      rw [Hint.evaluate] at meant
      obtain ⟨us, -, meant⟩ := bind_eq_ok_iff.1 meant
      split at meant
      · cases meant
        exact isProper_of_not_isUnion rfl
      · cases meant
  | callable parts =>
      rw [Hint.evaluate] at meant
      obtain ⟨us, -, meant⟩ := bind_eq_ok_iff.1 meant
      cases meant
      exact isProper_of_not_isUnion rfl

theorem Hint.evaluateAll_isProper (proper : s.IsProper) (hs : List Hint) {ts : List Term}
    (meant : Hint.evaluateAll s hs = .ok ts) : ∀ t ∈ ts, t.IsProper := by
  cases hs with
  | nil =>
      rw [Hint.evaluateAll] at meant
      cases meant
      exact List.forall_mem_nil _
  | cons h rest =>
      rw [Hint.evaluateAll] at meant
      obtain ⟨u, first, meant⟩ := bind_eq_ok_iff.1 meant
      obtain ⟨us, others, meant⟩ := bind_eq_ok_iff.1 meant
      cases meant
      exact List.forall_mem_cons.2
        ⟨Hint.evaluate_isProper proper h first, Hint.evaluateAll_isProper proper rest others⟩
end

end Meaning

/-! ## Resolution -/

section Resolution

variable {look : Term → String → Except SourceError Term}

theorem resolveAllBy_eq_ok {ts us : List Term} (h : Term.resolveAllBy look ts = .ok us) :
    List.Forall₂ (fun t u => Term.resolveBy look t = .ok u) ts us := by
  induction ts generalizing us with
  | nil =>
      rw [Term.resolveAllBy] at h
      cases h
      exact .nil
  | cons t ts ih =>
      rw [Term.resolveAllBy] at h
      obtain ⟨u, first, h⟩ := bind_eq_ok_iff.1 h
      obtain ⟨us, rest, h⟩ := bind_eq_ok_iff.1 h
      cases h
      exact .cons first (ih rest)

/-- A well-formed term in which no name is left to be looked at for the first time. -/
structure Term.IsResolved (t : Term) : Prop where
  proper : t.IsProper
  looked : t.isQuoted = false

theorem isResolved_of_not_isUnion {t : Term} (single : t.isUnion = false)
    (looked : t.isQuoted = false) : t.IsResolved := ⟨isProper_of_not_isUnion single, looked⟩

theorem isQuoted_remark (t : Term) (remarks : List Json) : (t.remark remarks).isQuoted = false := by
  cases t <;> rfl

/-- Names are resolved to well-formed terms. -/
def ResolvesNames (look : Term → String → Except SourceError Term) : Prop :=
  ∀ name place t, look (.reference name place) name = .ok t → t.IsResolved

theorem resolveBy_of_not_isUnion (names : ResolvesNames look) {t u : Term}
    (single : t.isUnion = false) (h : Term.resolveBy look t = .ok u) : u.IsResolved := by
  cases t with
  | union => cases single
  | quoted n =>
      rw [Term.resolveBy] at h
      exact names n none u h
  | reference n place =>
      rw [Term.resolveBy] at h
      exact names n place u h
  | applied name arguments =>
      rw [Term.resolveBy] at h
      obtain ⟨us, -, h⟩ := bind_eq_ok_iff.1 h
      cases h
      exact isResolved_of_not_isUnion rfl rfl
  | remarked base remarks =>
      rw [Term.resolveBy] at h
      obtain ⟨v, -, h⟩ := bind_eq_ok_iff.1 h
      cases h
      exact isResolved_of_not_isUnion (isUnion_remark v remarks) (isQuoted_remark v remarks)
  | demanded isRequired base =>
      rw [Term.resolveBy] at h
      obtain ⟨v, -, h⟩ := bind_eq_ok_iff.1 h
      cases h
      exact isResolved_of_not_isUnion rfl rfl
  | nothing | general | declared | dots | choice =>
      rw [Term.resolveBy] at h
      cases h
      exact isResolved_of_not_isUnion rfl rfl

/-- A union is resolved member by member. -/
theorem resolveBy_union (names : ResolvesNames look) {isPlain : Bool} {ms : List Term} {u : Term}
    (proper : (Term.union isPlain ms).IsProper)
    (h : Term.resolveBy look (.union isPlain ms) = .ok u) :
    ∃ us p, List.Forall₂ (fun t u => Term.resolveBy look t = .ok u) ms us ∧
      (∀ v ∈ us, v.IsResolved) ∧ joined p us = .ok u := by
  rw [Term.resolveBy] at h
  obtain ⟨us, each, h⟩ := bind_eq_ok_iff.1 h
  have related := resolveAllBy_eq_ok each
  have resolved : ∀ v ∈ us, v.IsResolved := by
    intro v listed
    obtain ⟨t, among, found⟩ := exists_mem_of_forall₂ related listed
    exact resolveBy_of_not_isUnion names (proper.flat t among) found
  cases isPlain with
  | true => exact ⟨us, true, related, resolved, h⟩
  | false =>
      have joins := unionOf_eq_ok h
      have same : (us.map fun v => v.converted none) = us :=
        (List.map_congr_left fun v listed =>
          converted_of_not_isQuoted (resolved v listed).looked none).trans (List.map_id' us)
      rw [same] at joins
      exact ⟨us, false, related, resolved, joins⟩

theorem resolveBy_isResolved (names : ResolvesNames look) {t u : Term} (proper : t.IsProper)
    (h : Term.resolveBy look t = .ok u) : u.IsResolved := by
  cases union : t.isUnion with
  | false => exact resolveBy_of_not_isUnion names union h
  | true =>
      cases t with
      | union isPlain ms =>
          obtain ⟨us, p, -, resolved, joins⟩ := resolveBy_union names proper h
          obtain ⟨-, whole, looked⟩ := joined_eq_ok (fun v listed => (resolved v listed).proper)
            (fun v listed => (resolved v listed).looked) joins
          exact ⟨whole, looked⟩
      | _ => cases union

theorem resolveName_resolvesNames {s : Scope} (proper : s.IsProper) (allowsMarks : Bool)
    (steps : Nat) (opened : List String) : ResolvesNames (s.resolveName allowsMarks steps opened) := by
  induction steps generalizing allowsMarks opened with
  | zero =>
      intro name place t h
      rw [Scope.resolveName] at h
      cases h
      exact isResolved_of_not_isUnion rfl rfl
  | succ steps ih =>
      intro name place t h
      rw [Scope.resolveName] at h
      split at h
      · cases h
        exact isResolved_of_not_isUnion rfl rfl
      · obtain ⟨u, found, h⟩ := bind_eq_ok_iff.1 h
        obtain ⟨v, fit, h⟩ := bind_eq_ok_iff.1 h
        have whole : v.IsProper := by
          rw [argument_eq_ok fit]
          exact (proper.lookup found).converted none
        exact resolveBy_isResolved (ih false (name :: opened)) whole h

/-- **Every term is resolved to a well-formed one.** -/
theorem Scope.IsProper.resolve {s : Scope} (proper : s.IsProper) {allowsMarks : Bool} {t u : Term}
    (whole : t.IsProper) (h : s.resolve allowsMarks t = .ok u) : u.IsResolved :=
  resolveBy_isResolved (resolveName_resolvesNames proper allowsMarks _ _) whole h

end Resolution

end RouteContract.Sources

import Mathlib.Logic.Basic
import RouteContract.Proofs.Schema.Dispatch

/-!
# Verdicts

An evaluation has a fault, or it finds violations, or it finds none. What a schema means is said
with two conditions: when its evaluation is stuck, and, when it is not, which values it finds
nothing wrong with (`Decides`). The conditions of a list of evaluations come from those of its
members, whether all of them count (`decides_collect`) or the first that finds nothing
(`decides_firstClean`). A refusal gets stuck by itself where its message is to show what has no
text (`decides_refuteUnless`).
-/

set_option autoImplicit false

namespace RouteContract.Schema

variable {α β γ : Type} {stuck holds : Prop}

/-- An evaluation has a fault exactly when it is stuck, and otherwise finds nothing exactly when a
condition holds. -/
def Decides (stuck holds : Prop) : Except Fault (List β) → Prop
  | .error _ => stuck
  | .ok found => ¬ stuck ∧ (found = [] ↔ holds)

namespace Decides

theorem of_error {e : Fault} (h : stuck) : Decides (β := β) stuck holds (.error e) := h

theorem of_ok {found : List β} (free : ¬ stuck) (h : found = [] ↔ holds) :
    Decides stuck holds (.ok found) := ⟨free, h⟩

theorem congr {stuck' holds' : Prop} {result : Except Fault (List β)}
    (h : Decides stuck holds result) (same : stuck ↔ stuck')
    (means : ¬ stuck → (holds ↔ holds')) : Decides stuck' holds' result := by
  cases result with
  | error e => exact same.1 h
  | ok found => exact ⟨fun s => h.1 (same.2 s), h.2.trans (means h.1)⟩

/-- What is found may be written down in another way. -/
theorem map {result : Except Fault (List β)} (h : Decides stuck holds result)
    {f : List β → List γ} (same : ∀ found, f found = [] ↔ found = []) :
    Decides stuck holds (result.map f) := by
  cases result with
  | error e => exact h
  | ok found => exact ⟨h.1, (same found).trans h.2⟩

/-- One evaluation and then another one. -/
theorem append {stuckLater holdsLater : Prop} {first later : Except Fault (List β)}
    (h : Decides stuck holds first) (hLater : Decides stuckLater holdsLater later) :
    Decides (stuck ∨ stuckLater) (holds ∧ holdsLater)
      (first.bind fun found => later.map (found ++ ·)) := by
  cases first with
  | error e => exact .of_error (.inl h)
  | ok found =>
      cases later with
      | error e => exact .of_error (.inr hLater)
      | ok more =>
          refine .of_ok (not_or.2 ⟨h.1, hLater.1⟩) ?_
          rw [List.append_eq_nil_iff, h.2, hLater.2]

theorem error_iff {result : Except Fault (List β)} (h : Decides stuck holds result) :
    (∃ e, result = .error e) ↔ stuck := by
  cases result with
  | error e => exact ⟨fun _ => h, fun _ => ⟨e, rfl⟩⟩
  | ok found =>
      constructor
      · rintro ⟨e, impossible⟩
        exact nomatch impossible
      · intro isStuck
        exact absurd isStuck h.1

theorem completes_iff {result : Except Fault (List β)} (h : Decides stuck holds result) :
    (∃ found, result = .ok found) ↔ ¬ stuck := by
  cases result with
  | error e => exact iff_of_false nofun (not_not_intro h)
  | ok found => exact iff_of_true ⟨found, rfl⟩ h.1

/-- Where an evaluation that is stuck is about a value that is refused, what it finds nothing wrong
with is what is meant. -/
theorem nil_iff {result : Except Fault (List β)} (h : Decides stuck holds result)
    (refuses : stuck → ¬ holds) : result = .ok [] ↔ holds := by
  cases result with
  | error e => exact iff_of_false nofun (refuses h)
  | ok found => rw [Except.ok.injEq, h.2]

theorem holds_of_nil {result : Except Fault (List β)} (h : Decides stuck holds result)
    (nothing : result = .ok []) : holds := by
  rw [nothing] at h
  exact h.2.1 rfl

end Decides

/-- A single finding is stuck when something that it shows has no text. -/
theorem decides_refuteUnless (b : Bool) (shown : List Json) (finding : β) :
    Decides (b = false ∧ shown.all Json.isWritable = false) (b = true)
      (refuteUnless (.ok b) shown finding) := by
  cases result : refuteUnless (.ok b) shown finding with
  | error e =>
      refine .of_error (by_contra fun kept => ?_)
      have found : ∃ found, refuteUnless (.ok b) shown finding = .ok found := by
        simp only [refuteUnless_eq_ok_iff, Except.ok.injEq]
        cases b with
        | true => exact ⟨[], .inl ⟨rfl, rfl⟩⟩
        | false => exact ⟨[finding], .inr ⟨rfl, by simpa using kept, rfl⟩⟩
      rw [result] at found
      exact nomatch found
  | ok found =>
      simp only [refuteUnless_eq_ok_iff, Except.ok.injEq] at result
      rcases result with ⟨rfl, rfl⟩ | ⟨rfl, written, rfl⟩
      · exact .of_ok (by simp) (by simp)
      · exact .of_ok (by simp [written]) (by simp)

/-! ## Lists of evaluations -/

/-- What is found in a list is what is found in its first member and then what is found in the
others. -/
theorem collect_cons (f : α → Except Fault (List β)) (x : α) (rest : List α) :
    collect false f (x :: rest) =
      (f x).bind fun found => (collect false f rest).map (found ++ ·) := by
  rw [collect]
  cases f x with
  | error e => rfl
  | ok found =>
      cases found with
      | nil => cases collect false f rest <;> rfl
      | cons b bs => rfl

theorem decides_collect_nil {f : α → Except Fault (List β)} :
    Decides False True (collect false f []) :=
  .of_ok not_false (by simp)

theorem decides_collect_cons {f : α → Except Fault (List β)} {stuckLater holdsLater : Prop} {x : α}
    {rest : List α} (first : Decides stuck holds (f x))
    (later : Decides stuckLater holdsLater (collect false f rest)) :
    Decides (stuck ∨ stuckLater) (holds ∧ holdsLater) (collect false f (x :: rest)) :=
  collect_cons f x rest ▸ first.append later

/-- **All of a list**: it is stuck when one of its members is, and holds when all of them do. -/
theorem decides_collect {f : α → Except Fault (List β)} {stuck holds : α → Prop} {xs : List α}
    (each : ∀ x ∈ xs, Decides (stuck x) (holds x) (f x)) :
    Decides (∃ x ∈ xs, stuck x) (∀ x ∈ xs, holds x) (collect false f xs) := by
  induction xs with
  | nil => exact decides_collect_nil.congr (by simp) fun _ => by simp
  | cons x rest ih =>
      have first := each x (List.mem_cons_self ..)
      have later := ih fun y hy => each y (List.mem_cons_of_mem _ hy)
      refine (decides_collect_cons first later).congr ?_ fun _ => ?_
      · simp only [List.mem_cons, exists_eq_or_imp]
      · simp only [List.mem_cons, forall_eq_or_imp]

theorem decides_self (result : Except Fault (List β)) :
    Decides (∃ e, result = .error e) (result = .ok []) result := by
  cases result with
  | error e => exact .of_error ⟨e, rfl⟩
  | ok found => exact .of_ok (by simp) (by simp)

/-- A list of evaluations completes when each of them does. -/
theorem collect_completes_iff {f : α → Except Fault (List β)} {xs : List α} :
    (∃ found, collect false f xs = .ok found) ↔ ∀ x ∈ xs, ∃ found, f x = .ok found := by
  rw [(decides_collect fun x _ => decides_self (f x)).completes_iff]
  simp only [← (decides_self _).completes_iff, not_exists, not_and]

/-- Evaluations that decide the same decide the same together. -/
theorem Decides.collect_congr {f : α → Except Fault (List β)} {f' : α → Except Fault (List γ)}
    {xs : List α} (h : Decides stuck holds (collect false f xs))
    (same : ∀ x ∈ xs, ∀ stuck holds, Decides stuck holds (f x) → Decides stuck holds (f' x)) :
    Decides stuck holds (collect false f' xs) := by
  have before := decides_collect fun x (_ : x ∈ xs) => decides_self (f x)
  have after := decides_collect fun x hx => same x hx _ _ (decides_self (f x))
  refine after.congr (before.error_iff.symm.trans h.error_iff) fun free => ?_
  obtain ⟨found, done⟩ := before.completes_iff.2 free
  rw [done] at before h
  exact before.2.symm.trans h.2

/-- **One of a list**: it is stuck when a member is before which no other one holds, and holds when
one of them does. When none does, it is stuck if the refusal is. -/
theorem decides_firstClean {f : α → Except Fault (List β)} {stuck holds : Nat → Prop} {xs : List α}
    (each : ∀ (i : Nat) (x : α), xs[i]? = some x → Decides (stuck i) (holds i) (f x))
    (shown : List Json) (refusal : γ) :
    Decides
      ((∃ i < xs.length, stuck i ∧ ∀ j < i, ¬ holds j) ∨
        (¬ ∃ i < xs.length, holds i) ∧ shown.all Json.isWritable = false)
      (∃ i < xs.length, holds i)
      (refuteUnless ((firstClean f xs).map Option.isSome) shown refusal) := by
  induction xs generalizing stuck holds with
  | nil =>
      rw [firstClean]
      exact (decides_refuteUnless false shown refusal).congr (by simp) fun _ => by simp
  | cons x rest ih =>
      have first := each 0 x rfl
      simp only [List.length_cons, Nat.exists_lt_succ_left, Nat.forall_lt_succ_left]
      rw [firstClean]
      cases hx : f x with
      | error e =>
          rw [hx] at first
          exact .of_error (.inl (.inl ⟨first, fun j lt => absurd lt (Nat.not_lt_zero j)⟩))
      | ok found =>
          rw [hx] at first
          cases found with
          | nil =>
              have holdsFirst := first.2.1 rfl
              exact .of_ok (by simp [first.1, holdsFirst]) (by simp [holdsFirst])
          | cons b bs =>
              have failsFirst : ¬ holds 0 := fun h => nomatch first.2.2 h
              have later := ih fun i y hy => each (i + 1) y hy
              refine later.congr ?_ fun _ => by simp [failsFirst]
              simp [first.1, failsFirst]

/-! ## Lists that come from other lists -/

theorem collect_map {onlyFirst : Bool} (f : α → Except Fault (List β)) (g : γ → α) (xs : List γ) :
    collect onlyFirst f (xs.map g) = collect onlyFirst (fun x => f (g x)) xs := by
  induction xs with
  | nil => rfl
  | cons x rest ih =>
      rw [List.map_cons, collect, collect]
      split
      · rfl
      · exact ih
      · rw [ih]

/-- A function of the members of a list and their positions. -/
theorem collect_attach_zipIdx {onlyFirst : Bool} (f : α → Nat → Except Fault (List β))
    (xs : List α) :
    collect onlyFirst (fun x : { x // x ∈ xs } × Nat => f x.1.1 x.2) xs.attach.zipIdx =
      collect onlyFirst (fun x => f x.1 x.2) xs.zipIdx := by
  have positions : xs.attach.zipIdx.map (Prod.map Subtype.val id) = xs.zipIdx := by
    rw [← List.zipIdx_map, List.attach_map_subtype_val]
  rw [← positions, collect_map]
  rfl

/-- A function of the members of two lists and their positions. -/
theorem collect_attach_zip_zipIdx {onlyFirst : Bool} (f : α × γ → Nat → Except Fault (List β))
    (xs : List α) (ys : List γ) :
    collect onlyFirst
        (fun entry : ({ x // x ∈ xs } × { y // y ∈ ys }) × Nat =>
          f (entry.1.1.1, entry.1.2.1) entry.2)
        (xs.attach.zip ys.attach).zipIdx =
      collect onlyFirst (fun entry => f entry.1 entry.2) (xs.zip ys).zipIdx := by
  have positions : (xs.attach.zip ys.attach).zipIdx.map
      (Prod.map (Prod.map Subtype.val Subtype.val) id) = (xs.zip ys).zipIdx := by
    rw [← List.zipIdx_map, ← List.zip_map, List.attach_map_subtype_val, List.attach_map_subtype_val]
  rw [← positions, collect_map]
  rfl

/-- **All of a list, with positions.** -/
theorem decides_collect_zipIdx (f : α → Nat → Except Fault (List β)) (stuck holds : Nat → α → Prop)
    {xs : List α}
    (each : ∀ (i : Nat) (x : α), xs[i]? = some x → Decides (stuck i x) (holds i x) (f x i)) :
    Decides (∃ (i : Nat) (x : α), xs[i]? = some x ∧ stuck i x)
      (∀ (i : Nat) (x : α), xs[i]? = some x → holds i x)
      (collect false (fun x => f x.1 x.2) xs.zipIdx) := by
  have walk := decides_collect (f := fun x : α × Nat => f x.1 x.2) fun x hx =>
    each x.2 x.1 (List.mem_zipIdx_iff_getElem?.1 hx)
  refine walk.congr ?_ fun _ => ?_
  · simp only [Prod.exists, List.mem_zipIdx_iff_getElem?]
    exact exists_comm
  · simp only [Prod.forall, List.mem_zipIdx_iff_getElem?]
    exact forall_comm

theorem firstClean_map {δ : Type} (f : α → Except Fault (List β)) (g : γ → α) (xs : List γ)
    (h : Bool → δ) :
    (firstClean f (xs.map g)).map (fun found => h found.isSome) =
      (firstClean (fun x => f (g x)) xs).map (fun found => h found.isSome) := by
  induction xs with
  | nil => rfl
  | cons x rest ih =>
      rw [List.map_cons, firstClean, firstClean]
      split
      · rfl
      · rfl
      · exact ih

end RouteContract.Schema

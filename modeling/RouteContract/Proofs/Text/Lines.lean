import RouteContract.Text.Blank

/-!
# Lines and what is left of them

A text that is broken into lines can be put together again without the blanks around its breaks
(`stripped`). What this does to a text is told character by character: a character that is no blank
stays, and a run of blanks stays exactly when there is no break in it and something visible on both
sides of it in its line. The text from a place inside a line on keeps the blanks at its front
(`unbroken`).
-/

set_option autoImplicit false

namespace RouteContract.Text

variable {c : Char} {s t : List Char}

/-! ## Trimming -/

theorem isBlank_of_isLineBreak (h : isLineBreak c = true) : isBlank c = true := by
  simp only [isLineBreak, isBlank, Bool.or_eq_true, Bool.and_eq_true, decide_eq_true_eq,
    beq_iff_eq] at h ⊢
  omega

/-- A text without the blanks at its end. -/
def trimEnd (s : List Char) : List Char := dropRightWhile isBlank s

theorem trimEnd_nil : trimEnd [] = [] := rfl

theorem trimEnd_cons (c : Char) (s : List Char) :
    trimEnd (c :: s) = if isBlank c = true ∧ trimEnd s = [] then [] else c :: trimEnd s := by
  rw [trimEnd, trimEnd, dropRightWhile, dropRightWhile, List.reverse_cons, List.dropWhile_append]
  cases rest : s.reverse.dropWhile isBlank with
  | nil =>
      cases blank : isBlank c with
      | true => simp [List.dropWhile_cons_of_pos, blank]
      | false => simp [List.dropWhile_cons_of_neg, blank]
  | cons d more => simp

theorem trimEnd_cons_of_visible (visible : isBlank c = false) (s : List Char) :
    trimEnd (c :: s) = c :: trimEnd s := by
  rw [trimEnd_cons, if_neg]
  rintro ⟨blank, -⟩
  rw [visible] at blank
  cases blank

theorem trim_eq_trimEnd (s : List Char) : trim s = trimEnd (s.dropWhile isBlank) := rfl

theorem trim_cons_of_blank (blank : isBlank c = true) (s : List Char) : trim (c :: s) = trim s := by
  rw [trim_eq_trimEnd, List.dropWhile_cons_of_pos blank, trim_eq_trimEnd]

theorem trim_cons_of_visible (visible : isBlank c = false) (s : List Char) :
    trim (c :: s) = c :: trimEnd s := by
  rw [trim_eq_trimEnd, List.dropWhile_cons_of_neg (by rw [visible]; exact Bool.false_ne_true),
    trimEnd_cons_of_visible visible]

theorem trimEnd_cons_of_blank (blank : isBlank c = true) (none : trimEnd s = []) :
    trimEnd (c :: s) = [] := by
  rw [trimEnd_cons, if_pos ⟨blank, none⟩]

theorem trimEnd_cons_of_ne_nil (some : trimEnd s ≠ []) (c : Char) :
    trimEnd (c :: s) = c :: trimEnd s := by
  rw [trimEnd_cons, if_neg fun h => some h.2]

theorem trimEnd_trimEnd (s : List Char) : trimEnd (trimEnd s) = trimEnd s := by
  induction s with
  | nil => rfl
  | cons c s ih =>
      rw [trimEnd_cons c s]
      split
      · rfl
      · next shown =>
          rw [trimEnd_cons, ih, if_neg shown]

theorem trim_trimEnd (s : List Char) : trim (trimEnd s) = trim s := by
  induction s with
  | nil => rfl
  | cons c s ih =>
      cases blank : isBlank c with
      | true =>
          rw [trim_cons_of_blank blank, trimEnd_cons]
          split
          · next none => rw [← ih, none.2]
          · rw [trim_cons_of_blank blank, ih]
      | false =>
          rw [trimEnd_cons_of_visible blank, trim_cons_of_visible blank, trim_cons_of_visible blank,
            trimEnd_trimEnd]

theorem trimEnd_append_of_visible {p : List Char} (visible : ∀ c ∈ p, isBlank c = false)
    (s : List Char) : trimEnd (p ++ s) = p ++ trimEnd s := by
  induction p with
  | nil => rfl
  | cons c p ih =>
      rw [List.cons_append, trimEnd_cons_of_visible (visible c (List.mem_cons_self ..)),
        ih fun d listed => visible d (List.mem_cons_of_mem _ listed), List.cons_append]

/-- A text that ends visibly has nothing to be trimmed at its end. -/
theorem trimEnd_append_of_trimEnd {t : List Char} (whole : trimEnd t = t) (some : t ≠ [])
    (s : List Char) : trimEnd (s ++ t) = s ++ t := by
  induction s with
  | nil => exact whole
  | cons c s ih =>
      rw [List.cons_append, trimEnd_cons_of_ne_nil, ih]
      rw [ih]
      exact List.append_ne_nil_of_right_ne_nil s some

theorem length_trim_le (s : List Char) : (trim s).length ≤ s.length := by
  rw [trim, dropAround, dropRightWhile, List.length_reverse]
  have inner := (List.dropWhile_suffix (l := (s.dropWhile isBlank).reverse) isBlank).length_le
  rw [List.length_reverse] at inner
  exact Nat.le_trans inner (List.dropWhile_suffix isBlank).length_le

/-- A text that is trimmed begins with something visible. -/
theorem visible_of_trim (whole : trim (c :: s) = c :: s) : isBlank c = false := by
  cases blank : isBlank c with
  | false => rfl
  | true =>
      have short := length_trim_le s
      rw [← trim_cons_of_blank blank, whole, List.length_cons] at short
      omega

/-- A text that is trimmed ends with something visible. -/
theorem trimEnd_of_trim (whole : trim s = s) : trimEnd s = s := by
  rw [← whole, trim_eq_trimEnd, trimEnd_trimEnd]

theorem trim_eq_trimEnd_of_visible (visible : isBlank c = false) (s : List Char) :
    trim (c :: s) = trimEnd (c :: s) := by
  rw [trim_cons_of_visible visible, trimEnd_cons_of_visible visible]

/-! ## Lines -/

theorem lines_cons_of_not_break (inside : isLineBreak c = false) (s : List Char) :
    lines (c :: s) =
      match lines s with
      | [] => [[c]]
      | line :: more => (c :: line) :: more := by
  rw [lines, inside]
  · rfl
  · rintro rest rfl
    cases inside

/-- A break ends a line; a carriage return leaves this to a line feed after it. -/
theorem lines_cons_of_break (broken : isLineBreak c = true) (s : List Char) :
    lines (c :: s) = [] :: lines s ∨ ∃ more, lines s = [] :: more ∧ lines (c :: s) = lines s := by
  by_cases feed : c = '\r' ∧ ∃ rest, s = '\n' :: rest
  · obtain ⟨rfl, rest, rfl⟩ := feed
    exact .inr ⟨lines rest, rfl, rfl⟩
  · refine .inl ?_
    rw [lines, if_pos broken]
    rintro rest same rfl
    exact feed ⟨same, rest, rfl⟩

theorem lines_eq_nil_iff : lines s = [] ↔ s = [] := by
  constructor
  · intro none
    cases s with
    | nil => rfl
    | cons c rest =>
        cases broken : isLineBreak c with
        | true =>
            rcases lines_cons_of_break broken rest with single | ⟨more, some, same⟩
            · rw [single] at none
              cases none
            · rw [same, some] at none
              cases none
        | false =>
            rw [lines_cons_of_not_break broken] at none
            split at none
            · cases none
            · cases none
  · rintro rfl
    rfl

theorem lines_feed (s : List Char) : lines ('\n' :: s) = [] :: lines s := by
  rw [lines, if_pos (by decide)]
  rintro rest ⟨⟩

/-- A text without breaks stands in front of the first line. -/
theorem lines_append_of_whole {p : List Char} (whole : ∀ c ∈ p, isLineBreak c = false)
    (some : p ≠ []) (s : List Char) :
    lines (p ++ s) =
      match lines s with
      | [] => [p]
      | line :: more => (p ++ line) :: more := by
  induction p with
  | nil => exact absurd rfl some
  | cons c p ih =>
      rw [List.cons_append, lines_cons_of_not_break (whole c (List.mem_cons_self ..))]
      cases p with
      | nil => rfl
      | cons d p =>
          rw [ih (fun e listed => whole e (List.mem_cons_of_mem _ listed)) (List.cons_ne_nil d p)]
          cases lines s <;> rfl

theorem lines_of_whole {p : List Char} (whole : ∀ c ∈ p, isLineBreak c = false) (some : p ≠ []) :
    lines p = [p] := by
  have same := lines_append_of_whole whole some []
  rw [List.append_nil] at same
  exact same

/-- A text without breaks is a line of its own before a line feed. -/
theorem lines_append_feed_of_whole {p : List Char} (whole : ∀ c ∈ p, isLineBreak c = false)
    (s : List Char) : lines (p ++ '\n' :: s) = p :: lines s := by
  cases p with
  | nil => exact lines_feed s
  | cons c p =>
      rw [lines_append_of_whole whole (List.cons_ne_nil c p), lines_feed]
      simp only [List.append_nil]

/-- The lines of two texts with a line feed between them are the lines of both, and an empty line
where the first text ends with a break already. -/
theorem lines_append_feed (s t : List Char) :
    lines (s ++ '\n' :: t) = lines s ++ lines t ∨
      lines (s ++ '\n' :: t) = lines s ++ [] :: lines t := by
  induction s with
  | nil => exact .inr (lines_feed t)
  | cons c s ih =>
      rw [List.cons_append]
      cases broken : isLineBreak c with
      | false =>
          rw [lines_cons_of_not_break broken, lines_cons_of_not_break broken]
          cases front : lines s with
          | nil =>
              rw [lines_eq_nil_iff.1 front, List.nil_append, lines_feed]
              exact .inl rfl
          | cons line more =>
              rw [front] at ih
              rcases ih with same | same
              · exact .inl (by rw [same]; rfl)
              · exact .inr (by rw [same]; rfl)
      | true =>
          have apart (x : List Char) (alone : ∀ rest, c = '\r' → x ≠ '\n' :: rest) :
              lines (c :: x) = [] :: lines x := by
            rw [lines, if_pos broken]
            exact fun rest same => alone rest same
          by_cases feed : c = '\r' ∧ ∃ rest, s = '\n' :: rest
          · obtain ⟨rfl, rest, rfl⟩ := feed
            -- The carriage return leaves its line to the line feed after it, in both texts.
            have one (x : List Char) : lines ('\r' :: '\n' :: x) = lines ('\n' :: x) := by
              rw [lines_feed]
              rfl
            rw [List.cons_append, one, one, ← List.cons_append]
            exact ih
          · have single := apart s fun rest back same => feed ⟨back, rest, same⟩
            rw [single]
            by_cases alone : c = '\r' ∧ s = []
            · obtain ⟨rfl, rfl⟩ := alone
              exact .inl rfl
            · have double := apart (s ++ '\n' :: t) fun rest back same => by
                cases s with
                | nil => exact alone ⟨back, rfl⟩
                | cons d s =>
                    rw [List.cons_append, List.cons.injEq] at same
                    exact feed ⟨back, s, by rw [same.1]⟩
              rw [double]
              rcases ih with same | same
              · exact .inl (by rw [same]; rfl)
              · exact .inr (by rw [same]; rfl)

/-- The lines of a text without the blanks at their ends. -/
def linesTrimmed (s : List Char) : List (List Char) := (lines s).map trimEnd

theorem linesTrimmed_cons_of_not_break (inside : isLineBreak c = false) (s : List Char) :
    linesTrimmed (c :: s) =
      match linesTrimmed s with
      | [] => [trimEnd [c]]
      | line :: more => trimEnd (c :: line) :: more := by
  rw [linesTrimmed, linesTrimmed, lines_cons_of_not_break inside]
  cases lines s with
  | nil => rfl
  | cons line more =>
      have same : trimEnd (c :: trimEnd line) = trimEnd (c :: line) := by
        rw [trimEnd_cons, trimEnd_trimEnd, trimEnd_cons]
      simp only [List.map_cons, same]

/-- A break in front of two texts that begin in the same way does the same to both. -/
theorem lines_cons_of_break_iff (broken : isLineBreak c = true) (d : Char) :
    (∀ s, lines (c :: d :: s) = [] :: lines (d :: s)) ∨
      ∀ s, lines (c :: d :: s) = lines (d :: s) := by
  by_cases feed : c = '\r' ∧ d = '\n'
  · obtain ⟨rfl, rfl⟩ := feed
    exact .inr fun s => (lines_feed s).symm
  · refine .inl fun s => ?_
    rw [lines, if_pos broken]
    intro rest back same
    exact feed ⟨back, (List.cons.inj same).1⟩

theorem linesTrimmed_cons_of_break {n : Nat} (broken : isLineBreak c = true)
    (h : linesTrimmed s = linesTrimmed (trimEnd s) ++ List.replicate n []) :
    ∃ n, linesTrimmed (c :: s) = linesTrimmed (trimEnd (c :: s)) ++ List.replicate n [] := by
  by_cases none : trimEnd s = []
  · rw [trimEnd_cons_of_blank (isBlank_of_isLineBreak broken) none]
    rw [none] at h
    rcases lines_cons_of_break broken s with single | ⟨-, -, same⟩
    · refine ⟨n + 1, ?_⟩
      rw [linesTrimmed, single, List.map_cons, ← linesTrimmed, h]
      rfl
    · exact ⟨n, by rw [linesTrimmed, same, ← linesTrimmed, h]⟩
  · obtain ⟨d, rest, rfl⟩ : ∃ d rest, s = d :: rest :=
      List.exists_cons_of_ne_nil fun nothing => none (by rw [nothing]; rfl)
    have shape : trimEnd (d :: rest) = d :: trimEnd rest := by
      rw [trimEnd_cons] at none ⊢
      exact if_neg fun h => none (if_pos h)
    rw [trimEnd_cons_of_ne_nil none, shape]
    rw [shape, linesTrimmed, linesTrimmed] at h
    refine ⟨n, ?_⟩
    rw [linesTrimmed, linesTrimmed]
    rcases lines_cons_of_break_iff broken d with apart | together
    · rw [apart, apart, List.map_cons, List.map_cons, h, List.cons_append]
    · rw [together, together, h]

/-- Blanks at the end of a text add nothing but empty lines to it. -/
theorem linesTrimmed_trimEnd (s : List Char) :
    ∃ n, linesTrimmed s = linesTrimmed (trimEnd s) ++ List.replicate n [] := by
  induction s with
  | nil => exact ⟨0, rfl⟩
  | cons c s ih =>
      obtain ⟨n, same⟩ := ih
      cases broken : isLineBreak c with
      | true => exact linesTrimmed_cons_of_break broken same
      | false =>
          by_cases hidden : isBlank c = true ∧ trimEnd s = []
          · have none : linesTrimmed s = List.replicate n [] := by
              rw [same, hidden.2]
              rfl
            rw [trimEnd_cons_of_blank hidden.1 hidden.2, linesTrimmed_cons_of_not_break broken, none]
            cases n with
            | zero => exact ⟨1, by rw [trimEnd_cons_of_blank hidden.1 trimEnd_nil]; rfl⟩
            | succ n =>
                refine ⟨n + 1, ?_⟩
                rw [List.replicate_succ]
                simp only [trimEnd_cons_of_blank hidden.1 trimEnd_nil]
                rfl
          · have shape : trimEnd (c :: s) = c :: trimEnd s := by rw [trimEnd_cons, if_neg hidden]
            rw [shape, linesTrimmed_cons_of_not_break broken, linesTrimmed_cons_of_not_break broken,
              same]
            cases linesTrimmed (trimEnd s) with
            | nil =>
                cases n with
                | zero => exact ⟨0, rfl⟩
                | succ n => exact ⟨n, rfl⟩
            | cons line more => exact ⟨n, rfl⟩

/-- Blanks at the end of a text add nothing but empty lines to its trimmed lines. -/
theorem map_trim_lines_trimEnd (s : List Char) :
    ∃ n, (lines s).map trim = (lines (trimEnd s)).map trim ++ List.replicate n [] := by
  have twice (t : List Char) : (lines t).map trim = (linesTrimmed t).map trim := by
    rw [linesTrimmed, List.map_map]
    exact List.map_congr_left fun line _ => (trim_trimEnd line).symm
  obtain ⟨n, same⟩ := linesTrimmed_trimEnd s
  exact ⟨n, by rw [twice, same, List.map_append, List.map_replicate, ← twice]; rfl⟩

/-! ## Lines without the blanks around them -/

/-- A text without the blanks around its breaks and at its ends. -/
def stripped (s : List Char) : List Char := (lines s).flatMap trim

/-- The lines of a text of which the first one keeps the blanks at its front. -/
def unbrokenLines : List (List Char) → List Char
  | [] => []
  | line :: more => trimEnd line ++ more.flatMap trim

/-- What is left of a text that goes on from a place inside a line. -/
def unbroken (s : List Char) : List Char := unbrokenLines (lines s)

@[simp] theorem stripped_nil : stripped [] = [] := rfl

@[simp] theorem unbroken_nil : unbroken [] = [] := rfl

theorem stripped_cons_of_break (broken : isLineBreak c = true) (s : List Char) :
    stripped (c :: s) = stripped s := by
  rw [stripped, stripped]
  rcases lines_cons_of_break broken s with single | ⟨-, -, same⟩
  · rw [single, List.flatMap_cons]
    rfl
  · rw [same]

/-- Behind a break a text goes on without blanks. -/
theorem unbroken_cons_of_break (broken : isLineBreak c = true) (s : List Char) :
    unbroken (c :: s) = stripped s := by
  rw [unbroken, stripped]
  rcases lines_cons_of_break broken s with single | ⟨more, some, same⟩
  · rw [single]
    rfl
  · rw [same, some]
    rfl

theorem stripped_cons_of_blank (blank : isBlank c = true) (s : List Char) :
    stripped (c :: s) = stripped s := by
  cases broken : isLineBreak c with
  | true => exact stripped_cons_of_break broken s
  | false =>
      rw [stripped, stripped, lines_cons_of_not_break broken]
      cases lines s with
      | nil =>
          rw [List.flatMap_cons, trim_cons_of_blank blank]
          rfl
      | cons line more => rw [List.flatMap_cons, List.flatMap_cons, trim_cons_of_blank blank]

theorem not_isLineBreak_of_visible (visible : isBlank c = false) : isLineBreak c = false := by
  cases broken : isLineBreak c with
  | false => rfl
  | true =>
      rw [isBlank_of_isLineBreak broken] at visible
      cases visible

theorem stripped_cons_of_visible (visible : isBlank c = false) (s : List Char) :
    stripped (c :: s) = c :: unbroken s := by
  rw [stripped, unbroken, lines_cons_of_not_break (not_isLineBreak_of_visible visible)]
  cases lines s with
  | nil =>
      rw [List.flatMap_cons, trim_cons_of_visible visible]
      rfl
  | cons line more =>
      rw [List.flatMap_cons, trim_cons_of_visible visible]
      rfl

/-- What is visible stays. -/
theorem unbroken_cons_of_visible (visible : isBlank c = false) (s : List Char) :
    unbroken (c :: s) = c :: unbroken s := by
  rw [unbroken, unbroken, lines_cons_of_not_break (not_isLineBreak_of_visible visible)]
  cases lines s with
  | nil =>
      show trimEnd [c] ++ [] = [c]
      rw [trimEnd_cons_of_visible visible]
      rfl
  | cons line more =>
      rw [unbrokenLines, trimEnd_cons_of_visible visible]
      rfl

/-- The line that a text goes on with has nothing visible in it. -/
def EndsBlank (s : List Char) : Prop := ∀ line ∈ (lines s).head?, trimEnd line = []

theorem unbroken_cons_of_endsBlank (blank : isBlank c = true) (broken : isLineBreak c = false)
    (ends : EndsBlank s) : unbroken (c :: s) = unbroken s := by
  rw [unbroken, unbroken, lines_cons_of_not_break broken]
  rw [EndsBlank] at ends
  cases split : lines s with
  | nil =>
      show trimEnd [c] ++ [] = []
      rw [trimEnd_cons, if_pos ⟨blank, rfl⟩]
      rfl
  | cons line more =>
      rw [split] at ends
      have none := ends line rfl
      rw [unbrokenLines, trimEnd_cons, if_pos ⟨blank, none⟩, unbrokenLines, none]

theorem unbroken_cons_of_not_endsBlank (broken : isLineBreak c = false) (shown : ¬ EndsBlank s) :
    unbroken (c :: s) = c :: unbroken s := by
  rw [unbroken, unbroken, lines_cons_of_not_break broken]
  cases split : lines s with
  | nil =>
      refine absurd (fun line first => ?_) shown
      rw [split] at first
      cases first
  | cons line more =>
      have some : trimEnd line ≠ [] := by
        intro none
        refine shown fun line' first => ?_
        rw [split] at first
        cases first
        exact none
      rw [unbrokenLines, trimEnd_cons, if_neg fun h => some h.2, unbrokenLines, List.cons_append]

/-! ## Runs of blanks -/

theorem not_endsBlank_cons_of_visible (visible : isBlank c = false) (s : List Char) :
    ¬ EndsBlank (c :: s) := by
  intro ends
  rw [EndsBlank, lines_cons_of_not_break (not_isLineBreak_of_visible visible)] at ends
  have none : trimEnd (c :: (lines s).head?.getD []) = [] := by
    cases split : lines s with
    | nil => exact ends [c] (by rw [split]; rfl)
    | cons line more => exact ends (c :: line) (by rw [split]; rfl)
  rw [trimEnd_cons_of_visible visible] at none
  cases none

theorem not_endsBlank_cons (broken : isLineBreak c = false) (shown : ¬ EndsBlank s) :
    ¬ EndsBlank (c :: s) := by
  intro ends
  refine shown fun line first => ?_
  rw [EndsBlank, lines_cons_of_not_break broken] at ends
  cases split : lines s with
  | nil =>
      rw [split] at first
      cases first
  | cons line' more =>
      rw [split] at first ends
      cases first
      have none := ends _ rfl
      rw [trimEnd_cons] at none
      split at none
      · next h => exact h.2
      · cases none

/-- A text without breaks that ends visibly stays as it is. -/
theorem unbroken_append {p : List Char} (whole : ∀ c ∈ p, isLineBreak c = false) {last : Char}
    (visible : isBlank last = false) (s : List Char) :
    unbroken (p ++ last :: s) = p ++ last :: unbroken s := by
  have shown : unbroken (p ++ last :: s) = p ++ last :: unbroken s ∧ ¬ EndsBlank (p ++ last :: s) := by
    induction p with
    | nil => exact ⟨unbroken_cons_of_visible visible s, not_endsBlank_cons_of_visible visible s⟩
    | cons c p ih =>
        obtain ⟨same, shown⟩ := ih fun c listed => whole c (List.mem_cons_of_mem _ listed)
        have inside := whole c (List.mem_cons_self ..)
        rw [List.cons_append, unbroken_cons_of_not_endsBlank inside shown, same]
        exact ⟨rfl, not_endsBlank_cons inside shown⟩
  exact shown.1

/-- Where a text goes on without the blanks at its front, it goes on as from inside a line. -/
theorem stripped_eq_unbroken (s : List Char) :
    stripped s = unbroken (s.dropWhile isBlank) := by
  induction s with
  | nil => rfl
  | cons c rest ih =>
      cases blank : isBlank c with
      | true => rw [stripped_cons_of_blank blank, List.dropWhile_cons_of_pos blank, ih]
      | false =>
          rw [stripped_cons_of_visible blank, List.dropWhile_cons_of_neg (by rw [blank]; nofun),
            unbroken_cons_of_visible blank]

/-- A blank at the front stays or goes by itself, or all blanks up to something visible go. -/
theorem unbroken_cons_of_blank (blank : isBlank c = true) (s : List Char) :
    unbroken (c :: s) = unbroken s ∨ unbroken (c :: s) = c :: unbroken s ∨
      unbroken (c :: s) = stripped s := by
  cases broken : isLineBreak c with
  | true => exact .inr (.inr (unbroken_cons_of_break broken s))
  | false =>
      by_cases ends : EndsBlank s
      · exact .inl (unbroken_cons_of_endsBlank blank broken ends)
      · exact .inr (.inl (unbroken_cons_of_not_endsBlank broken ends))

/-- What is visible in a text is left of it. -/
theorem stripped_ne_nil {c : Char} (listed : c ∈ s) (visible : isBlank c = false) :
    stripped s ≠ [] := by
  induction s with
  | nil => cases listed
  | cons d s ih =>
      cases blank : isBlank d with
      | false =>
          rw [stripped_cons_of_visible blank]
          exact List.cons_ne_nil d _
      | true =>
          rw [stripped_cons_of_blank blank]
          rcases List.mem_cons.1 listed with rfl | listed
          · rw [visible] at blank
            cases blank
          · exact ih listed

end RouteContract.Text

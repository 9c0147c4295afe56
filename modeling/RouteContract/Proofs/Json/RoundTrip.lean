import RouteContract.Proofs.Data.Table
import RouteContract.Proofs.Json.Numeral
import RouteContract.Proofs.Json.Text

/-!
# Values read back from their texts

A value that was written is read back, however it was laid out (`read_value`): a scalar from the
characters it was written with, an array and an object part by part. The names of an object must be
distinct, because of two members with one name a reader keeps one, and integers must be short enough
to be written.

The reader recurses on a bound, not on the value. Twice the weight of a value is a bound that is
large enough, and a value does not weigh more than its text is long.
-/

set_option autoImplicit false

namespace RouteContract.Json

open Number Reader

/-! ## Values that a text can spell -/

mutual
/-- Whether the names of every object in a value are distinct. -/
def hasDistinctNames : Json → Bool
  | .arr items => haveDistinctNames items
  | .obj members => decide (Table.keys members).Nodup && membersHaveDistinctNames members
  | .null => true
  | .bool _ => true
  | .int _ => true
  | .float _ => true
  | .str _ => true

/-- Whether the names of every object in items are distinct. -/
def haveDistinctNames : List Json → Bool
  | [] => true
  | item :: rest => item.hasDistinctNames && haveDistinctNames rest

/-- Whether the names of every object in the values of members are distinct. -/
def membersHaveDistinctNames : List (String × Json) → Bool
  | [] => true
  | (_, v) :: rest => v.hasDistinctNames && membersHaveDistinctNames rest
end

theorem haveDistinctNames_iff {items : List Json} :
    haveDistinctNames items = true ↔ ∀ item ∈ items, item.hasDistinctNames = true := by
  induction items with
  | nil => simp [haveDistinctNames]
  | cons item rest ih => simp [haveDistinctNames, ih]

theorem membersHaveDistinctNames_iff {members : List (String × Json)} :
    membersHaveDistinctNames members = true ↔
      ∀ entry ∈ members, entry.2.hasDistinctNames = true := by
  induction members with
  | nil => simp [membersHaveDistinctNames]
  | cons entry rest ih => simp [membersHaveDistinctNames, ih]

/-! ## Blanks -/

section Blanks

variable (layout : Writer.Layout) (depth : Nat) (s : List Char)

theorem skip_replicate (count : Nat) : skip (List.replicate count ' ' ++ s) = skip s := by
  induction count with
  | zero => rfl
  | succ n ih =>
      rw [List.replicate_succ, List.cons_append]
      exact ih

theorem skip_opening : skip (layout.opening depth ++ s) = skip s := by
  cases layout with
  | line => rfl
  | indented step => exact skip_replicate s _

theorem skip_closing : skip (layout.closing depth ++ s) = skip s := by
  cases layout with
  | line => rfl
  | indented step => exact skip_replicate s _

/-- What stands between two parts is a comma and blanks. -/
theorem exists_between :
    ∃ blanks, layout.between depth = ',' :: blanks ∧ skip (blanks ++ s) = skip s := by
  cases layout with
  | line => exact ⟨[' '], rfl, rfl⟩
  | indented step => exact ⟨_, rfl, skip_replicate s _⟩

theorem skip_of_head {c : Char} {more : List Char} (visible : isSpace c = false) :
    skip (c :: more) = c :: more := by
  rw [skip, List.dropWhile_cons_of_neg (by simp [visible])]

end Blanks

/-! ## Scalars -/

/-- A text that begins as a scalar does. -/
def StartsScalar (s : List Char) : Prop :=
  ∃ c more, s = c :: more ∧ c ≠ '"' ∧ c ≠ '[' ∧ c ≠ '{' ∧ c ≠ ']' ∧ isSpace c = false

theorem startsScalar_signText {c : Char} (digit : c.isDigit = true) (negative : Bool)
    (more : List Char) : StartsScalar (signText negative ++ c :: more) := by
  cases negative with
  | true => exact ⟨'-', c :: more, rfl, by decide⟩
  | false =>
      refine ⟨c, more, rfl, ?_, ?_, ?_, ?_, ?_⟩
      · exact ne_of_isDigit digit rfl
      · exact ne_of_isDigit digit rfl
      · exact ne_of_isDigit digit rfl
      · exact ne_of_isDigit digit rfl
      · have space : c ≠ ' ' := ne_of_isDigit digit rfl
        have line : c ≠ '\n' := ne_of_isDigit digit rfl
        have back : c ≠ '\r' := ne_of_isDigit digit rfl
        have tab : c ≠ '\t' := ne_of_isDigit digit rfl
        simp [isSpace, space, line, back, tab]

theorem startsScalar_floatText (x : Binary64) : StartsScalar (FloatStyle.json.text x) := by
  cases x with
  | finite negative m =>
      obtain ⟨n, floating, text, -⟩ := exists_floatText m negative
      obtain ⟨c, more, same, digit⟩ := Numeral.exists_cons_text floating
      rw [text, same]
      exact startsScalar_signText digit negative more
  | infinite negative =>
      cases negative with
      | true => exact ⟨'-', _, rfl, by decide⟩
      | false => exact ⟨'I', _, rfl, by decide⟩
  | undefined => exact ⟨'N', _, rfl, by decide⟩

theorem scalar_json_float {rest : List Char} (boundary : IsBoundary rest) (x : Binary64) :
    scalar (FloatStyle.json.text x ++ rest) = .ok (.float x, rest) := by
  cases x with
  | finite negative m => exact scalar_floatText boundary negative m
  | infinite negative => cases negative <;> rfl
  | undefined => rfl

/-- A text that begins as a scalar does is read as one. -/
theorem value_of_startsScalar {s : List Char} (starts : StartsScalar s) (fuel : Nat)
    (rest : List Char) : Reader.value (fuel + 1) (s ++ rest) = scalar (s ++ rest) := by
  obtain ⟨c, more, rfl, noQuote, noBracket, noBrace, -, -⟩ := starts
  rw [List.cons_append, Reader.value]
  · intro others same
    exact noQuote (List.cons.inj same).1
  · intro others same
    exact noBracket (List.cons.inj same).1
  · intro others same
    exact noBrace (List.cons.inj same).1

/-! ## Texts of parts -/

section Parts

variable (layout : Writer.Layout) (depth : Nat)

/-- A value begins with no blank and with no closing bracket. -/
theorem exists_cons_value (v : Json) :
    ∃ c more, Writer.value layout depth v = c :: more ∧ c ≠ ']' ∧ isSpace c = false := by
  cases v with
  | null => exact ⟨'n', _, rfl, by decide⟩
  | bool b => cases b <;> exact ⟨_, _, rfl, by decide⟩
  | int i =>
      obtain ⟨c, more, text, digit, -⟩ := exists_integerText i
      obtain ⟨d, others, same, -, -, -, noBracket, visible⟩ :=
        startsScalar_signText digit (decide (i < 0)) more
      exact ⟨d, others, by rw [Writer.value, text, same], noBracket, visible⟩
  | float x =>
      obtain ⟨c, more, same, -, -, -, noBracket, visible⟩ := startsScalar_floatText x
      exact ⟨c, more, by rw [Writer.value, same], noBracket, visible⟩
  | str t => exact ⟨'"', _, rfl, by decide⟩
  | arr items => cases items <;> exact ⟨'[', _, rfl, by decide⟩
  | obj members => cases members <;> exact ⟨'{', _, rfl, by decide⟩

theorem skip_value (v : Json) (s : List Char) :
    skip (Writer.value layout depth v ++ s) = Writer.value layout depth v ++ s := by
  obtain ⟨c, more, same, -, visible⟩ := exists_cons_value layout depth v
  rw [same, List.cons_append]
  exact skip_of_head visible

theorem isBoundary_items (items : List Json) (s : List Char) :
    IsBoundary (Writer.items layout depth items ++ s) := by
  intro c first
  cases items with
  | nil => cases layout <;> (cases first; decide)
  | cons item rest => cases layout <;> (cases first; decide)

theorem isBoundary_members (members : List (String × Json)) (s : List Char) :
    IsBoundary (Writer.members layout depth members ++ s) := by
  intro c first
  cases members with
  | nil => cases layout <;> (cases first; decide)
  | cons member rest => cases layout <;> (cases first; decide)

theorem text_append (t : String) (s : List Char) :
    Writer.text t ++ s = '"' :: (t.toList.flatMap Writer.escape ++ '"' :: s) := by
  rw [Writer.text, List.cons_append, List.cons_append, List.append_assoc, List.singleton_append]

theorem colon_append (s : List Char) : ": ".toList ++ s = ':' :: ' ' :: s := rfl

/-- An array from its first item on, and what stands after it. -/
def itemsText (item : Json) (more : List Json) (rest : List Char) : List Char :=
  Writer.value layout (depth + 1) item ++ (Writer.items layout depth more ++ rest)

/-- An object from its first member on, and what stands after it. -/
def membersText (name : String) (v : Json) (more : List (String × Json)) (rest : List Char) :
    List Char :=
  Writer.text name ++ ':' :: ' ' :: (Writer.value layout (depth + 1) v ++
    (Writer.members layout depth more ++ rest))

variable (item : Json) (more : List Json) (name : String) (v : Json)
  (others : List (String × Json)) (rest : List Char)

theorem skip_itemsText :
    skip (itemsText layout depth item more rest) = itemsText layout depth item more rest :=
  skip_value layout (depth + 1) item _

theorem skip_membersText :
    skip (membersText layout depth name v others rest) =
      membersText layout depth name v others rest := by
  rw [membersText, text_append]
  exact skip_of_head (by decide)

theorem value_arr_append :
    Writer.value layout depth (.arr (item :: more)) ++ rest =
      '[' :: (layout.opening depth ++ itemsText layout depth item more rest) := by
  rw [Writer.value, List.cons_append, List.cons_append, List.cons_append, List.append_assoc,
    List.append_assoc, itemsText]

theorem value_obj_append :
    Writer.value layout depth (.obj ((name, v) :: others)) ++ rest =
      '{' :: (layout.opening depth ++ membersText layout depth name v others rest) := by
  rw [Writer.value, membersText]
  simp only [List.cons_append, List.append_assoc, colon_append]

/-- The next item stands behind a comma and blanks. -/
theorem exists_items_cons :
    ∃ s, Writer.items layout depth (item :: more) ++ rest = ',' :: s ∧
      skip s = itemsText layout depth item more rest := by
  obtain ⟨blanks, between, opens⟩ :=
    exists_between layout depth (itemsText layout depth item more rest)
  refine ⟨blanks ++ itemsText layout depth item more rest, ?_, ?_⟩
  · rw [Writer.items, between, List.append_assoc, List.append_assoc, List.cons_append, itemsText]
  · rw [opens, skip_itemsText]

/-- The next member stands behind a comma and blanks. -/
theorem exists_members_cons :
    ∃ s, Writer.members layout depth ((name, v) :: others) ++ rest = ',' :: s ∧
      skip s = membersText layout depth name v others rest := by
  obtain ⟨blanks, between, opens⟩ :=
    exists_between layout depth (membersText layout depth name v others rest)
  refine ⟨blanks ++ membersText layout depth name v others rest, ?_, ?_⟩
  · rw [Writer.members, between, membersText]
    simp only [List.cons_append, List.append_assoc, colon_append]
  · rw [opens, skip_membersText]

end Parts

/-! ## Steps of the reader -/

section Steps

variable {fuel : Nat} {s after rest : List Char}

theorem value_arr (opens : skip s = rest) (filled : rest.head? ≠ some ']') :
    Reader.value (fuel + 1) ('[' :: s) =
      (Reader.items fuel rest).map fun (xs, after) => (.arr xs, after) := by
  rw [Reader.value, opens]
  split
  · exact absurd rfl filled
  · rfl

theorem value_obj (opens : skip s = rest) (filled : rest.head? ≠ some '}') :
    Reader.value (fuel + 1) ('{' :: s) =
      (Reader.members fuel [] rest).map fun (ms, after) => (.obj ms, after) := by
  rw [Reader.value, opens]
  split
  · exact absurd rfl filled
  · rfl

theorem items_close {item : Json} (first : Reader.value fuel s = .ok (item, after))
    (closes : skip after = ']' :: rest) : Reader.items (fuel + 1) s = .ok ([item], rest) := by
  rw [Reader.items, first]
  dsimp only
  rw [closes]
  rfl

theorem items_comma {item : Json} (first : Reader.value fuel s = .ok (item, after))
    (goesOn : after = ',' :: rest) :
    Reader.items (fuel + 1) s =
      (Reader.items fuel (skip rest)).map fun (xs, last) => (item :: xs, last) := by
  rw [Reader.items, first]
  dsimp only
  rw [goesOn, skip_of_head (by decide)]
  rfl

section Member

variable {done : Table Json} {name : String} {v : Json}
  (first : Reader.value fuel (skip s) = .ok (v, after))
include first

theorem members_close (closes : skip after = '}' :: rest) :
    Reader.members (fuel + 1) done (Writer.text name ++ ':' :: s) =
      .ok (Table.put done name v, rest) := by
  rw [text_append, Reader.members, text_text]
  dsimp only
  rw [skip_of_head (by decide)]
  simp only [first, closes]

theorem members_comma (goesOn : after = ',' :: rest) :
    Reader.members (fuel + 1) done (Writer.text name ++ ':' :: s) =
      Reader.members fuel (Table.put done name v) (skip rest) := by
  have visible : skip after = ',' :: rest := goesOn ▸ skip_of_head (by decide)
  rw [text_append, Reader.members, text_text]
  dsimp only
  rw [skip_of_head (by decide)]
  simp only [first, visible]

end Member

end Steps

/-! ## Values -/

/-- What a bound is good for: a value, the items of an array and the members of an object are read
back when they weigh little enough. -/
structure ReadsBack (layout : Writer.Layout) (fuel : Nat) : Prop where
  value : ∀ (depth : Nat) (v : Json) (rest : List Char), v.hasDistinctNames = true →
    v.isWritable = true → IsBoundary rest → 2 * weight v ≤ fuel →
      Reader.value fuel (Writer.value layout depth v ++ rest) = .ok (v, rest)
  items : ∀ (depth : Nat) (item : Json) (more : List Json) (rest : List Char),
    haveDistinctNames (item :: more) = true → areWritable (item :: more) = true →
      2 * weightItems (item :: more) + 1 ≤ fuel →
        Reader.items fuel (itemsText layout depth item more rest) = .ok (item :: more, rest)
  members : ∀ (depth : Nat) (done : Table Json) (name : String) (v : Json)
    (more : List (String × Json)) (rest : List Char),
    (Table.keys (done ++ (name, v) :: more)).Nodup →
      membersHaveDistinctNames ((name, v) :: more) = true →
        areMembersWritable ((name, v) :: more) = true →
          2 * weightMembers ((name, v) :: more) + 1 ≤ fuel →
            Reader.members fuel done (membersText layout depth name v more rest) =
              .ok (done ++ (name, v) :: more, rest)

namespace ReadsBack

variable {layout : Writer.Layout} {fuel : Nat}

theorem value_succ (h : ReadsBack layout fuel) (depth : Nat) (v : Json) (rest : List Char)
    (distinct : v.hasDistinctNames = true) (writable : v.isWritable = true)
    (boundary : IsBoundary rest) (enough : 2 * weight v ≤ fuel + 1) :
    Reader.value (fuel + 1) (Writer.value layout depth v ++ rest) = .ok (v, rest) := by
  cases v with
  | null => rfl
  | bool b => cases b <;> rfl
  | int i =>
      obtain ⟨c, more, text, digit, -⟩ := exists_integerText i
      rw [isWritable, decide_eq_true_eq] at writable
      rw [Writer.value, ← scalar_integerText boundary writable, text]
      exact value_of_startsScalar (startsScalar_signText digit _ more) fuel rest
  | float x =>
      rw [Writer.value, value_of_startsScalar (startsScalar_floatText x),
        scalar_json_float boundary]
  | str t =>
      rw [Writer.value, text_append, Reader.value, text_text]
      rfl
  | arr items =>
      cases items with
      | nil => rfl
      | cons item more =>
          have opens := (skip_opening layout depth _).trans
            (skip_itemsText layout depth item more rest)
          have filled : (itemsText layout depth item more rest).head? ≠ some ']' := by
            obtain ⟨c, others, same, noBracket, -⟩ := exists_cons_value layout (depth + 1) item
            rw [itemsText, same, List.cons_append, List.head?_cons]
            exact fun first => noBracket (Option.some.inj first)
          rw [weight] at enough
          rw [value_arr_append, value_arr opens filled,
            h.items depth item more rest distinct writable (by omega)]
          rfl
  | obj members =>
      rcases members with - | ⟨⟨name, v⟩, more⟩
      · rfl
      · rw [hasDistinctNames, Bool.and_eq_true, decide_eq_true_eq] at distinct
        have opens := (skip_opening layout depth _).trans
          (skip_membersText layout depth name v more rest)
        have filled : (membersText layout depth name v more rest).head? ≠ some '}' := by
          rw [membersText, text_append, List.head?_cons]
          decide
        rw [weight] at enough
        rw [value_obj_append, value_obj opens filled,
          h.members depth [] name v more rest distinct.1 distinct.2 writable (by omega)]
        rfl

theorem items_succ (h : ReadsBack layout fuel) (depth : Nat) (item : Json) (more : List Json)
    (rest : List Char) (distinct : haveDistinctNames (item :: more) = true)
    (writable : areWritable (item :: more) = true)
    (enough : 2 * weightItems (item :: more) + 1 ≤ fuel + 1) :
    Reader.items (fuel + 1) (itemsText layout depth item more rest) = .ok (item :: more, rest) := by
  rw [haveDistinctNames, Bool.and_eq_true] at distinct
  rw [areWritable, Bool.and_eq_true] at writable
  rw [weightItems] at enough
  have first := h.value (depth + 1) item (Writer.items layout depth more ++ rest) distinct.1
    writable.1 (isBoundary_items layout depth more rest) (by omega)
  cases more with
  | nil =>
      refine items_close first ?_
      rw [Writer.items, List.append_assoc, skip_closing]
      rfl
  | cons second others =>
      obtain ⟨s, goesOn, opens⟩ := exists_items_cons layout depth second others rest
      have positive := weight_pos item
      rw [itemsText, items_comma first goesOn, opens,
        h.items depth second others rest distinct.2 writable.2 (by omega)]
      rfl

theorem members_succ (h : ReadsBack layout fuel) (depth : Nat) (done : Table Json) (name : String)
    (v : Json) (more : List (String × Json)) (rest : List Char)
    (fresh : (Table.keys (done ++ (name, v) :: more)).Nodup)
    (distinct : membersHaveDistinctNames ((name, v) :: more) = true)
    (writable : areMembersWritable ((name, v) :: more) = true)
    (enough : 2 * weightMembers ((name, v) :: more) + 1 ≤ fuel + 1) :
    Reader.members (fuel + 1) done (membersText layout depth name v more rest) =
      .ok (done ++ (name, v) :: more, rest) := by
  rw [membersHaveDistinctNames, Bool.and_eq_true] at distinct
  rw [areMembersWritable, Bool.and_eq_true] at writable
  rw [weightMembers] at enough
  have written : Table.put done name v = done ++ [(name, v)] :=
    Table.put_of_not_mem (Table.not_mem_keys_of_nodup fresh) v
  have first : Reader.value fuel (skip (' ' :: (Writer.value layout (depth + 1) v ++
      (Writer.members layout depth more ++ rest)))) =
        .ok (v, Writer.members layout depth more ++ rest) := by
    rw [← h.value (depth + 1) v _ distinct.1 writable.1 (isBoundary_members layout depth more rest)
      (by omega)]
    exact congrArg (Reader.value fuel) (skip_value layout (depth + 1) v _)
  rcases more with - | ⟨⟨second, w⟩, others⟩
  · rw [← written]
    refine members_close first ?_
    rw [Writer.members, List.append_assoc, skip_closing]
    rfl
  · obtain ⟨s, goesOn, opens⟩ := exists_members_cons layout depth second w others rest
    have read := h.members depth (done ++ [(name, v)]) second w others rest
      (by rwa [List.append_assoc]) distinct.2 writable.2 (by omega)
    rw [membersText, members_comma first goesOn, opens, written, read, List.append_assoc]
    rfl

end ReadsBack

/-- Every bound reads back what it is good for. -/
theorem readsBack (layout : Writer.Layout) (fuel : Nat) : ReadsBack layout fuel := by
  induction fuel with
  | zero =>
      refine ⟨?_, ?_, ?_⟩
      · intro depth v rest _ _ _ enough
        have positive := weight_pos v
        omega
      · intro depth item more rest _ _ enough
        exact absurd enough (Nat.not_succ_le_zero _)
      · intro depth done name v more rest _ _ _ enough
        exact absurd enough (Nat.not_succ_le_zero _)
  | succ n ih => exact ⟨ih.value_succ, ih.items_succ, ih.members_succ⟩

/-! ## Texts -/

mutual
/-- A value does not weigh more than its text is long. -/
theorem weight_le_length (layout : Writer.Layout) :
    ∀ (depth : Nat) (v : Json), weight v ≤ (Writer.value layout depth v).length
  | _, .null => Nat.succ_le_succ (Nat.zero_le _)
  | _, .bool true => Nat.succ_le_succ (Nat.zero_le _)
  | _, .bool false => Nat.succ_le_succ (Nat.zero_le _)
  | depth, .int i => by
      obtain ⟨c, more, same, -⟩ := exists_cons_value layout depth (.int i)
      rw [same]
      exact Nat.succ_le_succ (Nat.zero_le _)
  | depth, .float x => by
      obtain ⟨c, more, same, -⟩ := exists_cons_value layout depth (.float x)
      rw [same]
      exact Nat.succ_le_succ (Nat.zero_le _)
  | _, .str _ => Nat.succ_le_succ (Nat.zero_le _)
  | _, .arr [] => Nat.succ_le_succ (Nat.zero_le _)
  | depth, .arr (item :: rest) => by
      have first := weight_le_length layout (depth + 1) item
      have others := weightItems_le_length layout depth rest
      simp only [weight, weightItems, Writer.value, List.length_append, List.length_cons]
      omega
  | _, .obj [] => Nat.succ_le_succ (Nat.zero_le _)
  | depth, .obj ((name, v) :: rest) => by
      have first := weight_le_length layout (depth + 1) v
      have others := weightMembers_le_length layout depth rest
      simp only [weight, weightMembers, Writer.value, Writer.text, List.length_append,
        List.length_cons]
      omega

theorem weightItems_le_length (layout : Writer.Layout) :
    ∀ (depth : Nat) (items : List Json),
      weightItems items ≤ (Writer.items layout depth items).length
  | _, [] => Nat.zero_le _
  | depth, item :: rest => by
      have first := weight_le_length layout (depth + 1) item
      have others := weightItems_le_length layout depth rest
      simp only [weightItems, Writer.items, List.length_append]
      omega

theorem weightMembers_le_length (layout : Writer.Layout) :
    ∀ (depth : Nat) (members : List (String × Json)),
      weightMembers members ≤ (Writer.members layout depth members).length
  | _, [] => Nat.zero_le _
  | depth, (name, v) :: rest => by
      have first := weight_le_length layout (depth + 1) v
      have others := weightMembers_le_length layout depth rest
      simp only [weightMembers, Writer.members, Writer.text, List.length_append, List.length_cons]
      omega
end

/-- **A value is read back from its text**, however it was laid out. -/
theorem read_value (layout : Writer.Layout) {v : Json} (distinct : v.hasDistinctNames = true)
    (writable : v.isWritable = true) : read (Writer.value layout 0 v) = .ok v := by
  have begins := skip_value layout 0 v []
  have nothing : IsBoundary [] := fun _ first => nomatch first
  have long := weight_le_length layout 0 v
  have read := (readsBack layout (2 * (Writer.value layout 0 v).length + 2)).value 0 v [] distinct
    writable nothing (by omega)
  rw [List.append_nil] at begins read
  rw [Json.read, begins, read]
  rfl

end RouteContract.Json

import RouteContract.Documentation
import RouteContract.Proofs.Json.Lines
import RouteContract.Proofs.Route.Reading

/-!
# Documentation texts that were written

A documentation text is written as lines of free text and then, from one line to the next, its tags
with their values. Its annotations are the free text and, over it, what the tags say, in their order
(`annotationsOf_text`). A value is a JSON text that may go on over several lines, or a text that is
dropped; no other tag and no free text changes with it.
-/

set_option autoImplicit false

namespace RouteContract.Documentation

open Text
open Json.Reader (HasPlainBreaks)

/-! ## What is written -/

/-- A tag as it is written: its name and its value, if it has one. -/
structure WrittenTag where
  name : List Char
  value? : Option (List Char)

/-- What is written of a tag behind its name. -/
def WrittenTag.valueText (tag : WrittenTag) : List Char :=
  match tag.value? with
  | none => []
  | some v => ' ' :: v

def WrittenTag.text (tag : WrittenTag) : List Char := '@' :: (tag.name ++ tag.valueText)

/-- Free lines and the tags after them. -/
structure Written where
  description : List (List Char)
  tags : List WrittenTag

def Written.text (doc : Written) : List Char :=
  join ['\n'] (doc.description ++ doc.tags.map WrittenTag.text)

/-- A line begins as a tag does. -/
def BeginsTag (line : List Char) : Prop :=
  ∃ c rest, line = '@' :: c :: rest ∧ Route.isNameStart c = true

/-- Free lines are trimmed and are no tags, and the first and the last one are not empty. -/
structure IsDescription (description : List (List Char)) : Prop where
  whole : ∀ line ∈ description, ∀ c ∈ line, isLineBreak c = false
  trimmed : ∀ line ∈ description, trim line = line
  free : ∀ line ∈ description, ¬ BeginsTag line
  first : ∀ line ∈ description.head?, line ≠ []
  last : ∀ line ∈ description.getLast?, line ≠ []

/-- A tag has an identifier for its name, and no line of its value begins a tag. -/
structure WrittenTag.IsWellFormed (tag : WrittenTag) : Prop where
  named : Route.isName tag.name = true
  free : ∀ v ∈ tag.value?, ∀ line ∈ lines v, ¬ BeginsTag (trim line)

/-- What a tag says: true without a value, the value that a JSON text spells, and nothing with a text
whose lines together are no JSON text. -/
inductive WrittenTag.Means : WrittenTag → Option Json → Prop
  | bare {name : List Char} : Means ⟨name, none⟩ (some (.bool true))
  | value {name v : List Char} {j : Json} (plain : HasPlainBreaks v) (read : Json.read v = .ok j) :
      Means ⟨name, some v⟩ (some j)
  | dropped {name v : List Char} {c : Char} (listed : c ∈ v) (visible : isBlank c = false)
      (unread : Json.read (stripped v) = .error .malformed) : Means ⟨name, some v⟩ none

/-- The annotation that free lines become. -/
def described (description : List (List Char)) : Table Json :=
  if description.isEmpty then []
  else [("description", .str (String.ofList (join ['\n'] description)))]

/-- The annotations that tags say, in order. -/
def entries (tags : List WrittenTag) (meanings : List (Option Json)) : List (String × Json) :=
  (tags.zip meanings).filterMap fun said => said.2.map fun v => (String.ofList said.1.name, v)

/-! ## Lines that are tags -/

variable {line : List Char} {parts : Parts}

theorem ofLine?_eq_none (free : ¬ BeginsTag line) : Tag.ofLine? line = none := by
  unfold Tag.ofLine?
  split
  · next c rest =>
      split
      · next start => exact absurd ⟨c, rest, rfl, start⟩ free
      · rfl
  · rfl

theorem isBlank_of_isNamePart {c : Char} (h : Route.isNamePart c = true) : isBlank c = false := by
  rw [Route.isNamePart, Char.isAlphanum, Bool.or_eq_true, Bool.or_eq_true, beq_iff_eq] at h
  rcases h with (alpha | digit) | rfl
  · have bounds := Route.toNat_of_isAlpha alpha
    simp only [isBlank, Bool.or_eq_false_iff, Bool.and_eq_false_iff, decide_eq_false_iff_not,
      beq_eq_false_iff_ne]
    omega
  · exact Number.isBlank_of_isDigit digit
  · decide

/-- A line that begins with a tag is read as the name of the tag and the rest of the line. -/
theorem ofLine?_named {name rest : List Char} (named : Route.isName name = true)
    (ends : ∀ c ∈ rest.head?, Route.isNamePart c = false) :
    Tag.ofLine? ('@' :: (name ++ rest)) = some ⟨name, trim rest⟩ := by
  cases name with
  | nil => cases named
  | cons c name =>
      obtain ⟨start, others⟩ := Bool.and_eq_true_iff.1 named
      rw [List.all_eq_true] at others
      have stops : rest.takeWhile Route.isNamePart = [] ∧ rest.dropWhile Route.isNamePart = rest := by
        cases rest with
        | nil => exact ⟨rfl, rfl⟩
        | cons d rest =>
            have outside : ¬ Route.isNamePart d = true := by rw [ends d rfl]; nofun
            exact ⟨List.takeWhile_cons_of_neg outside, List.dropWhile_cons_of_neg outside⟩
      rw [List.cons_append, Tag.ofLine?, if_pos start, List.takeWhile_append_of_pos others,
        List.dropWhile_append_of_pos others, stops.1, stops.2, List.append_nil]

/-! ## Parts -/

/-- A free line in front of all tags. -/
theorem addLine_free (free : ¬ BeginsTag line) (description : List (List Char)) :
    Parts.addLine ⟨description, []⟩ line = ⟨description ++ [line], []⟩ := by
  rw [Parts.addLine, ofLine?_eq_none free]
  rfl

/-- A line that goes on with the last tag. -/
theorem addLine_more (free : ¬ BeginsTag line) (description : List (List Char)) (tags : List Tag)
    (name text : List Char) :
    Parts.addLine ⟨description, tags ++ [⟨name, text⟩]⟩ line =
      ⟨description, tags ++ [⟨name, text ++ line⟩]⟩ := by
  rw [Parts.addLine, ofLine?_eq_none free]
  simp only [List.getLast?_concat, List.dropLast_concat]

theorem not_beginsTag_nil : ¬ BeginsTag [] := by
  rintro ⟨_, _, ⟨⟩, _⟩

theorem foldl_free {free : List (List Char)} (none : ∀ line ∈ free, ¬ BeginsTag line)
    (description : List (List Char)) :
    free.foldl Parts.addLine ⟨description, []⟩ = ⟨description ++ free, []⟩ := by
  induction free generalizing description with
  | nil => rw [List.append_nil]; rfl
  | cons line free ih =>
      rw [List.foldl_cons, addLine_free (none line (List.mem_cons_self ..)),
        ih fun other listed => none other (List.mem_cons_of_mem _ listed), List.append_assoc]
      rfl

theorem foldl_more {more : List (List Char)} (none : ∀ line ∈ more, ¬ BeginsTag line)
    (description : List (List Char)) (tags : List Tag) (name text : List Char) :
    more.foldl Parts.addLine ⟨description, tags ++ [⟨name, text⟩]⟩ =
      ⟨description, tags ++ [⟨name, text ++ more.flatten⟩]⟩ := by
  induction more generalizing text with
  | nil => rw [List.flatten_nil, List.append_nil]; rfl
  | cons line more ih =>
      rw [List.foldl_cons, addLine_more (none line (List.mem_cons_self ..)),
        ih fun other listed => none other (List.mem_cons_of_mem _ listed), List.flatten_cons,
        List.append_assoc]

/-- An empty line after a tag adds nothing to it. -/
theorem addLine_empty (description : List (List Char)) {tags : List Tag} (some : tags ≠ []) :
    Parts.addLine ⟨description, tags⟩ [] = ⟨description, tags⟩ := by
  obtain ⟨front, ⟨name, text⟩, rfl⟩ := (List.eq_nil_or_concat' tags).resolve_left some
  rw [addLine_more not_beginsTag_nil, List.append_nil]

/-! ## Written tags -/

/-- A written tag as it is read, the lines of its value being put together. -/
def WrittenTag.read (tag : WrittenTag) : Tag := ⟨tag.name, stripped (tag.value?.getD [])⟩

/-- The first line of a tag begins it. -/
theorem addLine_named {name : List Char} (named : Route.isName name = true) (rest : List Char)
    (ends : ∀ c ∈ rest.head?, Route.isNamePart c = false) (description : List (List Char))
    (tags : List Tag) :
    Parts.addLine ⟨description, tags⟩ (trim ('@' :: (name ++ rest))) =
      ⟨description, tags ++ [⟨name, trim rest⟩]⟩ := by
  have visible (c : Char) (listed : c ∈ name) : isBlank c = false :=
    isBlank_of_isNamePart (Route.isNamePart_of_isName named c listed)
  have shape : trim ('@' :: (name ++ rest)) = '@' :: (name ++ trimEnd rest) := by
    rw [trim_cons_of_visible (by decide), trimEnd_append_of_visible visible]
  have ends' : ∀ c ∈ (trimEnd rest).head?, Route.isNamePart c = false := by
    intro c first
    cases rest with
    | nil => cases first
    | cons d rest =>
        rw [trimEnd_cons] at first
        split at first
        · cases first
        · exact ends c first
  rw [shape, Parts.addLine, ofLine?_named named ends', trim_trimEnd]

variable {tag : WrittenTag} {tags : List WrittenTag}

theorem whole_of_isName {name : List Char} (named : Route.isName name = true) :
    ∀ c ∈ name, isLineBreak c = false :=
  fun c listed => not_isLineBreak_of_visible
    (isBlank_of_isNamePart (Route.isNamePart_of_isName named c listed))

/-- **The lines of a written tag are read as one tag** after those before it. -/
theorem foldl_tag (h : tag.IsWellFormed) (description : List (List Char)) (done : List Tag) :
    ((lines tag.text).map trim).foldl Parts.addLine ⟨description, done⟩ =
      ⟨description, done ++ [tag.read]⟩ := by
  obtain ⟨name, value?⟩ := tag
  have named : Route.isName name = true := h.named
  have whole : ∀ c ∈ '@' :: name, isLineBreak c = false :=
    List.forall_mem_cons.2 ⟨by decide, whole_of_isName named⟩
  cases value? with
  | none =>
      have bare := addLine_named named [] nofun description done
      rw [List.append_nil] at bare
      have text : WrittenTag.text ⟨name, none⟩ = '@' :: name := by
        rw [WrittenTag.text, WrittenTag.valueText, List.append_nil]
      rw [text, lines_of_whole whole (List.cons_ne_nil '@' name)]
      exact bare
  | some v =>
      have spaced : ∀ c ∈ '@' :: name ++ [' '], isLineBreak c = false := by
        intro c listed
        rcases List.mem_append.1 listed with listed | listed
        · exact whole c listed
        · rw [List.mem_singleton.1 listed]
          decide
      have text : WrittenTag.text ⟨name, some v⟩ = '@' :: name ++ [' '] ++ v := by
        rw [WrittenTag.text, WrittenTag.valueText, List.append_assoc]
        rfl
      have begins (line : List Char) :
          Parts.addLine ⟨description, done⟩ (trim ('@' :: name ++ [' '] ++ line)) =
            ⟨description, done ++ [⟨name, trim line⟩]⟩ := by
        have first := addLine_named named (' ' :: line) (by rintro _ ⟨⟩; rfl) description done
        rw [trim_cons_of_blank (c := ' ') (by decide)] at first
        rw [List.append_assoc]
        exact first
      rw [text, lines_append_of_whole spaced (by simp)]
      cases split : lines v with
      | nil =>
          have single := begins []
          rw [List.append_nil] at single
          rw [WrittenTag.read, Option.getD_some, stripped, split]
          exact single
      | cons line more =>
          have free : ∀ line ∈ more.map trim, ¬ BeginsTag line := by
            intro _ trimmed
            obtain ⟨other, listed, rfl⟩ := List.mem_map.1 trimmed
            exact h.free v rfl other (by rw [split]; exact List.mem_cons_of_mem _ listed)
          rw [WrittenTag.read, Option.getD_some, stripped, split, List.map_cons, List.foldl_cons,
            begins, foldl_more free, List.flatMap_cons, List.flatMap_def]

/-- The lines of written tags are read as these tags. -/
theorem foldl_tags (h : ∀ tag ∈ tags, tag.IsWellFormed) (description : List (List Char))
    (done : List Tag) :
    ((lines (join ['\n'] (tags.map WrittenTag.text))).map trim).foldl Parts.addLine
      ⟨description, done⟩ = ⟨description, done ++ tags.map WrittenTag.read⟩ := by
  induction tags generalizing done with
  | nil =>
      rw [List.map_nil, List.map_nil, List.append_nil]
      rfl
  | cons tag more ih =>
      obtain ⟨first, others⟩ := List.forall_mem_cons.1 h
      cases more with
      | nil => exact foldl_tag first description done
      | cons next more =>
          have tail := ih others (done ++ [tag.read])
          rw [List.append_assoc, List.singleton_append, ← List.map_cons] at tail
          have feed : join ['\n'] ((tag :: next :: more).map WrittenTag.text) =
              tag.text ++ '\n' :: join ['\n'] ((next :: more).map WrittenTag.text) := by
            simp only [List.map_cons, join, List.append_assoc, List.singleton_append]
          rw [feed]
          rcases lines_append_feed tag.text (join ['\n'] ((next :: more).map WrittenTag.text)) with
            same | same
          · rw [same, List.map_append, List.foldl_append, foldl_tag first]
            exact tail
          · rw [same, List.map_append, List.foldl_append, foldl_tag first, List.map_cons (l := lines _),
              List.foldl_cons, show trim [] = [] from rfl, addLine_empty description (by simp)]
            exact tail

/-! ## Free text -/

variable {description : List (List Char)}

theorem join_cons_of_ne_nil (first : List Char) {more : List (List Char)} (some : more ≠ []) :
    join ['\n'] (first :: more) = first ++ '\n' :: join ['\n'] more := by
  cases more with
  | nil => exact absurd rfl some
  | cons second more =>
      rw [join, List.append_assoc, List.singleton_append]
      exact some

/-- The first of several texts is what they begin with together. -/
theorem exists_join_cons (first : List Char) (more : List (List Char)) :
    ∃ rest, join ['\n'] (first :: more) = first ++ rest := by
  cases more with
  | nil => exact ⟨[], (List.append_nil first).symm⟩
  | cons second more => exact ⟨_, join_cons_of_ne_nil first (List.cons_ne_nil second more)⟩

/-- The last of several texts is what they end with together. -/
theorem exists_join_concat (front : List (List Char)) (last : List Char) :
    ∃ before, join ['\n'] (front ++ [last]) = before ++ last := by
  induction front with
  | nil => exact ⟨[], rfl⟩
  | cons first front ih =>
      obtain ⟨before, same⟩ := ih
      refine ⟨first ++ '\n' :: before, ?_⟩
      rw [List.cons_append, join_cons_of_ne_nil first (by simp), same, List.append_assoc,
        List.cons_append]

/-- Whole lines in front of other texts stay the lines they are. -/
theorem lines_join_append (whole : ∀ line ∈ description, ∀ c ∈ line, isLineBreak c = false)
    {others : List (List Char)} (some : others ≠ []) :
    lines (join ['\n'] (description ++ others)) = description ++ lines (join ['\n'] others) := by
  induction description with
  | nil => rfl
  | cons line description ih =>
      obtain ⟨first, more⟩ := List.forall_mem_cons.1 whole
      rw [List.cons_append, join_cons_of_ne_nil line (List.append_ne_nil_of_right_ne_nil _ some),
        lines_append_feed_of_whole first, ih more, List.cons_append]

namespace IsDescription

theorem lines_join (h : IsDescription description) : lines (join ['\n'] description) = description := by
  rcases List.eq_nil_or_concat' description with rfl | ⟨front, last, rfl⟩
  · rfl
  · rw [lines_join_append (fun line listed => h.whole line (List.mem_append_left _ listed))
      (List.cons_ne_nil last []), join, lines_of_whole (h.whole last (by simp)) (h.last last (by simp))]

/-- Free text begins with something visible. -/
theorem exists_cons (h : IsDescription description) (some : description ≠ []) :
    ∃ c rest, join ['\n'] description = c :: rest ∧ isBlank c = false := by
  obtain ⟨line, more, rfl⟩ := List.exists_cons_of_ne_nil some
  obtain ⟨c, line, rfl⟩ := List.exists_cons_of_ne_nil (h.first line rfl)
  obtain ⟨rest, same⟩ := exists_join_cons (c :: line) more
  exact ⟨c, line ++ rest, same, visible_of_trim (h.trimmed _ (List.mem_cons_self ..))⟩

theorem trim_join (h : IsDescription description) :
    trim (join ['\n'] description) = join ['\n'] description := by
  by_cases none : description = []
  · rw [none]
    rfl
  · obtain ⟨c, rest, same, visible⟩ := h.exists_cons none
    obtain ⟨front, last, rfl⟩ := (List.eq_nil_or_concat' description).resolve_left none
    obtain ⟨before, ending⟩ := exists_join_concat front last
    have whole := trimEnd_of_trim (h.trimmed last (by simp))
    have trimmed := trimEnd_append_of_trimEnd whole (h.last last (by simp)) before
    rw [same, trim_eq_trimEnd_of_visible visible, ← same, ending, trimmed]

theorem isEmpty_join (h : IsDescription description) :
    (join ['\n'] description).isEmpty = description.isEmpty := by
  by_cases none : description = []
  · rw [none]
    rfl
  · obtain ⟨c, rest, same, -⟩ := h.exists_cons none
    rw [same, List.isEmpty_eq_false_iff.2 none]
    rfl

end IsDescription

/-! ## Written texts -/

/-- A documentation text with well-formed lines and tags. -/
structure Written.IsWellFormed (doc : Written) : Prop where
  description : IsDescription doc.description
  tags : ∀ tag ∈ doc.tags, tag.IsWellFormed

variable {doc : Written}

theorem Written.IsWellFormed.exists_cons (h : doc.IsWellFormed) (some : doc.tags ≠ []) :
    ∃ c rest, doc.text = c :: rest ∧ isBlank c = false := by
  obtain ⟨tag, more, tags⟩ := List.exists_cons_of_ne_nil some
  cases free : doc.description with
  | nil =>
      obtain ⟨rest, same⟩ := exists_join_cons tag.text (more.map WrittenTag.text)
      refine ⟨'@', tag.name ++ tag.valueText ++ rest, ?_, by decide⟩
      rw [Written.text, free, tags, List.nil_append, List.map_cons, same]
      rfl
  | cons line others =>
      have first := h.description.first line (by rw [free]; rfl)
      have trimmed := h.description.trimmed line (by rw [free]; exact List.mem_cons_self ..)
      obtain ⟨c, line, rfl⟩ := List.exists_cons_of_ne_nil first
      obtain ⟨rest, same⟩ := exists_join_cons (c :: line) (others ++ doc.tags.map WrittenTag.text)
      refine ⟨c, line ++ rest, ?_, visible_of_trim trimmed⟩
      rw [Written.text, free, List.cons_append, same]
      rfl

/-- Empty lines at the end are nothing that goes on with a tag. -/
theorem eq_of_foldl_replicate {n : Nat} {free : List (List Char)} {done : List Tag}
    (some : done ≠ []) (h : (List.replicate n []).foldl Parts.addLine parts = ⟨free, done⟩) :
    parts = ⟨free, done⟩ := by
  induction n generalizing parts with
  | zero => exact h
  | succ n ih =>
      rw [List.replicate_succ, List.foldl_cons] at h
      have after := ih h
      obtain ⟨free', done'⟩ := parts
      cases done' with
      | nil =>
          rw [addLine_free not_beginsTag_nil] at after
          exact absurd (congrArg Parts.tags after).symm some
      | cons tag more =>
          rw [addLine_empty free' (List.cons_ne_nil tag more)] at after
          exact after

/-- **A written text is read as its free lines and its tags.** -/
theorem ofText_text (h : doc.IsWellFormed) :
    Parts.ofText doc.text = ⟨doc.description, doc.tags.map WrittenTag.read⟩ := by
  have free : doc.description.map trim = doc.description :=
    (List.map_congr_left h.description.trimmed).trans (List.map_id' _)
  by_cases none : doc.tags = []
  · rw [Parts.ofText, Written.text, none, List.map_nil, List.append_nil, h.description.trim_join,
      h.description.lines_join, free, foldl_free h.description.free, List.nil_append]
    rfl
  · have whole : ((lines doc.text).map trim).foldl Parts.addLine ⟨[], []⟩ =
        ⟨doc.description, doc.tags.map WrittenTag.read⟩ := by
      rw [Written.text, lines_join_append h.description.whole (by simpa using none), List.map_append,
        free, List.foldl_append, foldl_free h.description.free, foldl_tags h.tags, List.nil_append,
        List.nil_append]
    obtain ⟨c, rest, same, visible⟩ := h.exists_cons none
    obtain ⟨n, shape⟩ := map_trim_lines_trimEnd doc.text
    rw [shape, List.foldl_append] at whole
    rw [Parts.ofText, same, trim_eq_trimEnd_of_visible visible, ← same]
    exact eq_of_foldl_replicate (by simpa using none) whole

/-! ## Annotations -/

theorem value?_read {said : Option Json} (h : tag.Means said) : tag.read.value? = .ok said := by
  cases h with
  | bare => rfl
  | @value name v j plain read =>
      have again := Json.Reader.read_stripped plain read
      have some : stripped v ≠ [] := by
        intro none
        rw [none] at again
        cases again
      rw [Tag.value?, if_neg (by simpa [WrittenTag.read] using some)]
      simp only [WrittenTag.read, Option.getD_some, again]
  | @dropped name v c listed visible unread =>
      have some := stripped_ne_nil listed visible
      rw [Tag.value?, if_neg (by simpa [WrittenTag.read] using some)]
      simp only [WrittenTag.read, Option.getD_some, unread]

theorem writeTags_read {meanings : List (Option Json)}
    (means : List.Forall₂ WrittenTag.Means tags meanings) (done : Table Json) :
    writeTags done (tags.map WrittenTag.read) = .ok (Table.putAll done (entries tags meanings)) := by
  induction means generalizing done with
  | nil => rfl
  | @cons tag said _ _ first _ ih =>
      rw [List.map_cons, writeTags, value?_read first]
      cases said with
      | none => exact ih done
      | some v => exact ih _

/-- **The annotations of a written text are its description and, over it, what its tags say**, in their
order. -/
theorem annotationsOf_text {meanings : List (Option Json)} (wellFormed : doc.IsWellFormed)
    (means : List.Forall₂ WrittenTag.Means doc.tags meanings) :
    annotationsOf (String.ofList doc.text) =
      .ok (Table.putAll (described doc.description) (entries doc.tags meanings)) := by
  rw [annotationsOf, String.toList_ofList, ofText_text wellFormed]
  simp only [wellFormed.description.trim_join, wellFormed.description.isEmpty_join]
  exact writeTags_read means _

/-! ## Integers that are too long -/

/-- A description of three lines, a tag without a value, a value over two lines and a text that is no
value. -/
def sizes : Written where
  description := ["Sizes.".toList, [], "In order.".toList]
  tags := [⟨"ignore".toList, none⟩, ⟨"enum".toList, some "[1,\n   2]".toList⟩,
    ⟨"format".toList, some "\x7b1".toList⟩]

theorem read_sizes : Json.read "[1,\n   2]".toList = .ok (.arr [.int 1, .int 2]) := by
  have one (s : List Char) : Json.Reader.scalar ('1' :: ',' :: s) = .ok (.int 1, ',' :: s) := rfl
  have two (s : List Char) : Json.Reader.scalar ('2' :: ']' :: s) = .ok (.int 2, ']' :: s) := rfl
  have last : Json.Reader.Reads (.items [.int 2]) ['2', ']'] [] :=
    .lastItem (.scalar (by decide) (by decide) (by decide) (two _)) rfl
  refine Json.Reader.read_eq_ok_iff.2 ⟨[], ?_, rfl⟩
  show Json.Reader.Reads _ ['[', '1', ',', '\n', ' ', ' ', ' ', '2', ']'] []
  exact .array (by decide)
    (.item (.scalar (by decide) (by decide) (by decide) (one _)) rfl last)

theorem sizes_isWellFormed : sizes.IsWellFormed := by
  have whole : (sizes.description.all fun line => line.all fun c => !isLineBreak c) = true := by
    decide
  simp only [List.all_eq_true, Bool.not_eq_true'] at whole
  constructor
  · refine ⟨whole, by decide, ?_, by decide, by decide⟩
    intro line listed
    simp only [sizes, List.mem_cons, List.not_mem_nil, or_false] at listed
    rcases listed with rfl | rfl | rfl <;> rintro ⟨c, rest, same, -⟩ <;> cases same
  · intro tag listed
    simp only [sizes, List.mem_cons, List.not_mem_nil, or_false] at listed
    rcases listed with rfl | rfl | rfl
    · exact ⟨by decide, nofun⟩
    · refine ⟨by decide, ?_⟩
      rintro v ⟨⟩ line listed ⟨c, rest, same, -⟩
      have trimmed : trim line ∈ (lines "[1,\n   2]".toList).map trim := List.mem_map_of_mem listed
      rw [same, show (lines "[1,\n   2]".toList).map trim = ["[1,".toList, "2]".toList] by decide] at trimmed
      simp at trimmed
    · refine ⟨by decide, ?_⟩
      rintro v ⟨⟩ line listed ⟨c, rest, same, -⟩
      have trimmed : trim line ∈ (lines "\x7b1".toList).map trim := List.mem_map_of_mem listed
      rw [same, show (lines "\x7b1".toList).map trim = ["\x7b1".toList] by decide] at trimmed
      simp at trimmed

theorem annotationsOf_sizes :
    annotationsOf "Sizes.\n\nIn order.\n@ignore\n@enum [1,\n   2]\n@format \x7b1" =
      .ok [("description", .str "Sizes.\n\nIn order."), ("ignore", .bool true),
        ("enum", .arr [.int 1, .int 2])] := by
  have spelled : "Sizes.\n\nIn order.\n@ignore\n@enum [1,\n   2]\n@format \x7b1" =
      String.ofList sizes.text := by decide
  have plain : HasPlainBreaks "[1,\n   2]".toList := by
    have checked : ("[1,\n   2]".toList.all fun c => !isLineBreak c || c == '\n') = true := by decide
    intro c listed broken
    have one := List.all_eq_true.1 checked c listed
    rw [broken] at one
    exact .inl (beq_iff_eq.1 one)
  have means : List.Forall₂ WrittenTag.Means sizes.tags
      [some (.bool true), some (.arr [.int 1, .int 2]), none] :=
    .cons .bare (.cons (.value plain read_sizes)
      (.cons (.dropped (c := '1') (by decide) (by decide) rfl) .nil))
  rw [spelled]
  exact annotationsOf_text sizes_isWellFormed means

end RouteContract.Documentation

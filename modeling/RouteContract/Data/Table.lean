/-!
# Tables in order of first insertion

A table is a list of named values in which each name is written once. Writing a name that is already
there replaces its value where it stands; a new name goes to the end. The order is part of a table:
everything that prints or walks one follows it.
-/

namespace RouteContract

set_option autoImplicit false

/-- Named values in the order in which the names were first written. -/
abbrev Table (α : Type) := List (String × α)

namespace Table

variable {α β : Type}

/-- The value under a name. -/
def get? : Table α → String → Option α
  | [], _ => none
  | (name, value) :: rest, key => if name = key then some value else get? rest key

/-- Whether a name is in the table. -/
def has (t : Table α) (key : String) : Bool := (get? t key).isSome

/-- The names in order. -/
def keys (t : Table α) : List String := t.map Prod.fst

/-- The values in order. -/
def values (t : Table α) : List α := t.map Prod.snd

/-- Write a value under a name. -/
def put : Table α → String → α → Table α
  | [], key, value => [(key, value)]
  | (name, old) :: rest, key, value =>
      if name = key then (name, value) :: rest else (name, old) :: put rest key value

/-- Write all entries of a second table over a first one. -/
def putAll (t s : Table α) : Table α := s.foldl (fun acc entry => put acc entry.1 entry.2) t

/-- The table that a list of entries leaves, later entries over earlier ones. -/
def ofList (entries : List (String × α)) : Table α := putAll [] entries

/-- Take a name out. -/
def erase (t : Table α) (key : String) : Table α := t.filter fun entry => entry.1 != key

/-- Put an element at the end of the list under a name. -/
def append (t : Table (List α)) (key : String) (value : α) : Table (List α) :=
  put t key ((get? t key).getD [] ++ [value])

/-- Apply a function to every value. -/
def mapValues (f : α → β) (t : Table α) : Table β := t.map fun entry => (entry.1, f entry.2)

/-! ## Reading what was written -/

@[simp] theorem get?_nil (key : String) : get? ([] : Table α) key = none := rfl

/-- A name reads the value last written under it. -/
@[simp] theorem get?_put_self (t : Table α) (key : String) (value : α) :
    get? (put t key value) key = some value := by
  induction t with
  | nil => simp [put, get?]
  | cons entry rest ih =>
    obtain ⟨name, old⟩ := entry
    by_cases h : name = key <;> simp [put, get?, h, ih]

/-- Writing one name leaves the others. -/
theorem get?_put_of_ne (t : Table α) {key other : String} (h : other ≠ key) (value : α) :
    get? (put t key value) other = get? t other := by
  induction t with
  | nil => simp [put, get?, Ne.symm h]
  | cons entry rest ih =>
    obtain ⟨name, old⟩ := entry
    by_cases hn : name = key
    · subst hn
      simp [put, get?, Ne.symm h]
    · by_cases ho : name = other
      · subst ho
        simp [put, get?, h]
      · simp [put, get?, hn, ho, ih]

/-- The names after a write: the same ones, or one more at the end. -/
theorem keys_put (t : Table α) (key : String) (value : α) :
    keys (put t key value) = if key ∈ keys t then keys t else keys t ++ [key] := by
  induction t with
  | nil => simp [put, keys]
  | cons entry rest ih =>
    obtain ⟨name, old⟩ := entry
    by_cases h : name = key
    · subst h
      simp [put, keys]
    · have hk : key ≠ name := fun e => h e.symm
      simp only [put, if_neg h]
      simp only [keys, List.map_cons, List.mem_cons, hk, false_or] at ih ⊢
      by_cases hm : key ∈ rest.map Prod.fst <;> simp [hm, ih]

/-- A name is in a table exactly when it is among its names. -/
theorem has_iff_mem_keys (t : Table α) (key : String) : has t key = true ↔ key ∈ keys t := by
  induction t with
  | nil => simp [has, get?, keys]
  | cons entry rest ih =>
    obtain ⟨name, old⟩ := entry
    by_cases h : name = key
    · simp [has, get?, keys, h]
    · have hk : key ≠ name := fun e => h e.symm
      simpa [has, get?, keys, h, hk] using ih

/-- A value that is read stands in the table. -/
theorem mem_of_get? {t : Table α} {key : String} {value : α} (h : get? t key = some value) :
    (key, value) ∈ t := by
  induction t with
  | nil => simp at h
  | cons entry rest ih =>
    obtain ⟨name, old⟩ := entry
    by_cases hn : name = key
    · subst hn
      simp [get?] at h
      simp [h]
    · simp only [get?, if_neg hn] at h
      exact List.mem_cons_of_mem _ (ih h)

end Table

end RouteContract

/-!
# Dictionaries

Values under text keys, kept in ascending order of the keys. Storing under a key that is there
replaces its value.
-/
namespace SqlGateway

/-- The entries of a dictionary; every function that makes one keeps the keys ascending. -/
abbrev Dictionary (α : Type) := List (String × α)

namespace Dictionary

variable {α β : Type}

def get? (key : String) : Dictionary α → Option α
  | [] => none
  | (k, v) :: rest => if k = key then some v else get? key rest

def contains (d : Dictionary α) (key : String) : Bool := (d.get? key).isSome

def insert (key : String) (value : α) : Dictionary α → Dictionary α
  | [] => [(key, value)]
  | (k, v) :: rest =>
    if k = key then (key, value) :: rest
    else if key < k then (key, value) :: (k, v) :: rest
    else (k, v) :: insert key value rest

def erase (key : String) (d : Dictionary α) : Dictionary α := d.filter (·.1 != key)

def keys (d : Dictionary α) : List String := d.map (·.1)

def values (d : Dictionary α) : List α := d.map (·.2)

def mapValues (f : α → β) (d : Dictionary α) : Dictionary β := d.map fun (k, v) => (k, f v)

def ofList (entries : List (String × α)) : Dictionary α :=
  entries.foldl (fun d entry => d.insert entry.1 entry.2) []

@[simp] theorem get?_insert_self (d : Dictionary α) (key : String) (value : α) :
    (d.insert key value).get? key = some value := by
  induction d with
  | nil => simp [insert, get?]
  | cons entry rest ih =>
    obtain ⟨k, v⟩ := entry
    by_cases h : k = key
    · simp [insert, get?, h]
    · by_cases hl : key < k <;> simp [insert, get?, h, hl, ih]

theorem get?_insert_of_ne (d : Dictionary α) {key other : String} (value : α)
    (h : other ≠ key) : (d.insert key value).get? other = d.get? other := by
  induction d with
  | nil => simp [insert, get?, Ne.symm h]
  | cons entry rest ih =>
    obtain ⟨k, v⟩ := entry
    by_cases hk : k = key
    · subst hk; simp [insert, get?, Ne.symm h]
    · by_cases hl : key < k <;> simp [insert, get?, hk, hl, ih, Ne.symm h]

end Dictionary

end SqlGateway

/-!
# Tables by name

A table of values with texts for keys. The entries stand in ascending order of their keys,
each key once, so a table is listed in the order of its keys.
-/

namespace TriggerChain

/-- A table of values, ascending in the key. -/
abbrev KeyTable (α : Type) := List (String × α)

namespace KeyTable

variable {α : Type}

/-- Sets the value of a key; a key that is there already gets the new value. -/
def set (key : String) (value : α) : KeyTable α → KeyTable α
  | [] => [(key, value)]
  | (k, v) :: rest =>
    if key < k then (key, value) :: (k, v) :: rest
    else if key = k then (key, value) :: rest
    else (k, v) :: set key value rest

/-- The value of a key. -/
def get? (key : String) : KeyTable α → Option α
  | [] => none
  | (k, v) :: rest => if k = key then some v else get? key rest

/-- The keys, ascending. -/
def keys (t : KeyTable α) : List String := t.map (·.1)

/-- The value that was set is there. -/
theorem get?_set_self (key : String) (value : α) (t : KeyTable α) :
    get? key (set key value t) = some value := by
  induction t with
  | nil => simp [set, get?]
  | cons entry rest ih =>
    obtain ⟨k, v⟩ := entry
    unfold set
    split
    · simp [get?]
    · split
      · simp [get?]
      · rename_i hne
        simp [get?, Ne.symm hne, ih]

/-- Other keys keep their values. -/
theorem get?_set_of_ne {key other : String} (h : key ≠ other) (value : α)
    (t : KeyTable α) : get? other (set key value t) = get? other t := by
  induction t with
  | nil => simp [set, get?, h]
  | cons entry rest ih =>
    obtain ⟨k, v⟩ := entry
    unfold set
    split
    · simp [get?, h]
    · split
      · rename_i heq
        subst heq
        simp [get?, h]
      · simp [get?, ih]

end KeyTable

end TriggerChain

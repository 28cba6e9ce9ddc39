/-
Values under keys, in the order in which the keys first came: the entries of JSON
objects, the fields of native objects, the listings of folders.
-/

namespace Workbook
namespace Keyed

variable {α : Type}

/-- Sets the value under a key.  A key that is present keeps its place. -/
def put (key : String) (value : α) : List (String × α) → List (String × α)
  | [] => [(key, value)]
  | (k, v) :: rest => if k = key then (k, value) :: rest else (k, v) :: put key value rest

/-- Sets the values under several keys, in turn. -/
def putAll (added entries : List (String × α)) : List (String × α) :=
  added.foldl (fun out (k, v) => put k v out) entries

/-- The entries after every repeated key has been merged into its first place
with its last value. -/
def merged (entries : List (String × α)) : List (String × α) :=
  putAll entries []

/-- The entries without a key. -/
def remove (key : String) (entries : List (String × α)) : List (String × α) :=
  entries.filter fun e => e.1 ≠ key

/-- The key that was set has the value. -/
theorem lookup_put (key : String) (value : α) (entries : List (String × α)) :
    (put key value entries).lookup key = some value := by
  induction entries with
  | nil => simp [put]
  | cons e rest ih =>
    obtain ⟨k, v⟩ := e
    by_cases h : k = key
    · simp [put, h]
    · have h' : (key == k) = false := by simpa using fun e => h e.symm
      simp [put, h, List.lookup_cons, h', ih]

/-- The other keys keep their values. -/
theorem lookup_put_of_ne {key other : String} (h : other ≠ key) (value : α)
    (entries : List (String × α)) :
    (put key value entries).lookup other = entries.lookup other := by
  induction entries with
  | nil =>
    have h' : (other == key) = false := by simpa using h
    simp [put, List.lookup_cons, h']
  | cons e rest ih =>
    obtain ⟨k, v⟩ := e
    by_cases hk : k = key
    · have h' : (other == k) = false := by simpa [hk] using h
      rw [put, if_pos hk, List.lookup_cons, List.lookup_cons, h']
    · rw [put, if_neg hk, List.lookup_cons, List.lookup_cons, ih]

end Keyed
end Workbook

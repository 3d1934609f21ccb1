/-!
# Lists of entries

A list of keys with their values, in the order in which the keys first came.  Setting the value of
a key keeps its place, and a key that is not there yet comes last.  The main statement says that
this changes the value of the key and no other (`lookup_set`).
-/

namespace XmlToJson.Entries

variable {κ ν : Type} [DecidableEq κ]

/-- The entries with the value of `key` replaced, or with a new entry at the end. -/
def set (key : κ) (value : ν) : List (κ × ν) → List (κ × ν)
  | [] => [(key, value)]
  | (other, old) :: rest =>
      if other = key then (other, value) :: rest else (other, old) :: set key value rest

theorem lookup_cons [BEq κ] [LawfulBEq κ] (key other : κ) (value : ν) (rest : List (κ × ν)) :
    ((key, value) :: rest).lookup other =
      if other = key then some value else rest.lookup other := by
  rw [List.lookup_cons]
  by_cases h : other = key
  · simp [h]
  · rw [beq_false_of_ne h, if_neg h]

/-- Setting a key changes its value and no other. -/
theorem lookup_set [BEq κ] [LawfulBEq κ] (key other : κ) (value : ν) (entries : List (κ × ν)) :
    (set key value entries).lookup other =
      if other = key then some value else entries.lookup other := by
  induction entries with
  | nil => exact lookup_cons key other value []
  | cons entry rest ih =>
      obtain ⟨first, old⟩ := entry
      rw [set]
      split
      · next hkey =>
          subst hkey
          rw [lookup_cons, lookup_cons]
          split <;> rfl
      · next hkey =>
          rw [lookup_cons, lookup_cons, ih]
          by_cases hfirst : other = first
          · have hother : other ≠ key := hfirst ▸ hkey
            rw [if_pos hfirst, if_neg hother, if_pos hfirst]
          · rw [if_neg hfirst, if_neg hfirst]

/-- The keys are those from before, with a new one at the end if it was not there. -/
theorem keys_set (key : κ) (value : ν) (entries : List (κ × ν)) :
    (set key value entries).map (·.1) =
      if key ∈ entries.map (·.1) then entries.map (·.1) else entries.map (·.1) ++ [key] := by
  induction entries with
  | nil => rfl
  | cons entry rest ih =>
      obtain ⟨first, old⟩ := entry
      rw [set]
      split
      · next hkey => simp [hkey]
      · next hkey =>
          have hfirst : ¬ key = first := fun h => hkey h.symm
          rw [List.map_cons, ih]
          by_cases hrest : key ∈ rest.map (·.1)
          · simp [hrest]
          · simp [hrest, hfirst]

end XmlToJson.Entries

/-!
# Searching and cutting a text

Where a literal occurs for the first time (`indexOf?`): the text up to that place, the literal and
the text after it are the whole text.

Places in a text can also be given as whole numbers (`place`), from its beginning or, if they are
negative, from its end.  A place beyond an end stands for that end, and a search that finds nothing
answers with the number `-1`, which is no place that a search can find.

The ways to end a line are a line feed, a carriage return, and a carriage return with a line feed
after it.  A text that is read from a file has line feeds only (`withLineFeeds`).
-/

namespace XmlToJson.Text

/-! ## Searching -/

/-- The number of characters before the first occurrence of `literal`. -/
def indexOf? (literal : List Char) : List Char → Option Nat
  | [] => if literal.isEmpty then some 0 else none
  | c :: rest =>
      if literal.isPrefixOf (c :: rest) then some 0 else (indexOf? literal rest).map (· + 1)

/-- A literal that is found stands where it was found. -/
theorem eq_of_indexOf? {literal text : List Char} {index : Nat}
    (h : indexOf? literal text = some index) :
    text = text.take index ++ literal ++ text.drop (index + literal.length) := by
  induction text generalizing index with
  | nil =>
      rcases literal with - | ⟨c, rest⟩
      · simp
      · simp [indexOf?] at h
  | cons c rest ih =>
      rw [indexOf?] at h
      split at h
      · next hfront =>
          obtain rfl : 0 = index := by simpa using h
          obtain ⟨tail, htail⟩ := List.isPrefixOf_iff_prefix.1 hfront
          simp [← htail]
      · obtain ⟨before, hbefore, rfl⟩ := Option.map_eq_some_iff.1 h
        have hrest := ih hbefore
        rw [show before + 1 + literal.length = before + literal.length + 1 by omega]
        simpa using hrest

/-- What is found lies inside the text. -/
theorem indexOf?_add_le {literal text : List Char} {index : Nat}
    (h : indexOf? literal text = some index) : index + literal.length ≤ text.length := by
  induction text generalizing index with
  | nil =>
      rcases literal with - | ⟨c, rest⟩
      · simp [indexOf?] at h; simp [← h]
      · simp [indexOf?] at h
  | cons c rest ih =>
      rw [indexOf?] at h
      split at h
      · next hfront =>
          obtain rfl : 0 = index := by simpa using h
          simpa using ( List.isPrefixOf_iff_prefix.1 hfront).length_le
      · obtain ⟨before, hbefore, rfl⟩ := Option.map_eq_some_iff.1 h
        have := ih hbefore
        simp only [List.length_cons]
        omega

/-! ## Places as whole numbers -/

/-- The number of characters in front of a place, in a text of the given length. -/
def place (length : Nat) (index : Int) : Nat :=
  if index < 0 then (index + length).toNat else min index.toNat length

/-- The character at a place, if there is one. -/
def charAt? (text : List Char) (index : Int) : Option Char :=
  if 0 ≤ index then text[index.toNat]?
  else if 0 ≤ index + text.length then text[(index + text.length).toNat]?
  else none

/-- The characters from the place `first` up to the place `last`. -/
def slice (text : List Char) (first last : Int) : List Char :=
  (text.take (place text.length last)).drop (place text.length first)

/-- The place of the first occurrence of `literal` from the place `first` on, or `-1`. -/
def find (literal text : List Char) (first : Int) : Int :=
  if (text.length : Int) < first then -1
  else
    match indexOf? literal (text.drop (place text.length first)) with
    | some before => place text.length first + before
    | none => -1

/-- The place of the last `c` from the place `first` up to the place `last`, or `-1`. -/
def findLast (c : Char) (text : List Char) (first last : Int) : Int :=
  let part := slice text first last
  if c ∈ part then place text.length first + part.length - 1 - part.reverse.idxOf c else -1

/-! ## Ends of lines -/

/-- A text with a line feed at the end of every line. -/
def withLineFeeds : List Char → List Char
  | '\r' :: '\n' :: rest => '\n' :: withLineFeeds rest
  | '\r' :: rest => '\n' :: withLineFeeds rest
  | c :: rest => c :: withLineFeeds rest
  | [] => []

/-- No carriage return is left. -/
theorem not_mem_withLineFeeds (text : List Char) : '\r' ∉ withLineFeeds text := by
  fun_induction withLineFeeds text with
  | case1 rest ih => simp [ih]
  | case2 rest _ ih => simp [ih]
  | case3 c rest _ hc ih => simpa [ih] using fun h => hc h.symm
  | case4 => simp

/-- A text without carriage returns stays as it is. -/
theorem withLineFeeds_of_not_mem {text : List Char} (h : '\r' ∉ text) :
    withLineFeeds text = text := by
  fun_induction withLineFeeds text with
  | case1 rest ih => simp at h
  | case2 rest _ ih => simp at h
  | case3 c rest _ hc ih => simp [ih (fun hr => h (by simp [hr]))]
  | case4 => rfl

end XmlToJson.Text

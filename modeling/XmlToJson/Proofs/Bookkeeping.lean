import XmlToJson.Proofs.Places

/-!
# The counters of a tokenizer

A tokenizer keeps its place in three numbers that each step changes in its own way: a character
that is read adds to them, one that is pushed back takes away from them and searches backwards for
the beginning of a line, and a jump counts and searches in what it passes.  Here the three ways are
shown to agree, whatever sequence of steps and scans a tokenizer goes through.

The numbers are compared with those of a tokenizer that has never moved: `Tokenizer.behind read
rest` stands between `read` and `rest`, and its counters are counted in `read`.  Every single move
leads from one such tokenizer to another (`next_behind_cons`, `back_behind`, `advanceTo_behind`),
and that is all that is said about the numbers.

From there on a tokenizer is compared with a cursor, which has no numbers to go wrong.
`Cursor.tokenizer source` is the tokenizer that stands where a cursor stands, `Scan.carried source`
takes what comes of a scan along, and every operation of the one is that of the other
(`perform_tokenizer`).  A scan of a tokenizer reads one character and decides, again and again,
while a scan of a cursor looks at the whole run at once:

* `run_of_loop` compares them for all loops that read while a condition holds.  `skipBlanks`,
  `reference`, `bareName` and `fragment` are instances of it, each with its own end.
* `quotedValue` and `characterData` call a loop inside a loop, so these are inductions on what is
  left to read, with one case for each way in which `CharacterData.read` takes off the first piece
  (`piece_tokenizer`).
* The four ways of reading a token have one case for each way in which a token can begin.

`places_of_run` is then read off the invariant of cursors, `Cursor.Tracks`: the counters are
counted, no position is refused, and only `back` itself complains that nothing can be pushed back,
although the scans push characters back as well.
-/

namespace XmlToJson

/-! ## Places in a text that is split -/

namespace Text

theorem place_natCast {length index : Nat} (h : index ≤ length) : place length index = index := by
  rw [place, if_neg (by omega), Int.toNat_natCast, Nat.min_eq_left h]

theorem charAt?_behind (read rest : List Char) :
    charAt? (read ++ rest) read.length = rest.head? := by
  rw [charAt?, if_pos (Int.natCast_nonneg _), Int.toNat_natCast,
    List.getElem?_append_right (Nat.le_refl _), Nat.sub_self, List.head?_eq_getElem?]

theorem slice_behind (read part rest : List Char) :
    slice (read ++ (part ++ rest)) read.length ((read ++ part).length : Nat) = part := by
  rw [slice, place_natCast (by simp), place_natCast (by simp), ← List.append_assoc,
    List.take_left, List.drop_left]

theorem find_behind (literal read rest : List Char) :
    find literal (read ++ rest) read.length =
      match indexOf? literal rest with
      | some before => ((read.length + before : Nat) : Int)
      | none => -1 := by
  rw [find, if_neg (by rw [List.length_append]; omega), place_natCast (by simp), List.drop_left]
  cases indexOf? literal rest <;> rfl

/-- The line that is begun behind the last line feed of `part`. -/
theorem lineStart_append (read part : List Char) : lineStart (read ++ part) =
    if '\n' ∈ part then (read ++ part).length - part.reverse.idxOf '\n' else lineStart read := by
  induction part using List.reverseRecOn with
  | nil => simp
  | append_singleton part c ih =>
      rw [← List.append_assoc, lineStart_concat, List.reverse_append, List.reverse_singleton,
        List.singleton_append, List.idxOf_cons]
      simp only [List.length_append, List.length_singleton] at ih ⊢
      by_cases hc : c = '\n'
      · rw [if_pos hc, if_pos (by simp [hc]), beq_iff_eq.2 hc, cond_true, Nat.sub_zero]
      · have hmem : '\n' ∈ part ++ [c] ↔ '\n' ∈ part := by simp [Ne.symm hc]
        rw [if_neg hc, ih, beq_eq_false_iff_ne.2 hc, cond_false]
        simp only [hmem, Nat.add_sub_add_right]

theorem findLast_behind (read : List Char) {part : List Char} (rest : List Char)
    (h : '\n' ∈ part) :
    findLast '\n' (read ++ (part ++ rest)) read.length ((read ++ part).length : Nat) + 1 =
      (lineStart (read ++ part) : Nat) := by
  have hidx : part.reverse.idxOf '\n' < part.length := by
    simpa using List.idxOf_lt_length_of_mem (List.mem_reverse.2 h)
  rw [findLast, slice_behind, if_pos h, place_natCast (by simp), lineStart_append, if_pos h,
    List.length_append]
  omega

/-- A search backwards over everything finds the beginning of the line, also of the first. -/
theorem findLast_start (read rest : List Char) :
    findLast '\n' (read ++ rest) 0 read.length + 1 = (lineStart read : Nat) := by
  by_cases h : '\n' ∈ read
  · exact findLast_behind [] rest h
  · have hnone : slice (read ++ rest) 0 read.length = read := slice_behind [] read rest
    have hstart : lineStart read = lineStart [] := by
      have happend := lineStart_append [] read
      rwa [if_neg h] at happend
    rw [findLast, hnone, if_neg h, hstart]
    rfl

end Text

/-! ## Moves -/

namespace Tokenizer

/-- The tokenizer between `read` and `rest`, with counters that are counted in `read`. -/
def behind (read rest : List Char) (canBack : Bool) : Tokenizer where
  source := read ++ rest
  index := read.length
  line := 1 + read.count '\n'
  lineStart := Text.lineStart read
  canBack

variable {read part rest : List Char} {c : Char} {canBack : Bool}

theorem position_behind : (behind read rest canBack).position = .ok (.advanceOver .start read) := by
  rw [← Position.counted_eq, Position.counted]
  simp only [position, behind]

theorem fail_behind {α : Type} (fault : MarkupFault) :
    (fail fault : Tokenizing α) (behind read rest canBack) =
      .error (.malformed ⟨fault, some (.advanceOver .start read)⟩) (behind read rest canBack) := by
  rw [fail, position_behind]

/-- The character that was read last is placed in front of the counters. -/
theorem lastPosition_behind (hc : c ≠ '\n') :
    lastPosition (behind (read ++ [c]) rest canBack) =
      .ok (.advanceOver .start read) (behind (read ++ [c]) rest canBack) := by
  have hcounted := Position.counted_eq read
  have hcount : (read ++ [c]).count '\n' = read.count '\n' := by
    have hnone : [c].count '\n' = 0 := List.count_eq_zero_of_not_mem (by simpa using hc.symm)
    rw [List.count_append, hnone, Nat.add_zero]
  have hindex : ((read ++ [c]).length : Int) = read.length + 1 := by simp
  have hcolumn : (read.length + 1 - Text.lineStart read : Int) =
      read.length - Text.lineStart read + 1 := by omega
  rw [Position.counted] at hcounted
  simp only [lastPosition, behind, hcount, hindex, Text.lineStart_concat, if_neg hc, hcolumn,
    Int.add_sub_cancel, hcounted]

theorem next_behind_nil : next (behind read [] canBack) = .ok none (behind read [] false) := by
  rw [next, if_pos (by simp [behind])]
  rfl

theorem next_behind_cons :
    next (behind read (c :: rest) canBack) = .ok (some c) (behind (read ++ [c]) rest true) := by
  have hchar : Text.charAt? (read ++ c :: rest) read.length = some c := Text.charAt?_behind _ _
  rw [next, if_neg (by simp only [behind, List.length_append, List.length_cons]; omega)]
  simp only [behind, hchar, List.count_append, Text.lineStart_concat]
  by_cases hc : c = '\n'
  · simp [hc]
    omega
  · simp [hc]

theorem back_behind :
    back (behind (read ++ [c]) rest true) = .ok () (behind read (c :: rest) false) := by
  have hindex : ((read ++ [c]).length : Int) - 1 = read.length := by simp
  have hchar : Text.charAt? (read ++ c :: rest) read.length = some c := Text.charAt?_behind _ _
  have hstart := Text.findLast_start read (c :: rest)
  simp only [back, behind, if_true, hindex, List.append_assoc, List.singleton_append, hchar]
  by_cases hc : c = '\n'
  · rw [if_pos hc, hstart]
    simp [hc]
    omega
  · simp [hc, Text.lineStart_concat, List.count_append]

theorem advanceTo_behind {whole : List Char} (hwhole : whole = part ++ rest) :
    (behind read whole canBack).advanceTo ((read ++ part).length : Nat) =
      behind (read ++ part) rest false := by
  subst hwhole
  have hslice := Text.slice_behind read part rest
  simp only [advanceTo, behind, hslice]
  by_cases h : '\n' ∈ part
  · rw [if_neg (Nat.ne_of_gt (List.count_pos_iff.2 h)), Text.findLast_behind read rest h]
    simp [List.count_append]
    omega
  · have hnone := List.count_eq_zero_of_not_mem h
    rw [if_pos hnone, Text.lineStart_append, if_neg h]
    simp [hnone]

end Tokenizer

/-! ## Cursors and tokenizers -/

/-- The tokenizer that stands in `source` where a cursor stands. -/
def Cursor.tokenizer (source : List Char) (cursor : Cursor) : Tokenizer :=
  .behind (source.take cursor.position.offset) (source.drop cursor.position.offset)
    cursor.previous.isSome

/-- What comes of a scan of a cursor in `source`, for a tokenizer. -/
def Scan.carried {α : Type} (source : List Char) :
    EStateM.Result MarkupError Cursor α → Tokenizer.Outcome α
  | .ok value stop => .ok value (stop.tokenizer source)
  | .error error stop => .error (.malformed error) (stop.tokenizer source)

namespace Cursor

variable {source : List Char} {cursor : Cursor} {c : Char} {rest : List Char}

theorem skipAndStep_zero (cursor : Cursor) : cursor.skipAndStep 0 = cursor.next.2 := by
  rcases cursor with ⟨- | ⟨c, rest⟩, position, previous⟩ <;> rfl

theorem next_skipAndStep (cursor : Cursor) (count : Nat) :
    cursor.next.2.skipAndStep count = cursor.skipAndStep (1 + count) := by
  rw [skipAndStep, skip_next, skipAndStep]

theorem skipAndStep_skipAndStep (cursor : Cursor) (first second : Nat) :
    (cursor.skipAndStep first).skipAndStep second = cursor.skipAndStep (first + (1 + second)) := by
  rw [skipAndStep, skipAndStep_skip, skipAndStep]

theorem rest_skipAndStep (cursor : Cursor) (count : Nat) :
    (cursor.skipAndStep count).rest = cursor.rest.drop (count + 1) := by
  have hnext (between : Cursor) : between.next.2.rest = between.rest.drop 1 := by
    rcases between with ⟨- | ⟨c, rest⟩, position, previous⟩ <;> rfl
  rw [skipAndStep, hnext, skip, List.drop_drop]

theorem fst_next (cursor : Cursor) : cursor.next.1 = cursor.rest.head? := by
  rcases cursor with ⟨- | ⟨c, rest⟩, position, previous⟩ <;> rfl

theorem next_of_rest {cursor : Cursor} (h : cursor.rest = []) :
    cursor.next.2 = { cursor with previous := none } := by
  obtain ⟨rest, position, previous⟩ := cursor
  obtain rfl : rest = [] := h
  rfl

theorem tokenizer_eq_behind {read : List Char} (hsource : source = read ++ cursor.rest)
    (hposition : cursor.position = .advanceOver .start read) :
    cursor.tokenizer source = .behind read cursor.rest cursor.previous.isSome := by
  rw [tokenizer, hposition, Position.offset_advanceOver_start, hsource, List.take_left,
    List.drop_left]

/-- A step adds its character to what has been read. -/
theorem tokenizer_next {read : List Char} (hsource : source = read ++ cursor.rest)
    (hposition : cursor.position = .advanceOver .start read) (hrest : cursor.rest = c :: rest) :
    cursor.next.2.tokenizer source = .behind (read ++ [c]) rest true := by
  obtain ⟨_, position, previous⟩ := cursor
  obtain rfl := hrest
  refine tokenizer_eq_behind (by rw [hsource, List.append_assoc]; rfl) ?_
  rw [Position.advanceOver_append, ← hposition]
  rfl

end Cursor

namespace Tokenizer

variable {source : List Char} {cursor : Cursor} {c : Char} {rest : List Char} {α β : Type}

theorem fail_tokenizer (h : cursor.Tracks source) (fault : MarkupFault) :
    (fail fault : Tokenizing α) (cursor.tokenizer source) =
      Scan.carried source (Scan.fail fault cursor) := by
  obtain ⟨read, hsource, hposition⟩ := h.place
  simp only [Scan.fail, Scan.carried, Cursor.tokenizer_eq_behind hsource hposition, fail_behind,
    hposition]

theorem lastPosition_tokenizer (h : cursor.Tracks source) (hrest : cursor.rest = c :: rest)
    (hc : c ≠ '\n') :
    lastPosition (cursor.next.2.tokenizer source) =
      .ok cursor.position (cursor.next.2.tokenizer source) := by
  obtain ⟨read, hsource, hposition⟩ := h.place
  rw [Cursor.tokenizer_next hsource hposition hrest, hposition]
  exact lastPosition_behind hc

theorem next_tokenizer (h : cursor.Tracks source) :
    next (cursor.tokenizer source) = .ok cursor.rest.head? (cursor.next.2.tokenizer source) := by
  obtain ⟨read, hsource, hposition⟩ := h.place
  rw [Cursor.tokenizer_eq_behind hsource hposition]
  cases hrest : cursor.rest with
  | nil =>
      have hafter : cursor.next.2.tokenizer source = .behind read [] false := by
        rw [Cursor.next_of_rest hrest]
        exact hrest ▸ Cursor.tokenizer_eq_behind hsource hposition
      rw [hafter]
      exact next_behind_nil
  | cons c rest =>
      rw [Cursor.tokenizer_next hsource hposition hrest]
      exact next_behind_cons

theorem back_tokenizer (h : cursor.Tracks source) :
    back (cursor.tokenizer source) = Scan.carried source (Scan.back cursor) := by
  obtain ⟨rest, position, - | ⟨c, place⟩⟩ := cursor
  · rw [back, if_neg (by simp [Cursor.tokenizer, behind]), fail_tokenizer h]
    rfl
  · obtain ⟨read, hsource, hplace⟩ := h.previous c place rfl
    obtain ⟨whole, hwhole, hposition⟩ := h.place
    obtain rfl : whole = read ++ [c] :=
      List.append_cancel_right (by simpa using hwhole.symm.trans hsource)
    have hbefore : (Cursor.mk (c :: rest) place none).tokenizer source =
        .behind read (c :: rest) false := Cursor.tokenizer_eq_behind hsource hplace
    rw [Cursor.tokenizer_eq_behind hwhole hposition]
    refine back_behind.trans ?_
    rw [← hbefore]
    rfl

/-- The character that was read last can be pushed back. -/
theorem backWith_skipAndStep (h : cursor.Tracks source) {count : Nat}
    (hrest : (cursor.skip count).rest = c :: rest) (value : α) :
    backWith value ((cursor.skipAndStep count).tokenizer source) =
      .ok value ((cursor.skip count).tokenizer source) := by
  have hchar : (cursor.skip count).next.1 = some c := by
    rw [Cursor.fst_next, hrest]
    rfl
  rw [backWith, back_tokenizer (h.skipAndStep count), Cursor.skipAndStep, Scan.back,
    Cursor.back?_next hchar]
  rfl

/-! ### Searches and jumps -/

theorem source_tokenizer : (cursor.tokenizer source).source = source :=
  List.take_append_drop _ _

theorem index_tokenizer (h : cursor.Tracks source) :
    (cursor.tokenizer source).index = cursor.position.offset := by
  have hle := h.countedIn.1.offset_le
  simp [Cursor.tokenizer, behind, Nat.min_eq_left hle]

theorem find_tokenizer (h : cursor.Tracks source) (literal : List Char) :
    Text.find literal source cursor.position.offset =
      match Text.indexOf? literal cursor.rest with
      | some before => ((cursor.position.offset + before : Nat) : Int)
      | none => -1 := by
  obtain ⟨read, hsource, hposition⟩ := h.place
  rw [hposition, Position.offset_advanceOver_start, hsource]
  exact Text.find_behind literal read cursor.rest

theorem slice_tokenizer (h : cursor.Tracks source) {count : Nat}
    (hcount : count ≤ cursor.remaining) :
    Text.slice source cursor.position.offset (cursor.position.offset + count : Nat) =
      cursor.rest.take count := by
  obtain ⟨read, hsource, hposition⟩ := h.place
  have hslice := Text.slice_behind read (cursor.rest.take count) (cursor.rest.drop count)
  rwa [List.take_append_drop, ← hsource, List.length_append, List.length_take_of_le hcount,
    ← Position.offset_advanceOver_start, ← hposition] at hslice

theorem advanceTo_tokenizer (h : cursor.Tracks source) {count : Nat}
    (hcount : count ≤ cursor.remaining) :
    (cursor.tokenizer source).advanceTo (cursor.position.offset + count : Nat) =
      (cursor.skip count).tokenizer source := by
  obtain ⟨read, hsource, hposition⟩ := h.place
  have hsplit : source = (read ++ cursor.rest.take count) ++ (cursor.skip count).rest := by
    rw [List.append_assoc, Cursor.skip, List.take_append_drop, hsource]
  have hplace : (cursor.skip count).position =
      .advanceOver .start (read ++ cursor.rest.take count) := by
    rw [Position.advanceOver_append, ← hposition, Cursor.skip]
  have hlength : cursor.position.offset + count = (read ++ cursor.rest.take count).length := by
    rw [hposition, Position.offset_advanceOver_start, List.length_append,
      List.length_take_of_le hcount]
  rw [Cursor.tokenizer_eq_behind hsplit hplace, hlength,
    Cursor.tokenizer_eq_behind hsource hposition]
  exact advanceTo_behind (List.take_append_drop count cursor.rest).symm

theorem advanceTo_end (h : cursor.Tracks source) :
    (cursor.tokenizer source).advanceTo source.length = cursor.skipAll.tokenizer source := by
  obtain ⟨read, hsource, hposition⟩ := h.place
  have hlength : source.length = cursor.position.offset + cursor.remaining := by
    rw [hposition, Position.offset_advanceOver_start, hsource, List.length_append,
      Cursor.remaining]
  rw [hlength, advanceTo_tokenizer h (Nat.le_refl _)]
  rfl

theorem slice_found (h : cursor.Tracks source) {literal : List Char} {before : Nat}
    (hindex : Text.indexOf? literal cursor.rest = some before) :
    Text.slice source cursor.position.offset ((cursor.position.offset + before : Nat) : Int) =
      cursor.rest.take before :=
  slice_tokenizer h (Nat.le_trans (Nat.le_add_right _ _) (Text.indexOf?_add_le hindex))

theorem advanceTo_found (h : cursor.Tracks source) {literal : List Char} {before : Nat}
    (hindex : Text.indexOf? literal cursor.rest = some before) :
    (cursor.tokenizer source).advanceTo
        (((cursor.position.offset + before : Nat) : Int) + literal.length) =
      (cursor.skip (before + literal.length)).tokenizer source := by
  rw [← advanceTo_tokenizer h (Text.indexOf?_add_le hindex), ← Nat.add_assoc]
  rfl

theorem skipPast_tokenizer (h : cursor.Tracks source) (literal : String) :
    skipPast literal (cursor.tokenizer source) =
      .ok (cursor.skipPast literal).1 ((cursor.skipPast literal).2.tokenizer source) := by
  simp only [skipPast, source_tokenizer, index_tokenizer h, find_tokenizer h, Cursor.skipPast]
  cases hindex : Text.indexOf? literal.toList cursor.rest with
  | none => simp only [if_pos (show (-1 : Int) < 0 by decide), advanceTo_end h]
  | some before =>
      have hfound := advanceTo_found h hindex
      rw [String.length_toList] at hfound
      simp only [if_neg (Int.not_lt.2 (Int.natCast_nonneg _)), hfound]

/-! ## Loops -/

/-- A loop that reads while a condition holds comes to the first character for which it does not
hold, and ends behind that. -/
theorem run_of_loop (loop : List Char → Tokenizer → Outcome β) (goes : Char → Bool)
    (ends : List Char → Option Char → Tokenizer → Outcome β)
    (hloop : ∀ run tokenizer, loop run tokenizer =
      match next tokenizer with
      | .ok (some c) after => if goes c then loop (run ++ [c]) after else ends run (some c) after
      | .ok none after => ends run none after
      | .error failure after => .error failure after)
    (h : cursor.Tracks source) (run : List Char) :
    loop run (cursor.tokenizer source) =
      ends (run ++ cursor.rest.takeWhile goes) (cursor.rest.dropWhile goes).head?
        ((cursor.skipAndStep (cursor.rest.takeWhile goes).length).tokenizer source) := by
  induction hrest : cursor.rest generalizing cursor run with
  | nil =>
      rw [hloop, next_tokenizer h, hrest, List.takeWhile_nil, List.dropWhile_nil, List.length_nil,
        Cursor.skipAndStep_zero, List.append_nil]
      rfl
  | cons c rest ih =>
      rw [hloop, next_tokenizer h, hrest]
      simp only [List.head?_cons]
      by_cases hc : goes c = true
      · rw [if_pos hc, ih h.next _ (rest_next hrest), Cursor.next_skipAndStep,
          List.takeWhile_cons_of_pos hc, List.dropWhile_cons_of_pos hc, List.length_cons,
          Nat.add_comm, List.append_assoc, List.singleton_append]
      · rw [if_neg hc, List.takeWhile_cons_of_neg hc, List.dropWhile_cons_of_neg hc,
          List.length_nil, Cursor.skipAndStep_zero, List.append_nil]
        rfl

theorem skipBlanks_tokenizer (h : cursor.Tracks source) :
    skipBlanks (cursor.tokenizer source) = .ok (Scan.skipBlanks cursor).rest.head?
      ((Scan.skipBlanks cursor).next.2.tokenizer source) := by
  refine (run_of_loop (fun _ => skipBlanks) Text.isBlank (fun _ c? after => .ok c? after)
    (fun _ tokenizer => ?_) h []).trans ?_
  · rw [skipBlanks]
    split <;> simp only [*]
  · rw [Scan.rest_skipBlanks_eq]
    rfl

/-- What comes of a reference behind its name. -/
def endReference (opening : String) (name : List Char) :
    Option Char → Tokenizer → Outcome (List Char)
  | some c, after =>
      if c = ';' then .ok (Reference.expand name) after
      else fail (.unterminatedReference opening (String.ofList name)) after
  | none, after => fail (.unterminatedReference opening (String.ofList name)) after

theorem reference_tokenizer (h : cursor.Tracks source) (opening : String) :
    reference opening [] (cursor.tokenizer source) =
      Scan.carried source ((String.toList <$> Scan.reference opening) cursor) := by
  refine (run_of_loop (reference opening) Reference.isNameChar (endReference opening)
    (fun name tokenizer => ?_) h []).trans ?_
  · rw [reference]
    split <;> simp only [*, endReference]
  · have hrest : (cursor.skip (cursor.rest.takeWhile Reference.isNameChar).length).rest =
        cursor.rest.dropWhile Reference.isNameChar := drop_takeWhile _ _
    have hstop := h.skipAndStep (cursor.rest.takeWhile Reference.isNameChar).length
    simp only [map_apply, Scan.reference, hrest, List.nil_append]
    cases cursor.rest.dropWhile Reference.isNameChar with
    | nil =>
        rw [List.head?_nil, endReference, fail_tokenizer hstop]
        rfl
    | cons c behind =>
        simp only [List.head?_cons, endReference, fail_tokenizer hstop]
        by_cases hc : c = ';'
        · subst hc
          simp [Scan.carried]
        · simp [Scan.carried, Scan.fail, hc]

/-- What comes of a bare name at the character that it does not go on with. -/
def endBareName (name : List Char) : Option Char → Tokenizer → Outcome (List Char)
  | some c, after =>
      if Text.isBlank c then .ok name after
      else if Scan.endsName c then backWith name after
      else fail .badNameCharacter after
  | none, after => .ok name after

theorem bareName_tokenizer (h : cursor.Tracks source) (hrest : cursor.rest = c :: rest) :
    bareName [c] (cursor.next.2.tokenizer source) =
      Scan.carried source ((String.toList <$> Scan.bareName) cursor) := by
  refine (run_of_loop bareName Scan.isNameChar endBareName
    (fun name tokenizer => ?_) h.next [c]).trans ?_
  · rw [bareName]
    split <;> simp only [*, endBareName]
    next d after _ =>
      by_cases hblank : Text.isBlank d = true
      · simp [Scan.isNameChar, hblank]
      · by_cases hends : Scan.endsName d = true <;> by_cases hbad : Scan.isBadInName d = true <;>
          simp [Scan.isNameChar, hblank, hends, hbad]
  · have hbehind := Scan.rest_skip_name hrest
    simp only [map_apply, Scan.bareName, hrest, rest_next hrest, Cursor.next_skipAndStep,
      List.take_succ_cons, List.take_zero, List.drop_succ_cons, List.drop_zero,
      List.singleton_append, hbehind]
    rw [Nat.add_comm 1, ← List.length_cons]
    cases hdrop : rest.dropWhile Scan.isNameChar with
    | nil =>
        rw [hdrop] at hbehind
        rw [Cursor.skipAndStep, Cursor.next_of_rest hbehind]
        simp [endBareName, Scan.carried]
        rfl
    | cons d behind =>
        rw [hdrop] at hbehind
        simp only [List.head?_cons, endBareName, backWith_skipAndStep h hbehind,
          fail_tokenizer (h.skipAndStep _)]
        cases Text.isBlank d <;> cases Scan.endsName d <;> simp [Scan.carried, Scan.fail]

/-- What comes of a fragment at the character that it does not go on with. -/
def endFragment (run : List Char) : Option Char → Tokenizer → Outcome (List Char)
  | some c, after => if Text.isBlank c then .ok run after else backWith run after
  | none, after => .ok run after

theorem fragment_tokenizer (h : cursor.Tracks source) (hrest : cursor.rest = c :: rest) :
    fragment [c] (cursor.next.2.tokenizer source) =
      let run := c :: rest.takeWhile Scan.isFragmentChar
      match (cursor.skip run.length).rest with
      | [] => .ok run ((cursor.skip run.length).tokenizer source)
      | d :: _ => .ok run ((if Text.isBlank d then cursor.skipAndStep run.length
          else cursor.skip run.length).tokenizer source) := by
  refine (run_of_loop fragment Scan.isFragmentChar endFragment
    (fun name tokenizer => ?_) h.next [c]).trans ?_
  · rw [fragment]
    split <;> simp only [*, endFragment]
    next d after _ =>
      by_cases hblank : Text.isBlank d = true
      · simp [Scan.isFragmentChar, hblank]
      · by_cases hends : ((Marker.ofChar? d).isSome || Scan.isQuote d) = true <;>
          simp [Scan.isFragmentChar, hblank, hends]
  · have hbehind : (cursor.skip (c :: rest.takeWhile Scan.isFragmentChar).length).rest =
        rest.dropWhile Scan.isFragmentChar := by
      rw [Cursor.skip, hrest, List.length_cons, List.drop_succ_cons, drop_takeWhile]
    simp only [rest_next hrest, Cursor.next_skipAndStep, List.singleton_append, hbehind]
    rw [Nat.add_comm 1, ← List.length_cons]
    cases hdrop : rest.dropWhile Scan.isFragmentChar with
    | nil =>
        rw [hdrop] at hbehind
        rw [Cursor.skipAndStep, Cursor.next_of_rest hbehind]
        rfl
    | cons d behind =>
        rw [hdrop] at hbehind
        simp only [List.head?_cons, endFragment, backWith_skipAndStep h hbehind]
        cases Text.isBlank d <;> simp

/-! ## Character data -/

/-- One piece of character data is what `CharacterData.read` takes off first, or is the reference at
which it breaks off. -/
theorem piece_tokenizer (h : cursor.Tracks source) (hrest : cursor.rest = c :: rest) {stop : Char}
    (hstop : c ≠ stop) :
    (∃ more count, piece c (cursor.next.2.tokenizer source) =
        .ok more ((cursor.skipAndStep count).tokenizer source) ∧
      CharacterData.read stop cursor.rest =
        (CharacterData.read stop (cursor.skipAndStep count).rest).after more (count + 1)) ∨
    ∃ name count, piece c (cursor.next.2.tokenizer source) =
        Scan.carried source (Scan.fail (Scan.brokenReference name) (cursor.skipAndStep count)) ∧
      CharacterData.read stop cursor.rest = ⟨[], count, .brokenReference name⟩ := by
  by_cases hc : c = '&'
  · subst hc
    have hread := CharacterData.read.eq_2 stop '&' rest
    rw [if_neg hstop, if_pos rfl] at hread
    dsimp only at hread
    rw [piece, if_pos rfl, reference_tokenizer h.next, map_apply]
    simp only [Scan.reference, Cursor.skip, rest_next hrest, Cursor.next_skipAndStep,
      Nat.add_comm 1, hrest]
    generalize rest.takeWhile Reference.isNameChar = name at hread ⊢
    rw [hread]
    cases hdrop : rest.drop name.length with
    | nil => exact .inr ⟨name, name.length + 1, rfl, rfl⟩
    | cons d behind =>
        by_cases hd : d = ';'
        · subst hd
          refine .inl ⟨Reference.expand name, name.length + 1, ?_, ?_⟩
          · simp [Scan.carried]
          · rw [Cursor.rest_skipAndStep, hrest, List.drop_succ_cons]
            rfl
        · refine .inr ⟨name, name.length + 1, ?_, ?_⟩
          · simp [hd, Scan.carried, Scan.fail, Scan.brokenReference]
          · simp [hd]
  · refine .inl ⟨[c], 0, ?_, ?_⟩
    · rw [piece, if_neg hc, Cursor.skipAndStep_zero]
    · rw [Cursor.skipAndStep_zero, rest_next hrest, hrest, CharacterData.read_raw rest hstop hc]

theorem quotedValue_eq (quote : Char) (value : List Char) (tokenizer : Tokenizer) :
    quotedValue quote value tokenizer =
      match next tokenizer with
      | .ok (some c) after =>
          if c = quote then .ok value after
          else
            match piece c after with
            | .ok more behind => quotedValue quote (value ++ more) behind
            | .error failure behind => .error failure behind
      | .ok none after => fail .unterminatedString after
      | .error failure after => .error failure after := by
  rw [quotedValue]
  split <;> simp only [*]
  split
  · rfl
  · split <;> simp only [*]

theorem quotedValue_tokenizer (h : cursor.Tracks source) (quote : Char) (value : List Char) :
    quotedValue quote value (cursor.tokenizer source) = Scan.carried source
      (((fun more => value ++ more.toList) <$> Scan.quotedValue quote) cursor) := by
  induction hleft : cursor.remaining using Nat.strongRecOn generalizing cursor value with
  | ind left ih =>
    rw [quotedValue_eq, next_tokenizer h, map_apply]
    cases hrest : cursor.rest with
    | nil =>
        have hread : CharacterData.read quote [] = ⟨[], 0, .exhausted⟩ := CharacterData.read.eq_1 _
        simp only [List.head?_nil, fail_tokenizer h.next, Scan.quotedValue, hrest, hread,
          Cursor.skipAndStep_zero]
        rfl
    | cons c rest =>
        simp only [List.head?_cons]
        by_cases hc : c = quote
        · subst hc
          have hread : CharacterData.read c (c :: rest) = ⟨[], 0, .stopped⟩ := by
            rw [CharacterData.read, if_pos rfl]
          simp [Scan.quotedValue, hrest, hread, Cursor.skipAndStep_zero, Scan.carried]
        · rw [if_neg hc]
          obtain ⟨more, count, hpiece, hread⟩ | ⟨name, count, hpiece, hread⟩ :=
            piece_tokenizer h hrest hc
          · have hless : (cursor.skipAndStep count).remaining < left := by
              rw [Cursor.remaining_skipAndStep, ← hleft, Cursor.remaining, hrest, List.length_cons]
              omega
            rw [hpiece]
            simp only [ih _ hless (h.skipAndStep count) _ rfl, map_apply, Scan.quotedValue, hread,
              CharacterData.after, Cursor.skipAndStep_skipAndStep, Nat.add_assoc]
            generalize CharacterData.read quote (cursor.skipAndStep count).rest = data
            cases data.ending <;> simp [Scan.carried, Scan.fail]
          · rw [hpiece]
            simp only [Scan.quotedValue, hread]
            rfl

theorem characterData_eq (data : List Char) {c : Char} (hc : c ≠ '<') (tokenizer : Tokenizer) :
    characterData data c tokenizer =
      match piece c tokenizer with
      | .ok more behind =>
          match next behind with
          | .ok (some d) after => characterData (data ++ more) d after
          | .ok none after => .ok (data ++ more) after
          | .error failure after => .error failure after
      | .error failure behind => .error failure behind := by
  rw [characterData, if_neg hc]
  split <;> simp only [*]
  split <;> simp only [*]

/-- Character data up to a `<`, of which the first character has been read. -/
theorem characterData_tokenizer (h : cursor.Tracks source) (hrest : cursor.rest = c :: rest)
    (value : List Char) :
    characterData value c (cursor.next.2.tokenizer source) =
      let data := CharacterData.read '<' cursor.rest
      match data.ending with
      | .brokenReference name => Scan.carried source
          (Scan.fail (Scan.brokenReference name) (cursor.skipAndStep data.length))
      | _ => .ok (value ++ data.decoded) ((cursor.skip data.length).tokenizer source) := by
  induction hleft : cursor.remaining using Nat.strongRecOn generalizing cursor c rest value with
  | ind left ih =>
    by_cases hc : c = '<'
    · subst hc
      have hread : CharacterData.read '<' cursor.rest = ⟨[], 0, .stopped⟩ := by
        rw [hrest, CharacterData.read, if_pos rfl]
      have hback := @backWith_skipAndStep _ _ _ _ _ h 0 hrest value
      rw [Cursor.skipAndStep_zero] at hback
      rw [characterData, if_pos rfl, hback, hread]
      simp
    · rw [characterData_eq value hc]
      obtain ⟨more, count, hpiece, hread⟩ | ⟨name, count, hpiece, hread⟩ :=
        piece_tokenizer h hrest hc
      · have hstop := h.skipAndStep count
        rw [hpiece, hread]
        simp only [next_tokenizer hstop]
        cases hbehind : (cursor.skipAndStep count).rest with
        | nil =>
            have hnothing : CharacterData.read '<' [] = ⟨[], 0, .exhausted⟩ :=
              CharacterData.read.eq_1 _
            have hskip : (cursor.skipAndStep count).next.2 = cursor.skip (count + (1 + 0)) := by
              rw [Cursor.next_of_rest hbehind, ← Cursor.skipAndStep_skip]
              rfl
            simp only [List.head?_nil, hnothing, CharacterData.after, hskip, List.append_nil]
        | cons d behind =>
            have hless : (cursor.skipAndStep count).remaining < left := by
              rw [Cursor.remaining_skipAndStep, ← hleft, Cursor.remaining, hrest, List.length_cons]
              omega
            have hrun := ih _ hless hstop hbehind (value ++ more) rfl
            rw [hbehind] at hrun
            simp only [List.head?_cons, hrun, CharacterData.after, Nat.add_assoc,
              Cursor.skipAndStep_skipAndStep, Cursor.skipAndStep_skip, List.append_assoc]
      · rw [hpiece, hread]
        rfl

/-! ## Tokens -/

/-- In front of a token the blanks are skipped, and its first character is read with them. -/
theorem bind_skipBlanks (h : cursor.Tracks source) (step : Option Char → Tokenizing α) :
    (skipBlanks >>= step) (cursor.tokenizer source) =
      match (Scan.skipBlanks cursor).rest with
      | [] => step none ((Scan.skipBlanks cursor).tokenizer source)
      | c :: _ => step (some c) ((Scan.skipBlanks cursor).next.2.tokenizer source) := by
  rw [bind_apply, skipBlanks_tokenizer h]
  cases hrest : (Scan.skipBlanks cursor).rest with
  | nil =>
      have hnext : (Scan.skipBlanks cursor).next.2 = Scan.skipBlanks cursor :=
        Cursor.next_of_rest hrest
      rw [hnext]
      rfl
  | cons c rest => rfl

/-- The first character of a token is no blank, so its place is that of the token. -/
theorem bind_lastPosition (h : cursor.Tracks source)
    (hrest : (Scan.skipBlanks cursor).rest = c :: rest) (step : Position → Tokenizing α) :
    (lastPosition >>= step) ((Scan.skipBlanks cursor).next.2.tokenizer source) =
      step (Scan.skipBlanks cursor).position
        ((Scan.skipBlanks cursor).next.2.tokenizer source) := by
  have hblank : Text.isBlank c = false :=
    @Text.head?_dropWhile Text.isBlank cursor.rest c
      (by rw [← Scan.rest_skipBlanks_eq, hrest]; rfl)
  have hc : c ≠ '\n' := by
    rintro rfl
    exact absurd hblank (by decide)
  rw [bind_apply, lastPosition_tokenizer h.skipBlanks hrest hc]

theorem nextToken_tokenizer (h : cursor.Tracks source) :
    nextToken (cursor.tokenizer source) = Scan.carried source (Scan.nextToken cursor) := by
  have hstart := h.skipBlanks
  rw [nextToken, bind_skipBlanks h, Scan.nextToken]
  cases hrest : (Scan.skipBlanks cursor).rest with
  | nil => exact fail_tokenizer hstart _
  | cons c rest =>
      simp only [bind_lastPosition h hrest]
      by_cases hless : c = '<'
      · simp only [if_pos hless]
        exact fail_tokenizer hstart.next _
      · simp only [if_neg hless]
        cases Marker.ofChar? c with
        | some marker => rfl
        | none =>
            by_cases hquote : Scan.isQuote c = true
            · simp only [if_pos hquote, bind_apply, quotedValue_tokenizer hstart.next, map_apply]
              cases Scan.quotedValue c (Scan.skipBlanks cursor).next.2 <;>
                simp [Scan.carried, pure, EStateM.pure]
            · simp only [if_neg hquote, bind_apply, bareName_tokenizer hstart hrest, map_apply]
              cases Scan.bareName (Scan.skipBlanks cursor) <;>
                simp [Scan.carried, pure, EStateM.pure]

theorem nextContent_tokenizer (h : cursor.Tracks source) :
    nextContent (cursor.tokenizer source) = Scan.carried source (Scan.nextContent cursor) := by
  have hstart := h.skipBlanks
  rw [nextContent, bind_skipBlanks h, Scan.nextContent]
  cases hrest : (Scan.skipBlanks cursor).rest with
  | nil => rfl
  | cons c rest =>
      simp only [bind_lastPosition h hrest]
      by_cases hless : c = '<'
      · simp only [if_pos hless]
        rfl
      · simp only [if_neg hless, bind_apply, characterData_tokenizer hstart hrest, ← hrest]
        generalize CharacterData.read '<' (Scan.skipBlanks cursor).rest = data
        cases data.ending <;> rfl

theorem quotedRun_tokenizer (h : cursor.Tracks source) (hrest : cursor.rest = c :: rest)
    (quote : Char) (start : Position) :
    quotedRun quote start (cursor.next.2.tokenizer source) =
      match Text.indexOf? [quote] rest with
      | none => .ok none (cursor.skipAll.tokenizer source)
      | some length => .ok (some ⟨.fragment, String.ofList (rest.take length), start⟩)
          ((cursor.skip (length + 2)).tokenizer source) := by
  have hnext := h.next
  simp only [quotedRun, source_tokenizer, index_tokenizer hnext, find_tokenizer hnext,
    rest_next hrest]
  cases hindex : Text.indexOf? [quote] rest with
  | none =>
      have hall : cursor.next.2.skipAll = cursor.skipAll := by
        rw [Cursor.skipAll, Cursor.skip_next, Cursor.remaining_next, Cursor.skipAll,
          Cursor.remaining, hrest, List.length_cons, Nat.add_comm, Nat.add_sub_cancel]
      simp only [if_pos (show (-1 : Int) < 0 by decide), advanceTo_end hnext, hall]
  | some length =>
      have hcount : 1 + (length + [quote].length) = length + 2 := by
        rw [List.length_singleton, Nat.add_comm]
      rw [← rest_next hrest] at hindex ⊢
      have hfound := advanceTo_found hnext hindex
      rw [Cursor.skip_next, hcount] at hfound
      simp only [if_neg (Int.not_lt.2 (Int.natCast_nonneg _)), slice_found hnext hindex]
      exact congrArg (EStateM.Result.ok _) hfound

theorem nextFragment_tokenizer (h : cursor.Tracks source) :
    nextFragment (cursor.tokenizer source) = Scan.carried source (Scan.nextFragment cursor) := by
  have hstart := h.skipBlanks
  rw [nextFragment, bind_skipBlanks h, Scan.nextFragment]
  cases hrest : (Scan.skipBlanks cursor).rest with
  | nil => rfl
  | cons c rest =>
      simp only [bind_lastPosition h hrest]
      cases Marker.ofChar? c with
      | some marker => rfl
      | none =>
          by_cases hquote : Scan.isQuote c = true
          · simp only [if_pos hquote, quotedRun_tokenizer hstart hrest]
            cases Text.indexOf? [c] rest <;> rfl
          · simp only [if_neg hquote, bind_apply, fragment_tokenizer hstart hrest]
            cases ((Scan.skipBlanks cursor).skip
              (c :: rest.takeWhile Scan.isFragmentChar).length).rest <;> rfl

theorem cdataText_tokenizer (h : cursor.Tracks source) :
    cdataText (cursor.tokenizer source) = Scan.carried source (Scan.cdataText cursor) := by
  simp only [cdataText, source_tokenizer, index_tokenizer h, find_tokenizer h, Scan.cdataText]
  cases hindex : Text.indexOf? "]]>".toList cursor.rest with
  | none =>
      simp only [if_pos (show (-1 : Int) < 0 by decide), fail_tokenizer h]
  | some length =>
      simp only [if_neg (Int.not_lt.2 (Int.natCast_nonneg _)), slice_found h hindex]
      exact congrArg (EStateM.Result.ok _) (advanceTo_found h hindex)

/-! ## Runs of operations -/

/-- What is made of a result goes along with it. -/
theorem map_carried (change : α → β) (step : Tokenizing α) (scan : Scan α)
    {state : Tokenizer} (h : step state = Scan.carried source (scan cursor)) :
    (change <$> step) state = Scan.carried source ((change <$> scan) cursor) := by
  rw [map_apply, map_apply, h]
  cases scan cursor <;> rfl

/-- An operation on a tokenizer is the one on the cursor that stands at the same place. -/
theorem perform_tokenizer (h : cursor.Tracks source) (operation : Operation) :
    perform operation (cursor.tokenizer source) =
      Scan.carried source (operation.perform cursor) := by
  cases operation with
  | next =>
      rw [perform, map_apply, next_tokenizer h, ← Cursor.fst_next]
      rfl
  | back => exact map_carried _ _ _ (back_tokenizer h)
  | skipPast literal => rw [perform, map_apply, skipPast_tokenizer h]; rfl
  | token => exact map_carried _ _ _ (nextToken_tokenizer h)
  | content => exact map_carried _ _ _ (nextContent_tokenizer h)
  | fragment => exact map_carried _ _ _ (nextFragment_tokenizer h)
  | cdata => exact map_carried _ _ _ (cdataText_tokenizer h)
  | reference opening =>
      rw [perform, map_carried _ _ _ (reference_tokenizer h opening), Operation.perform,
        map_apply, map_apply, map_apply]
      cases Scan.reference opening cursor <;> simp

theorem after_tokenizer (h : cursor.Tracks source) (operation : Operation) :
    after (cursor.tokenizer source) operation =
      (Operation.after cursor operation).tokenizer source := by
  rw [after, perform_tokenizer h, Operation.after]
  cases operation.perform cursor <;> rfl

/-- A run of a tokenizer is the run of the cursor that stands at the same place. -/
theorem run_tokenizer (h : cursor.Tracks source) (operations : List Operation) :
    run operations (cursor.tokenizer source) =
      (Operation.run operations cursor).tokenizer source := by
  induction operations generalizing cursor with
  | nil => rfl
  | cons operation operations ih =>
      change run operations (after (cursor.tokenizer source) operation) = _
      rw [after_tokenizer h]
      exact ih (Operation.tracks_after h operation)

end Tokenizer

/-! ## Counted counters -/

/-- Whether a tokenizer stands in `source` with counters that are counted there in front of its
index, and so with a position that depends on the index alone. -/
structure Tokenizer.CountedIn (source : List Char) (tokenizer : Tokenizer) : Prop where
  source_eq : tokenizer.source = source
  index_nonneg : 0 ≤ tokenizer.index
  index_le : tokenizer.index ≤ source.length
  line : tokenizer.line = 1 + (source.take tokenizer.index.toNat).count '\n'
  lineStart : tokenizer.lineStart = Text.lineStart (source.take tokenizer.index.toNat)
  position : ∃ position, tokenizer.position = .ok position ∧
    position.offset = tokenizer.index ∧ position.CountedIn source

theorem Cursor.Tracks.position_tokenizer {source : List Char} {cursor : Cursor}
    (h : cursor.Tracks source) : (cursor.tokenizer source).position = .ok cursor.position := by
  obtain ⟨read, hsource, hposition⟩ := h.place
  rw [Cursor.tokenizer_eq_behind hsource hposition, Tokenizer.position_behind, hposition]

theorem Cursor.Tracks.countedIn_tokenizer {source : List Char} {cursor : Cursor}
    (h : cursor.Tracks source) : (cursor.tokenizer source).CountedIn source := by
  have hcounted := h.countedIn.1
  have hindex := Tokenizer.index_tokenizer h
  refine ⟨Tokenizer.source_tokenizer, ?_, ?_, ?_, ?_, cursor.position, h.position_tokenizer,
    hindex.symm, hcounted⟩
  · rw [hindex]
    exact Int.natCast_nonneg _
  · rw [hindex]
    exact Int.ofNat_le.2 hcounted.offset_le
  · rw [hindex, Int.toNat_natCast]
    rfl
  · rw [hindex, Int.toNat_natCast]
    rfl

/-- Wherever a run of operations has come in a text, also past failures, the line and the beginning
of the line are those that are counted in front of the index, and no position is refused.  A
character that was read can be pushed back, which leads to the same place, and a token has the
place of its first character.  A failure is an error in the text that reports where reading
stopped, and only pushing back by itself can fail because nothing was read before. -/
theorem places_of_run (text : String) (operations : List Operation) :
    let source := text.toList
    let tokenizer := Tokenizer.run operations (.ofText text)
    tokenizer.CountedIn source ∧
      (∀ c after, Tokenizer.next tokenizer = .ok (some c) after →
        Tokenizer.back after = .ok () { tokenizer with canBack := false }) ∧
      ∀ operation, match Tokenizer.perform operation tokenizer with
        | .ok answer after => after.CountedIn source ∧ ∀ token, answer = .token (some token) →
            token.StandsIn source tokenizer.index.toNat
        | .error failure after => after.CountedIn source ∧
            ∃ error position, failure = .malformed error ∧ after.position = .ok position ∧
              error.position = some position ∧
              (error.fault = .pushedBackTwice → operation = .back) := by
  intro source tokenizer
  have hstart : (Cursor.ofText text).Tracks source := .ofText text
  have htracks := Operation.tracks_run hstart operations
  generalize hcursor : Operation.run operations (Cursor.ofText text) = cursor at htracks
  have htokenizer : tokenizer = cursor.tokenizer source := by
    rw [← hcursor]
    exact Tokenizer.run_tokenizer hstart operations
  rw [htokenizer]
  refine ⟨htracks.countedIn_tokenizer, ?_, ?_⟩
  · intro c after hnext
    rw [Tokenizer.next_tokenizer htracks, ← Cursor.fst_next] at hnext
    obtain ⟨hc, rfl⟩ := EStateM.Result.ok.inj hnext
    rw [Tokenizer.back_tokenizer htracks.next, Scan.back, Cursor.back?_next hc]
    rfl
  · intro operation
    have hstays := Operation.stays_perform htracks operation
    rw [Tokenizer.perform_tokenizer htracks]
    cases hperform : operation.perform cursor with
    | ok answer stop =>
        rw [hperform] at hstays
        refine ⟨hstays.countedIn_tokenizer, ?_⟩
        rintro token rfl
        rw [Tokenizer.index_tokenizer htracks, Int.toNat_natCast]
        exact (Operation.begins_of_perform hperform).standsIn htracks
    | error error stop =>
        rw [hperform] at hstays
        obtain ⟨hstop, hposition, hback⟩ := hstays
        exact ⟨hstop.countedIn_tokenizer, error, stop.position, rfl, hstop.position_tokenizer,
          hposition, hback⟩

/-- Pushing a line feed back leads to the end of its line. -/
example : (Tokenizer.run [.next, .next, .back] (.ofText "a\nb")).position =
    .ok ⟨1, 2, 1, by decide, by decide⟩ := by
  decide

end XmlToJson

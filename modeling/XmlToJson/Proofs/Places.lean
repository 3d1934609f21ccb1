import Mathlib.Data.List.Induction
import XmlToJson.Markup.Tokenizer
import XmlToJson.Proofs.Locality

/-!
# Places are counted

A cursor is moved by steps over one character, by stepping back and by jumps, and a scan mixes them
all.  However it has been moved, its line and its column are the ones that are found by counting in
the text in front of it: `Position.counted` counts them there, with no regard to how reading came to
that place.

## Strategy

* **Counting.**  The line is one more than the number of line feeds in front, and the column is the
  distance to the last of them (`Text.lineStart`, of which `Text.lineStart_spec` says what stands
  around it).  `line_advanceOver` and `column_advanceOver` compare this with going on character by
  character, so step by step one comes to the place that is counted (`counted_eq`).
* **The invariant** is `Cursor.Tracks`: a cursor stands in its text, at the place that is behind the
  characters in front of it, and steps back to the place in front of the last one.  Each single move
  keeps it (`Tracks.skip`, `Tracks.next`, `Tracks.skipAndStep`, `Tracks.back?`).
* **Scans.**  `Scan.Keeps` says of a scan that it keeps to the text in which it begins: it leaves a
  cursor that tracks the text, its value has a place in the text, and a failure reports the place at
  which it stopped.  It is kept by sequences (`Keeps.bind`), so each scan has one short lemma.
* **Tokens.**  That a token has a place in the text does not yet say which one.  `Token.Begins` says
  that it is the place of its first character, the next one that is no blank (`begins_nextToken`,
  `begins_nextContent`, `begins_nextFragment`).
* **Runs.**  An operation keeps the invariant whether it fails or not (`tracks_after`), and so does
  every run of operations (`tracks_run`).  Only stepping back reports that there is nothing to step
  back over (`stays_perform`).

The same is then said of events, where a tag may have read one token ahead, which has its own place
(`keeps_nextReading`), and of the whole sequence of events of a text (`Reader.trace_isIn`).
-/

namespace XmlToJson

/-! ## Counting -/

/-- The number of characters of `read` up to its last line feed, with that one. -/
def Text.lineStart (read : List Char) : Nat :=
  read.length - read.reverse.idxOf '\n'

namespace Text

theorem lineStart_le (read : List Char) : lineStart read ≤ read.length :=
  Nat.sub_le _ _

theorem lineStart_concat (read : List Char) (c : Char) :
    lineStart (read ++ [c]) = if c = '\n' then read.length + 1 else lineStart read := by
  rw [lineStart, List.reverse_append, List.reverse_singleton, List.singleton_append,
    List.idxOf_cons, List.length_append, List.length_singleton]
  by_cases hc : c = '\n'
  · rw [if_pos hc, beq_iff_eq.2 hc, cond_true, Nat.sub_zero]
  · rw [if_neg hc, beq_eq_false_iff_ne.2 hc, cond_false, lineStart, Nat.add_sub_add_right]

/-- The line that has been begun has no line feed yet, and there is one right before it unless it
is the first. -/
theorem lineStart_spec (read : List Char) :
    '\n' ∉ read.drop (lineStart read) ∧
      (lineStart read = 0 ∨ read[lineStart read - 1]? = some '\n') := by
  induction read using List.reverseRecOn with
  | nil => simp [lineStart]
  | append_singleton read c ih =>
      rw [lineStart_concat]
      split
      · next hc =>
          refine ⟨?_, .inr ?_⟩
          · rw [List.drop_eq_nil_of_le (by simp)]
            exact List.not_mem_nil
          · simp [hc]
      · next hc =>
          have hle := lineStart_le read
          obtain ⟨hfree, hfirst⟩ := ih
          refine ⟨?_, hfirst.imp_right fun hfeed => ?_⟩
          · rw [List.drop_append_of_le_length hle, List.mem_append, List.mem_singleton]
            rintro (hmem | hfeed)
            · exact hfree hmem
            · exact hc hfeed.symm
          · obtain ⟨hlt, -⟩ := List.getElem?_eq_some_iff.1 hfeed
            rw [List.getElem?_append_left hlt, hfeed]

end Text

namespace Position

/-- The place behind `read`, counted in it: one more than its line feeds, and the distance to the
last of them. -/
def counted (read : List Char) : Except Fault Position :=
  ofInts (1 + read.count '\n') (read.length - Text.lineStart read + 1) read.length

theorem line_advanceOver (read : List Char) :
    (start.advanceOver read).line = 1 + read.count '\n' := by
  induction read using List.reverseRecOn with
  | nil => rfl
  | append_singleton read c ih =>
      rw [advanceOver_append, List.count_append, advanceOver_cons, advanceOver_nil, advance]
      split
      · next hc =>
          subst hc
          show (start.advanceOver read).line + 1 = _
          rw [ih]
          rfl
      · next hc =>
          have hnone : [c].count '\n' = 0 :=
            List.count_eq_zero_of_not_mem (by simpa using Ne.symm hc)
          show (start.advanceOver read).line = _
          rw [ih, hnone, Nat.add_zero]

theorem column_advanceOver (read : List Char) :
    (start.advanceOver read).column = read.length - Text.lineStart read + 1 := by
  induction read using List.reverseRecOn with
  | nil => rfl
  | append_singleton read c ih =>
      rw [advanceOver_append, Text.lineStart_concat, List.length_append, List.length_singleton,
        advanceOver_cons, advanceOver_nil, advance]
      split
      · rw [Nat.sub_self]
      · have hle := Text.lineStart_le read
        show (start.advanceOver read).column + 1 = _
        omega

theorem offset_advanceOver_start (read : List Char) :
    (start.advanceOver read).offset = read.length :=
  (offset_advanceOver start read).trans (Nat.zero_add _)

/-- Step by step one comes to the place that is counted, and the count is never refused. -/
theorem counted_eq (read : List Char) : counted read = .ok (start.advanceOver read) := by
  have hline := line_advanceOver read
  have hcolumn := column_advanceOver read
  have hoffset := offset_advanceOver_start read
  have hle := Text.lineStart_le read
  have hplace : start.advanceOver read =
      ⟨(start.advanceOver read).line, (start.advanceOver read).column,
        (start.advanceOver read).offset, by omega, by omega⟩ := rfl
  rw [counted, ofInts, dif_neg (by omega), dif_neg (by omega), if_neg (by omega), hplace]
  congr 2 <;> omega

end Position

/-! ## The invariant -/

/-- Whether a position is the place in `source` behind some of its first characters. -/
def Position.IsIn (source : List Char) (position : Position) : Prop :=
  ∃ read rest, source = read ++ rest ∧ position = .advanceOver .start read

def Token.IsIn (source : List Char) (token : Token) : Prop := token.position.IsIn source

/-- Whether a cursor stands in `source`, at the place that is behind the characters in front of it,
and steps back to the place in front of the last of them. -/
structure Cursor.Tracks (source : List Char) (cursor : Cursor) : Prop where
  place : ∃ read, source = read ++ cursor.rest ∧ cursor.position = .advanceOver .start read
  previous : ∀ c place, cursor.previous = some (c, place) →
    ∃ read, source = read ++ c :: cursor.rest ∧ place = .advanceOver .start read

namespace Cursor.Tracks

variable {source : List Char} {cursor : Cursor}

theorem ofText (text : String) : (Cursor.ofText text).Tracks text.toList where
  place := ⟨[], rfl, rfl⟩
  previous := by simp [Cursor.ofText]

theorem isIn (h : cursor.Tracks source) : cursor.position.IsIn source := by
  obtain ⟨read, hsource, hposition⟩ := h.place
  exact ⟨read, cursor.rest, hsource, hposition⟩

theorem skip (h : cursor.Tracks source) (count : Nat) : (cursor.skip count).Tracks source where
  place := by
    obtain ⟨read, hsource, hposition⟩ := h.place
    refine ⟨read ++ cursor.rest.take count, ?_, ?_⟩
    · rw [List.append_assoc, Cursor.skip, List.take_append_drop, hsource]
    · rw [Position.advanceOver_append, ← hposition, Cursor.skip]
  previous := by simp [Cursor.skip]

theorem next (h : cursor.Tracks source) : cursor.next.2.Tracks source := by
  obtain ⟨read, hsource, hposition⟩ := h.place
  rcases cursor with ⟨- | ⟨c, rest⟩, position, previous⟩
  · exact ⟨⟨read, hsource, hposition⟩, by simp [Cursor.next]⟩
  · refine ⟨⟨read ++ [c], ?_, ?_⟩, ?_⟩
    · rw [List.append_assoc]
      exact hsource
    · rw [Position.advanceOver_append, ← hposition]
      rfl
    · intro d place hprevious
      obtain ⟨rfl, rfl⟩ := Prod.mk.inj (Option.some.inj hprevious)
      exact ⟨read, hsource, hposition⟩

theorem skipAndStep (h : cursor.Tracks source) (count : Nat) :
    (cursor.skipAndStep count).Tracks source :=
  (h.skip count).next

theorem skipAll (h : cursor.Tracks source) : cursor.skipAll.Tracks source :=
  h.skip _

theorem skipPast (h : cursor.Tracks source) (literal : String) :
    (cursor.skipPast literal).2.Tracks source := by
  unfold Cursor.skipPast
  split
  · exact h.skip _
  · exact h.skipAll

theorem back? (h : cursor.Tracks source) {earlier : Cursor} (hback : cursor.back? = some earlier) :
    earlier.Tracks source := by
  obtain ⟨⟨c, place⟩, hprevious, rfl⟩ := Option.map_eq_some_iff.1 hback
  exact ⟨h.previous c place hprevious, by simp⟩

theorem skipBlanks (h : cursor.Tracks source) : (Scan.skipBlanks cursor).Tracks source :=
  h.skip _

end Cursor.Tracks

namespace Scan

variable {α β : Type} {source : List Char} {cursor : Cursor} {good : α → Prop} {fine : β → Prop}

/-- Whether what comes of a scan leaves the cursor in `source` with a `good` value, and a failure
reports where the scan stopped.  None of the failures is that two characters were pushed back. -/
def Stays (source : List Char) (good : α → Prop) : EStateM.Result MarkupError Cursor α → Prop
  | .ok value stop => stop.Tracks source ∧ good value
  | .error error stop => stop.Tracks source ∧ error.position = some stop.position ∧
      error.fault ≠ .pushedBackTwice

/-- Whether a scan keeps to the text in which it begins. -/
def Keeps (source : List Char) (good : α → Prop) (scan : Scan α) : Prop :=
  ∀ ⦃cursor⦄, cursor.Tracks source → Stays source good (scan cursor)

theorem stays_fail {fault : MarkupFault} (h : cursor.Tracks source)
    (hfault : fault ≠ .pushedBackTwice) : Stays source good (fail fault cursor) :=
  ⟨h, rfl, hfault⟩

theorem Keeps.pure {value : α} (h : good value) : Keeps source good (pure value : Scan α) :=
  fun _ htracks => ⟨htracks, h⟩

theorem Keeps.bind {step : Scan α} {next : α → Scan β} (hstep : Keeps source good step)
    (hnext : ∀ value, good value → Keeps source fine (next value)) :
    Keeps source fine (step >>= next) := by
  intro cursor h
  have hfirst := hstep h
  rw [bind_apply]
  cases hresult : step cursor with
  | ok value between =>
      rw [hresult] at hfirst
      exact hnext value hfirst.2 hfirst.1
  | error error stop =>
      rw [hresult] at hfirst
      exact hfirst

theorem Keeps.map {step : Scan α} {change : α → β} (h : Keeps source good step)
    (hchange : ∀ value, good value → fine (change value)) :
    Keeps source fine (change <$> step) := by
  rw [← bind_pure_comp]
  exact h.bind fun value hvalue => .pure (hchange value hvalue)

/-! ## Scans of the source -/

theorem keeps_reference (opening : String) :
    Keeps source (fun _ => True) (reference opening) := by
  intro cursor h
  dsimp only [reference]
  split
  · exact ⟨h.skipAndStep _, trivial⟩
  · exact stays_fail (h.skipAndStep _) (by simp)

theorem keeps_quotedValue (quote : Char) :
    Keeps source (fun _ => True) (quotedValue quote) := by
  intro cursor h
  dsimp only [quotedValue]
  split
  · exact ⟨h.skipAndStep _, trivial⟩
  · exact stays_fail (h.skipAndStep _) (by simp)
  · exact stays_fail (h.skipAndStep _) (by simp [brokenReference])

theorem keeps_bareName : Keeps source (fun _ => True) bareName := by
  intro cursor h
  dsimp only [bareName]
  split
  · exact ⟨h.skip _, trivial⟩
  · split
    · exact ⟨h.skipAndStep _, trivial⟩
    · split
      · exact ⟨h.skip _, trivial⟩
      · exact stays_fail (h.skipAndStep _) (by simp)

/-- A text that is made into a token is read where it was. -/
theorem stays_token {token : String → Token} (htoken : ∀ value, (token value).IsIn source)
    (result : EStateM.Result MarkupError Cursor String) :
    Stays source (fun _ => True) result → Stays source (Token.IsIn source) (match result with
      | .ok value stop => .ok (token value) stop
      | .error error stop => .error error stop) := by
  intro h
  cases result with
  | ok value stop => exact ⟨h.1, htoken value⟩
  | error error stop => exact h

theorem keeps_nextToken : Keeps source (Token.IsIn source) nextToken := by
  intro cursor h
  have hstart := h.skipBlanks
  dsimp only [nextToken]
  split
  · exact stays_fail hstart (by simp)
  · split
    · exact stays_fail hstart.next (by simp)
    · split
      · exact ⟨hstart.next, hstart.isIn⟩
      · split
        · refine stays_token (fun value => ?_) _ (keeps_quotedValue _ hstart.next)
          exact hstart.isIn
        · refine stays_token (fun value => ?_) _ (keeps_bareName hstart)
          exact hstart.isIn

/-- Whether a token that may not be there has its place in `source`. -/
def AreIn (source : List Char) (token? : Option Token) : Prop :=
  ∀ token, token? = some token → token.IsIn source

theorem areIn_none : AreIn source none := by
  intro token h
  cases h

theorem areIn_some {token : Token} (h : token.IsIn source) : AreIn source (some token) := by
  intro other hother
  cases hother
  exact h

theorem keeps_nextContent : Keeps source (AreIn source) nextContent := by
  intro cursor h
  have hstart := h.skipBlanks
  dsimp only [nextContent]
  split
  · exact ⟨hstart, areIn_none⟩
  · split
    · exact ⟨hstart.next, areIn_some hstart.isIn⟩
    · split
      · exact stays_fail (hstart.skipAndStep _) (by simp [brokenReference])
      · exact ⟨hstart.skip _, areIn_some hstart.isIn⟩

theorem keeps_nextFragment : Keeps source (AreIn source) nextFragment := by
  intro cursor h
  have hstart := h.skipBlanks
  dsimp only [nextFragment]
  split
  · exact ⟨hstart, areIn_none⟩
  · split
    · exact ⟨hstart.next, areIn_some hstart.isIn⟩
    · split
      · split
        · exact ⟨hstart.skipAll, areIn_none⟩
        · exact ⟨hstart.skip _, areIn_some hstart.isIn⟩
      · split
        · exact ⟨hstart.skip _, areIn_some hstart.isIn⟩
        · split
          · exact ⟨hstart.skipAndStep _, areIn_some hstart.isIn⟩
          · exact ⟨hstart.skip _, areIn_some hstart.isIn⟩

theorem keeps_cdataText : Keeps source (fun _ => True) cdataText := by
  intro cursor h
  dsimp only [cdataText]
  split
  · exact stays_fail h (by simp)
  · exact ⟨h.skip _, trivial⟩

end Scan

/-! ## Where tokens begin -/

/-- Whether a token can begin with the character `c`.  A text that begins with a reference does
not show the character of its text. -/
def Token.Shows (token : Token) (c : Char) : Prop :=
  match token.kind with
  | .marker marker => Marker.ofChar? c = some marker
  | .name => token.value.toList.head? = some c
  | .quoted => Scan.isQuote c = true
  | .text => c = '&' ∨ token.value.toList.head? = some c
  | .fragment => Scan.isQuote c = true ∨ token.value.toList.head? = some c

/-- Whether a token that is read at a cursor has the place of its first character, which is the
next one that is no blank. -/
def Token.Begins (token : Token) (cursor : Cursor) : Prop :=
  ∃ blanks c rest, cursor.rest = blanks ++ c :: rest ∧ Blanks blanks ∧ Text.isBlank c = false ∧
    token.Shows c ∧ token.position = cursor.position.advanceOver blanks

/-- A text that begins with no blank begins in the same way without the blanks behind it. -/
theorem Text.head?_trim_cons {c : Char} {chars : List Char} (hc : isBlank c = false) :
    (trim (c :: chars)).head? = some c := by
  have hlast : [c].dropWhile isBlank = [c] := List.dropWhile_cons_of_neg (by simp [hc])
  rw [trim, List.dropWhile_cons_of_neg (by simp [hc]), List.reverse_cons, List.dropWhile_append]
  split
  · rw [hlast]
    rfl
  · rw [List.reverse_append]
    rfl

namespace Scan

variable {cursor stop : Cursor} {token : Token}

/-- The blanks in front of what is read lead to its place. -/
theorem begins_of_skipBlanks {c : Char} {rest : List Char}
    (hstart : (skipBlanks cursor).rest = c :: rest) (hshows : token.Shows c)
    (hposition : token.position = (skipBlanks cursor).position) : token.Begins cursor := by
  have hdrop := (rest_skipBlanks_eq cursor).symm.trans hstart
  refine ⟨cursor.rest.takeWhile Text.isBlank, c, rest, ?_, ?_, ?_, hshows, ?_⟩
  · rw [← hdrop, List.takeWhile_append_dropWhile]
  · exact List.all_eq_true.1 List.all_takeWhile
  · exact @Text.head?_dropWhile Text.isBlank cursor.rest c (by rw [hdrop]; rfl)
  · have htake : cursor.rest.take (cursor.rest.takeWhile Text.isBlank).length =
        cursor.rest.takeWhile Text.isBlank :=
      List.prefix_iff_eq_take.1 (List.takeWhile_prefix _) |>.symm
    rw [hposition, skipBlanks, Cursor.skip, htake]

theorem begins_nextToken (h : nextToken cursor = .ok token stop) : token.Begins cursor := by
  cases nextToken_eq_ok_iff.1 h with
  | marker hstart hless hmarker => exact begins_of_skipBlanks hstart hmarker rfl
  | quoted hstart hless hmarker hquote hvalue => exact begins_of_skipBlanks hstart hquote rfl
  | name hstart hless hmarker hquote hvalue =>
      refine begins_of_skipBlanks hstart ?_ rfl
      obtain ⟨rfl, -⟩ := ok_of_bareName hstart hvalue
      simp [Token.Shows]

theorem begins_nextContent (h : nextContent cursor = .ok (some token) stop) :
    token.Begins cursor := by
  simp only [nextContent] at h
  split at h
  · simp at h
  · next c rest hstart =>
      split at h
      · next hless =>
          obtain ⟨rfl, -⟩ : _ ∧ _ := by simpa using h
          exact begins_of_skipBlanks hstart (by rw [hless]; rfl) rfl
      · next hless =>
          split at h
          · simp [fail] at h
          · obtain ⟨rfl, -⟩ : _ ∧ _ := by simpa using h
            refine begins_of_skipBlanks hstart ?_ rfl
            by_cases hreference : c = '&'
            · exact .inl hreference
            · refine .inr ?_
              have hblank : Text.isBlank c = false :=
                @Text.head?_dropWhile Text.isBlank cursor.rest c
                  (by rw [← rest_skipBlanks_eq, hstart]; rfl)
              simp only [hstart, CharacterData.read_raw _ hless hreference, CharacterData.after,
                List.singleton_append, String.toList_ofList]
              exact Text.head?_trim_cons hblank

theorem begins_nextFragment (h : nextFragment cursor = .ok (some token) stop) :
    token.Begins cursor := by
  simp only [nextFragment] at h
  split at h
  · simp at h
  · next c rest hstart =>
      split at h
      · next marker hmarker =>
          obtain ⟨rfl, -⟩ : _ ∧ _ := by simpa using h
          exact begins_of_skipBlanks hstart hmarker rfl
      · split at h
        · next hquote =>
            split at h
            · simp at h
            · obtain ⟨rfl, -⟩ : _ ∧ _ := by simpa using h
              exact begins_of_skipBlanks hstart (.inl hquote) rfl
        · split at h
          · obtain ⟨rfl, -⟩ : _ ∧ _ := by simpa using h
            exact begins_of_skipBlanks hstart (.inr (by simp)) rfl
          · obtain ⟨rfl, -⟩ : _ ∧ _ := by simpa using h
            exact begins_of_skipBlanks hstart (.inr (by simp)) rfl

end Scan

/-! ## Runs of operations -/

namespace Operation

/-- Carries out an operation on a cursor. -/
def perform : Operation → Scan Answer
  | .next => fun cursor => .ok (.character cursor.next.1) cursor.next.2
  | .back => (fun _ => .steppedBack) <$> Scan.back
  | .skipPast literal => fun cursor =>
      .ok (.found (cursor.skipPast literal).1) (cursor.skipPast literal).2
  | .token => (fun token => .token (some token)) <$> Scan.nextToken
  | .content => .token <$> Scan.nextContent
  | .fragment => .token <$> Scan.nextFragment
  | .cdata => .text <$> Scan.cdataText
  | .reference opening => .text <$> Scan.reference opening

/-- The cursor that an operation leaves behind, whether it fails or not. -/
def after (cursor : Cursor) (operation : Operation) : Cursor :=
  match operation.perform cursor with
  | .ok _ stop => stop
  | .error _ stop => stop

/-- The cursor behind a sequence of operations, which goes on where one of them has failed. -/
def run (operations : List Operation) (cursor : Cursor) : Cursor :=
  operations.foldl after cursor

variable {source : List Char} {cursor : Cursor}

/-- Of all operations only stepping back reports that there is nothing to step back over. -/
theorem stays_perform (h : cursor.Tracks source) (operation : Operation) :
    match operation.perform cursor with
    | .ok _ stop => stop.Tracks source
    | .error error stop => stop.Tracks source ∧ error.position = some stop.position ∧
        (error.fault = .pushedBackTwice → operation = .back) := by
  have hscan : ∀ {scan : Scan Answer}, Scan.Keeps source (fun _ => True) scan →
      match scan cursor with
      | .ok _ stop => stop.Tracks source
      | .error error stop => stop.Tracks source ∧ error.position = some stop.position ∧
          (error.fault = .pushedBackTwice → operation = .back) := by
    intro scan hkeeps
    have hstays := hkeeps h
    cases hresult : scan cursor with
    | ok answer stop =>
        rw [hresult] at hstays
        exact hstays.1
    | error error stop =>
        rw [hresult] at hstays
        obtain ⟨htracks, hposition, hfault⟩ := hstays
        exact ⟨htracks, hposition, fun hback => absurd hback hfault⟩
  cases operation with
  | next => exact h.next
  | back =>
      rw [perform, map_apply, Scan.back]
      cases hback : cursor.back? with
      | none => exact ⟨h, rfl, fun _ => rfl⟩
      | some earlier => exact h.back? hback
  | skipPast literal => exact h.skipPast literal
  | token => exact hscan (Scan.keeps_nextToken.map fun _ _ => trivial)
  | content => exact hscan (Scan.keeps_nextContent.map fun _ _ => trivial)
  | fragment => exact hscan (Scan.keeps_nextFragment.map fun _ _ => trivial)
  | cdata => exact hscan (Scan.keeps_cdataText.map fun _ _ => trivial)
  | reference opening => exact hscan ((Scan.keeps_reference opening).map fun _ _ => trivial)

/-- The invariant is kept by every operation. -/
theorem tracks_after (h : cursor.Tracks source) (operation : Operation) :
    (after cursor operation).Tracks source := by
  have hstays := stays_perform h operation
  unfold after
  split at hstays
  · exact hstays
  · exact hstays.1

/-- The invariant is kept by every run. -/
theorem tracks_run (h : cursor.Tracks source) (operations : List Operation) :
    (run operations cursor).Tracks source := by
  induction operations generalizing cursor with
  | nil => exact h
  | cons operation operations ih => exact ih (tracks_after h operation)

/-- A token begins at the first character that is no blank. -/
theorem begins_of_perform {operation : Operation} {token : Token} {stop : Cursor}
    (h : operation.perform cursor = .ok (.token (some token)) stop) : token.Begins cursor := by
  cases operation with
  | next | skipPast literal => simp [perform] at h
  | back | cdata | reference opening =>
      obtain ⟨found, -, heq⟩ := ok_of_map h
      simp at heq
  | token =>
      obtain ⟨found, hfound, heq⟩ := ok_of_map h
      obtain rfl : found = token := by simpa using heq
      exact Scan.begins_nextToken hfound
  | content =>
      obtain ⟨found, hfound, heq⟩ := ok_of_map h
      obtain rfl : found = some token := by simpa using heq
      exact Scan.begins_nextContent hfound
  | fragment =>
      obtain ⟨found, hfound, heq⟩ := ok_of_map h
      obtain rfl : found = some token := by simpa using heq
      exact Scan.begins_nextFragment hfound

end Operation

/-! ## Positions from counting -/

/-- Whether a position is the one that is counted at its own offset, which lies in `source`. -/
structure Position.CountedIn (source : List Char) (position : Position) : Prop where
  offset_le : position.offset ≤ source.length
  line : position.line = 1 + (source.take position.offset).count '\n'
  column : position.column =
    position.offset - Text.lineStart (source.take position.offset) + 1
  counted : Position.counted (source.take position.offset) = .ok position

theorem Position.IsIn.countedIn {source : List Char} {position : Position}
    (h : position.IsIn source) : position.CountedIn source := by
  obtain ⟨read, rest, hsource, hposition⟩ := h
  have hoffset : position.offset = read.length := by
    rw [hposition, offset_advanceOver_start]
  have htake : source.take position.offset = read := by
    rw [hoffset, hsource, List.take_left]
  refine ⟨?_, ?_, ?_, ?_⟩
  · rw [hoffset, hsource, List.length_append]
    exact Nat.le_add_right _ _
  · rw [htake, hposition, line_advanceOver]
  · rw [htake, hoffset, hposition, column_advanceOver]
  · rw [htake, hposition, counted_eq]

theorem Cursor.Tracks.countedIn {source : List Char} {cursor : Cursor} (h : cursor.Tracks source) :
    cursor.position.CountedIn source ∧ cursor.rest = source.drop cursor.position.offset := by
  obtain ⟨read, hsource, hposition⟩ := h.place
  refine ⟨h.isIn.countedIn, ?_⟩
  rw [hposition, Position.offset_advanceOver_start, hsource, List.drop_left]

/-- Whether a token that is read in `source` from the place `index` on stands at the first
character there that is no blank. -/
structure Token.StandsIn (source : List Char) (index : Nat) (token : Token) : Prop where
  index_le : index ≤ token.position.offset
  counted : token.position.CountedIn source
  blanks : Blanks ((source.take token.position.offset).drop index)
  first : ∃ c, source[token.position.offset]? = some c ∧ Text.isBlank c = false ∧ token.Shows c

theorem Token.Begins.standsIn {source : List Char} {cursor : Cursor} {token : Token}
    (h : token.Begins cursor) (htracks : cursor.Tracks source) :
    token.StandsIn source cursor.position.offset := by
  obtain ⟨read, hsource, hcursor⟩ := htracks.place
  obtain ⟨blanks, c, rest, hrest, hblanks, hc, hshows, hposition⟩ := h
  rw [hcursor, ← Position.advanceOver_append] at hposition
  rw [hrest, ← List.append_assoc] at hsource
  have hindex : cursor.position.offset = read.length := by
    rw [hcursor, Position.offset_advanceOver_start]
  have hoffset : token.position.offset = (read ++ blanks).length := by
    rw [hposition, Position.offset_advanceOver_start]
  refine ⟨?_, Position.IsIn.countedIn ⟨_, _, hsource, hposition⟩, ?_, c, ?_, hc, hshows⟩
  · rw [hindex, hoffset, List.length_append]
    exact Nat.le_add_right _ _
  · rw [hindex, hoffset, hsource, List.take_left, List.drop_left]
    exact hblanks
  · rw [hoffset, hsource, List.getElem?_append_right (Nat.le_refl _), Nat.sub_self]
    rfl

/-! ## Where events stand -/

/-- Whether an event that was read starts in `source`, and so does the token that has been read
ahead. -/
structure Reading.IsIn (source : List Char) (reading : Reading) : Prop where
  start : reading.start.IsIn source
  pending : Scan.AreIn source reading.pending

namespace Scan

variable {source : List Char} {α : Type} {good : α → Prop}

theorem keeps_textUntil (literal : String) {fault : MarkupFault}
    (hfault : fault ≠ .pushedBackTwice) :
    Keeps source (fun _ => True) (textUntil literal fault) := by
  intro cursor h
  dsimp only [textUntil]
  split
  · exact ⟨h.skip _, trivial⟩
  · exact stays_fail h.skipAll hfault

theorem keeps_refuse {fault : MarkupFault} (hfault : fault ≠ .pushedBackTwice) :
    Keeps source good (refuse fault) :=
  fun _ h => stays_fail h hfault

theorem keeps_demand (condition : Bool) {fault : MarkupFault}
    (hfault : fault ≠ .pushedBackTwice) :
    Keeps source (fun _ => True) (demand condition fault) := by
  unfold demand
  split
  · exact .pure trivial
  · exact keeps_refuse hfault

theorem keeps_markupSort : Keeps source (fun _ => True) markupSort := by
  intro cursor h
  dsimp only [markupSort]
  split
  · exact ⟨h.skip _, trivial⟩
  · exact ⟨h.skip _, trivial⟩
  · exact ⟨h.skip _, trivial⟩

theorem keeps_cdataBracket : Keeps source (fun _ => True) cdataBracket := by
  intro cursor h
  have hnext := h.next
  dsimp only [cdataBracket]
  split
  · next stop heq =>
      rw [heq] at hnext
      exact ⟨hnext, trivial⟩
  · next stop _ heq =>
      rw [heq] at hnext
      exact stays_fail hnext (by simp)

theorem keeps_declarationToken : Keeps source (Token.IsIn source) declarationToken := by
  intro cursor h
  have hfragment := keeps_nextFragment h
  unfold declarationToken
  cases hresult : nextFragment cursor with
  | error error stop =>
      rw [hresult] at hfragment
      exact hfragment
  | ok token? stop =>
      rw [hresult] at hfragment
      obtain ⟨hstop, htoken⟩ := hfragment
      cases token? with
      | none => exact stays_fail hstop (by simp)
      | some token => exact ⟨hstop, htoken token rfl⟩

theorem keeps_declarationEnd (nesting : Nat) :
    Keeps source (fun _ => True) (declarationEnd nesting) := by
  intro cursor h
  fun_induction declarationEnd nesting cursor with
  | case1 nesting cursor error stop hrun =>
      have htoken := keeps_declarationToken h
      rwa [Onward.error_of_run hrun] at htoken
  | case2 nesting cursor token stop shorter hrun hless ih =>
      have htoken := keeps_declarationToken h
      rw [Onward.ok_of_run hrun] at htoken
      exact ih htoken.1
  | case3 cursor token stop shorter hrun =>
      have htoken := keeps_declarationToken h
      rw [Onward.ok_of_run hrun] at htoken
      exact ⟨htoken.1, trivial⟩
  | case4 cursor token stop shorter hrun hless hgreater outer ih =>
      have htoken := keeps_declarationToken h
      rw [Onward.ok_of_run hrun] at htoken
      exact ih htoken.1
  | case5 nesting cursor token stop shorter hrun hless hgreater ih =>
      have htoken := keeps_declarationToken h
      rw [Onward.ok_of_run hrun] at htoken
      exact ih htoken.1

theorem keeps_exclamation : Keeps source (fun _ => True) exclamation := by
  refine keeps_markupSort.bind fun sort _ => ?_
  cases sort with
  | comment => exact (keeps_textUntil _ (by simp)).bind fun _ _ => .pure trivial
  | bracketed =>
      exact keeps_nextToken.bind fun _ _ => (keeps_demand _ (by simp)).bind fun _ _ =>
        keeps_cdataBracket.bind fun _ _ => keeps_cdataText.bind fun _ _ => .pure trivial
  | declaration => exact (keeps_declarationEnd 0).bind fun _ _ => .pure trivial

theorem keeps_closeTag (enclosing : Option String) :
    Keeps source (fun _ => True) (closeTag enclosing) := by
  refine keeps_nextToken.bind fun name _ => ?_
  cases enclosing with
  | none => exact keeps_refuse (by simp)
  | some tag =>
      exact (keeps_demand _ (by simp)).bind fun _ _ => keeps_nextToken.bind fun _ _ =>
        (keeps_demand _ (by simp)).bind fun _ _ => .pure trivial

theorem keeps_markupEvent (enclosing : Option String) (token : Token) :
    Keeps source (fun _ => True) (markupEvent enclosing token) := by
  unfold markupEvent
  split
  · exact keeps_exclamation
  · split
    · exact (keeps_textUntil _ (by simp)).map fun _ _ => trivial
    · split
      · exact keeps_closeTag enclosing
      · split
        · exact .pure trivial
        · exact keeps_refuse (by simp)

theorem keeps_markupReading (enclosing : Option String) :
    Keeps source (Reading.IsIn source) (markupReading enclosing) :=
  keeps_nextToken.bind fun token htoken => (keeps_markupEvent enclosing token).bind fun _ _ =>
    .pure ⟨htoken, areIn_none⟩

theorem keeps_contentReading (tag : String) :
    Keeps source (Reading.IsIn source) (contentReading tag) := by
  refine keeps_nextContent.bind fun token? htoken => ?_
  cases token? with
  | none => exact keeps_refuse (by simp)
  | some token =>
      dsimp only
      split
      · exact .pure ⟨htoken token rfl, areIn_none⟩
      · exact keeps_markupReading (some tag)

theorem keeps_tagReading {token : Token} (htoken : token.IsIn source) :
    Keeps source (Reading.IsIn source) (tagReading token) := by
  unfold tagReading
  split
  · refine keeps_nextToken.bind fun second hsecond => ?_
    split
    · exact keeps_nextToken.bind fun _ _ => (keeps_demand _ (by simp)).bind fun _ _ =>
        .pure ⟨htoken, areIn_none⟩
    · exact .pure ⟨htoken, areIn_some hsecond⟩
  · split
    · exact keeps_nextToken.bind fun _ _ => (keeps_demand _ (by simp)).bind fun _ _ =>
        .pure ⟨htoken, areIn_none⟩
    · exact (keeps_demand _ (by simp)).bind fun _ _ => .pure ⟨htoken, areIn_none⟩

/-- An event is read where it stands, also behind a token that has been read ahead. -/
theorem keeps_nextReading (nest : Nest) {pending : Option Token} (hpending : AreIn source pending) :
    Keeps source (fun reading? => ∀ reading, reading? = some reading → reading.IsIn source)
      (nextReading (nest.place pending)) := by
  have hsome : ∀ {scan : Scan Reading}, Keeps source (Reading.IsIn source) scan →
      Keeps source (fun reading? => ∀ reading, reading? = some reading → reading.IsIn source)
        (some <$> scan) := by
    intro scan hscan
    refine hscan.map fun found hfound reading heq => ?_
    cases heq
    exact hfound
  obtain ⟨openTags, - | name⟩ := nest
  · cases openTags with
    | nil =>
        intro cursor h
        simp only [Nest.place_document, nextReading]
        split
        · exact ⟨h.skipAll, by simp⟩
        · exact hsome (keeps_markupReading none) (h.skip _)
    | cons tag outer => exact hsome (keeps_contentReading tag)
  · cases pending with
    | none => exact keeps_nextToken.bind fun token htoken => hsome (keeps_tagReading htoken)
    | some token => exact hsome (keeps_tagReading (hpending token rfl))

end Scan

/-- Whether the events of a trace stand in `source`, and the fault is reported there. -/
structure Trace.IsIn (source : List Char) (trace : Trace) : Prop where
  start : ∀ entry ∈ trace.entries, entry.start.IsIn source
  behind : ∀ entry ∈ trace.entries, entry.behind.IsIn source
  fault : ∀ error, trace.fault = some error →
    ∃ position, error.position = some position ∧ position.IsIn source

/-- Every event that a reader meets stands in the text that it reads. -/
theorem Reader.trace_isIn {source : List Char} {reader : Reader}
    (hcursor : reader.cursor.Tracks source) (hpending : Scan.AreIn source reader.pending) :
    reader.trace.IsIn source := by
  -- The cursor and the token that was read ahead stay in the text.
  fun_induction Reader.trace reader with
  | case1 reader error stop hread =>
      have hstays := Scan.keeps_nextReading reader.nest hpending hcursor
      rw [show reader.nest.place reader.pending = reader.place from rfl, hread] at hstays
      refine ⟨by simp, by simp, fun found hfound => ?_⟩
      cases hfound
      exact ⟨stop.position, hstays.2.1, hstays.1.isIn⟩
  | case2 reader stop hread => exact ⟨by simp, by simp, by simp⟩
  | case3 reader reading stop hread rest ih =>
      have hstays := Scan.keeps_nextReading reader.nest hpending hcursor
      rw [show reader.nest.place reader.pending = reader.place from rfl, hread] at hstays
      obtain ⟨hstop, hreading⟩ := hstays
      obtain ⟨hstart, hahead⟩ := hreading reading rfl
      obtain ⟨hstarts, hbehind, hfault⟩ := ih hstop hahead
      refine ⟨?_, ?_, hfault⟩
      · rw [List.forall_mem_cons]
        exact ⟨hstart, hstarts⟩
      · rw [List.forall_mem_cons]
        exact ⟨hstop.isIn, hbehind⟩

theorem Trace.ofText_isIn (text : String) : (Trace.ofText text).IsIn text.toList :=
  Reader.trace_isIn (.ofText text) Scan.areIn_none

end XmlToJson

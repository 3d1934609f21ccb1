import XmlToJson.Proofs.Effects
import XmlToJson.Proofs.Places

/-!
# Reading elsewhere

The same characters can be read at the beginning of a text and at a later place of a longer one.
Nothing but the places is different then: each is as far behind the later beginning as it was behind
the first one (`Reader.trace_relocate`).

* **Places.**  `Position.relocate` moves a place behind `base`.  It is not an addition of three
  numbers: the line is moved, but the column only in the line in which `base` stands.  It is still
  compatible with going on by a character (`relocate_advance`), which is all that reading does with
  places, and so with what one comes to from the beginning (`relocate_behind`).
* **Cursors.**  A cursor that is moved has the same characters left (`rest_relocate`), so skipping,
  stepping and skipping blanks lead to the moved cursor (`skip_relocate`, `next_relocate`,
  `skipAndStep_relocate`).
* **Scans.**  `Scan.Relocates` says of two scans that the second does behind `base` what the first
  does, with the same token or failure at the moved place.  It is kept by sequences of scans
  (`Relocates.bind`), so each scan has one lemma.  A declaration is the one loop among them: it goes
  on token by token (`declarationEnd_eq`), and the lemma is an induction on what is left.
* **Events and readers.**  One event is the same wherever its text stands (`relocates_nextReading`);
  a token that has been read ahead is moved with it.  All the events of a reader follow by induction
  on what is unread.

The character over which a cursor could step back is moved with it, so a moved cursor is one that
has come to its place in the same way.
-/

namespace XmlToJson

/-! ## Places -/

namespace Position

/-- The place that is behind `base` what `position` is behind the beginning of a text. -/
def relocate (base position : Position) : Position where
  line := base.line + position.line - 1
  column := if position.line = 1 then base.column + position.column - 1 else position.column
  offset := base.offset + position.offset
  line_pos := by
    have hbase := base.line_pos
    have hline := position.line_pos
    omega
  column_pos := by
    have hbase := base.column_pos
    have hcolumn := position.column_pos
    split <;> omega

variable (base position : Position)

@[simp] theorem relocate_start : base.relocate start = base := by
  simp [relocate, start]

theorem eq_of_numbers {first second : Position} (hline : first.line = second.line)
    (hcolumn : first.column = second.column) (hoffset : first.offset = second.offset) :
    first = second := by
  obtain ⟨line, column, offset, hpositive, hfirst⟩ := first
  obtain rfl : line = second.line := hline
  obtain rfl : column = second.column := hcolumn
  obtain rfl : offset = second.offset := hoffset
  rfl

theorem relocate_advance (c : Char) :
    base.relocate (position.advance c) = (base.relocate position).advance c := by
  have hbase := base.line_pos
  have hcolumn := base.column_pos
  have hline := position.line_pos
  have hpositive := position.column_pos
  by_cases hc : c = '\n'
  · -- A new line begins in column one, wherever the text stands.
    rw [advance, if_pos hc, advance, if_pos hc]
    refine eq_of_numbers ?_ ?_ rfl
    · show base.line + (position.line + 1) - 1 = base.line + position.line - 1 + 1
      omega
    · show (if position.line + 1 = 1 then base.column + 1 - 1 else 1) = 1
      rw [if_neg (by omega)]
  · rw [advance, if_neg hc, advance, if_neg hc]
    refine eq_of_numbers rfl ?_ rfl
    show (if position.line = 1 then base.column + (position.column + 1) - 1
      else position.column + 1) =
        (if position.line = 1 then base.column + position.column - 1 else position.column) + 1
    split <;> omega

theorem relocate_advanceOver (read : List Char) :
    base.relocate (position.advanceOver read) = (base.relocate position).advanceOver read := by
  induction read generalizing position with
  | nil => rfl
  | cons c rest ih => rw [advanceOver_cons, ih, relocate_advance, advanceOver_cons]

/-- What one comes to from the beginning, one comes to from `base` in the same way. -/
theorem relocate_behind (read : List Char) :
    base.relocate (start.advanceOver read) = base.advanceOver read := by
  rw [relocate_advanceOver, relocate_start]

end Position

namespace Cursor

/-- The same characters, read behind `base`. -/
def relocate (base : Position) (cursor : Cursor) : Cursor where
  rest := cursor.rest
  position := base.relocate cursor.position
  previous := cursor.previous.map fun (c, position) => (c, base.relocate position)

variable (base : Position) (cursor : Cursor)

@[simp] theorem rest_relocate : (cursor.relocate base).rest = cursor.rest := rfl

@[simp] theorem position_relocate :
    (cursor.relocate base).position = base.relocate cursor.position := rfl

@[simp] theorem remaining_relocate : (cursor.relocate base).remaining = cursor.remaining := rfl

@[simp] theorem skip_relocate (count : Nat) :
    (cursor.relocate base).skip count = (cursor.skip count).relocate base := by
  simp [skip, relocate, Position.relocate_advanceOver]

@[simp] theorem next_relocate :
    (cursor.relocate base).next = (cursor.next.1, cursor.next.2.relocate base) := by
  obtain ⟨- | ⟨c, rest⟩, position, previous⟩ := cursor
  · rfl
  · simp [next, relocate, Position.relocate_advance]

@[simp] theorem skipAndStep_relocate (count : Nat) :
    (cursor.relocate base).skipAndStep count = (cursor.skipAndStep count).relocate base := by
  rw [skipAndStep, skip_relocate, next_relocate, skipAndStep]

@[simp] theorem skipAll_relocate :
    (cursor.relocate base).skipAll = cursor.skipAll.relocate base := by
  rw [skipAll, remaining_relocate, skip_relocate, skipAll]

@[simp] theorem skipBlanks_relocate :
    Scan.skipBlanks (cursor.relocate base) = (Scan.skipBlanks cursor).relocate base := by
  rw [Scan.skipBlanks, rest_relocate, skip_relocate, Scan.skipBlanks]

end Cursor

/-- The same token, read behind `base`. -/
def Token.relocate (base : Position) (token : Token) : Token :=
  { token with position := base.relocate token.position }

def MarkupError.relocate (base : Position) (error : MarkupError) : MarkupError :=
  { error with position := error.position.map base.relocate }

def Reading.relocate (base : Position) (reading : Reading) : Reading where
  event := reading.event
  start := base.relocate reading.start
  pending := reading.pending.map (·.relocate base)

/-! ## Scans -/

namespace Scan

variable {α β γ δ : Type} {base : Position}

/-- An outcome that was come to behind `base`; `change` says what becomes of a value. -/
def relocated (base : Position) (change : α → β) :
    EStateM.Result MarkupError Cursor α → EStateM.Result MarkupError Cursor β
  | .ok value stop => .ok (change value) (stop.relocate base)
  | .error error stop => .error (error.relocate base) (stop.relocate base)

/-- Whether `second` does behind `base` what `first` does. -/
def Relocates (base : Position) (change : α → β) (first : Scan α) (second : Scan β) : Prop :=
  ∀ cursor, second (cursor.relocate base) = relocated base change (first cursor)

theorem Relocates.pure (change : α → β) (value : α) :
    Relocates base change (pure value) (pure (change value)) := fun _ => rfl

theorem Relocates.refuse (change : α → β) (fault : MarkupFault) :
    Relocates base change (refuse fault) (refuse fault) := fun _ => rfl

theorem Relocates.bind {change : α → β} {first : Scan α} {second : Scan β} {next : α → Scan γ}
    {onward : β → Scan δ} {last : γ → δ} (hfirst : Relocates base change first second)
    (hnext : ∀ value, Relocates base last (next value) (onward (change value))) :
    Relocates base last (first >>= next) (second >>= onward) := by
  intro cursor
  rw [bind_apply, bind_apply, hfirst]
  cases first cursor with
  | ok value between => exact hnext value between
  | error error stop => rfl

theorem Relocates.map {change : α → β} {first : Scan α} {second : Scan β} {front : α → γ}
    {back : β → δ} {last : γ → δ} (h : Relocates base change first second)
    (hchange : ∀ value, back (change value) = last (front value)) :
    Relocates base last (front <$> first) (back <$> second) := by
  rw [← bind_pure_comp, ← bind_pure_comp]
  refine h.bind fun value => ?_
  rw [hchange]
  exact .pure last (front value)

theorem relocates_demand (condition : Bool) (fault : MarkupFault) :
    Relocates base id (demand condition fault) (demand condition fault) := by
  unfold demand
  split
  · exact .pure id ()
  · exact .refuse id fault

/-! ### Single scans -/

theorem relocates_quotedValue (quote : Char) :
    Relocates base id (quotedValue quote) (quotedValue quote) := by
  intro cursor
  simp only [quotedValue, Cursor.rest_relocate, Cursor.skipAndStep_relocate]
  cases (CharacterData.read quote cursor.rest).ending <;> rfl

theorem relocates_bareName : Relocates base id bareName bareName := by
  intro cursor
  simp only [bareName, Cursor.rest_relocate, Cursor.skip_relocate, Cursor.skipAndStep_relocate]
  split
  · rfl
  · split
    · rfl
    · split <;> rfl

theorem relocates_nextToken : Relocates base (Token.relocate base) nextToken nextToken := by
  intro cursor
  simp only [nextToken, Cursor.skipBlanks_relocate, Cursor.rest_relocate, Cursor.next_relocate]
  cases hstart : (skipBlanks cursor).rest with
  | nil => rfl
  | cons c rest =>
      dsimp only
      by_cases hless : c = '<'
      · rw [if_pos hless, if_pos hless]
        rfl
      · rw [if_neg hless, if_neg hless]
        cases Marker.ofChar? c with
        | some marker => rfl
        | none =>
            dsimp only
            by_cases hquote : isQuote c = true
            · rw [if_pos hquote, if_pos hquote, relocates_quotedValue]
              cases quotedValue c (skipBlanks cursor).next.2 <;> rfl
            · rw [if_neg hquote, if_neg hquote, relocates_bareName]
              cases bareName (skipBlanks cursor) <;> rfl

theorem relocates_nextContent :
    Relocates base (Option.map (Token.relocate base)) nextContent nextContent := by
  intro cursor
  simp only [nextContent, Cursor.skipBlanks_relocate, Cursor.rest_relocate, Cursor.next_relocate,
    Cursor.skip_relocate, Cursor.skipAndStep_relocate]
  cases hstart : (skipBlanks cursor).rest with
  | nil => rfl
  | cons c rest =>
      dsimp only
      by_cases hless : c = '<'
      · rw [if_pos hless, if_pos hless]
        rfl
      · rw [if_neg hless, if_neg hless]
        cases (CharacterData.read '<' (c :: rest)).ending <;> rfl

theorem relocates_nextFragment :
    Relocates base (Option.map (Token.relocate base)) nextFragment nextFragment := by
  intro cursor
  simp only [nextFragment, Cursor.skipBlanks_relocate, Cursor.rest_relocate, Cursor.next_relocate,
    Cursor.skip_relocate, Cursor.skipAndStep_relocate, Cursor.skipAll_relocate]
  cases hstart : (skipBlanks cursor).rest with
  | nil => rfl
  | cons c rest =>
      dsimp only
      cases Marker.ofChar? c with
      | some marker => rfl
      | none =>
          dsimp only
          by_cases hquote : isQuote c = true
          · rw [if_pos hquote, if_pos hquote]
            cases Text.indexOf? [c] rest <;> rfl
          · rw [if_neg hquote, if_neg hquote]
            cases ((skipBlanks cursor).skip (c :: rest.takeWhile isFragmentChar).length).rest with
            | nil => rfl
            | cons d others =>
                dsimp only
                split <;> rfl

theorem relocates_cdataText : Relocates base id cdataText cdataText := by
  intro cursor
  simp only [cdataText, Cursor.rest_relocate, Cursor.skip_relocate]
  cases Text.indexOf? "]]>".toList cursor.rest <;> rfl

theorem relocates_textUntil (literal : String) (fault : MarkupFault) :
    Relocates base id (textUntil literal fault) (textUntil literal fault) := by
  intro cursor
  simp only [textUntil, Cursor.rest_relocate, Cursor.skip_relocate, Cursor.skipAll_relocate]
  cases Text.indexOf? literal.toList cursor.rest <;> rfl

theorem relocates_markupSort : Relocates base id markupSort markupSort := by
  intro cursor
  simp only [markupSort, Cursor.rest_relocate, Cursor.skip_relocate]
  split <;> rfl

theorem relocates_cdataBracket : Relocates base id cdataBracket cdataBracket := by
  intro cursor
  simp only [cdataBracket, Cursor.next_relocate]
  obtain ⟨c?, stop⟩ := cursor.next
  split
  · next after heq =>
      obtain ⟨rfl, rfl⟩ := Prod.mk.inj heq
      rfl
  · next found after hfound heq =>
      obtain ⟨rfl, rfl⟩ := Prod.mk.inj heq
      split
      · next hbracket => exact absurd (Prod.mk.inj hbracket).1 hfound
      · next hstop =>
          obtain ⟨-, rfl⟩ := Prod.mk.inj hstop
          rfl

/-! ### Events -/

theorem relocates_declarationToken :
    Relocates base (Token.relocate base) declarationToken declarationToken := by
  intro cursor
  unfold declarationToken
  rw [relocates_nextFragment]
  cases nextFragment cursor with
  | error error stop => rfl
  | ok token? stop => cases token? <;> rfl

/-- The rest of a declaration, token by token. -/
theorem declarationEnd_eq (nesting : Nat) (cursor : Cursor) :
    declarationEnd nesting cursor =
      match declarationToken cursor with
      | .error error stop => .error error stop
      | .ok token stop =>
          if token.isThe .less then declarationEnd (nesting + 1) stop
          else if token.isThe .greater then
            match nesting with
            | 0 => .ok () stop
            | outer + 1 => declarationEnd outer stop
          else declarationEnd nesting stop := by
  rw [declarationEnd]
  cases hrun : Onward.run declarationToken strictlyForward_declarationToken cursor with
  | error error stop => rw [Onward.error_of_run hrun]
  | ok token stop shorter => cases nesting <;> simp only [Onward.ok_of_run hrun]

theorem relocates_declarationEnd (nesting : Nat) :
    Relocates base id (declarationEnd nesting) (declarationEnd nesting) := by
  intro cursor
  -- Both loops take the same tokens, so they end together.
  rw [declarationEnd_eq nesting (cursor.relocate base), relocates_declarationToken]
  fun_induction declarationEnd nesting cursor with
  | case1 nesting cursor error stop hrun =>
      rw [Onward.error_of_run hrun]
      rfl
  | case2 nesting cursor token stop shorter hrun hless ih =>
      rw [Onward.ok_of_run hrun, ← ih, ← relocates_declarationToken, ← declarationEnd_eq]
      exact if_pos hless
  | case3 cursor token stop shorter hrun hless hgreater =>
      rw [Onward.ok_of_run hrun]
      exact (if_neg hless).trans (if_pos hgreater)
  | case4 cursor token stop shorter hrun hless hgreater outer ih =>
      rw [Onward.ok_of_run hrun, ← ih, ← relocates_declarationToken, ← declarationEnd_eq]
      exact (if_neg hless).trans (if_pos hgreater)
  | case5 nesting cursor token stop shorter hrun hless hgreater ih =>
      rw [Onward.ok_of_run hrun, ← ih, ← relocates_declarationToken, ← declarationEnd_eq]
      exact (if_neg hless).trans (if_neg hgreater)

theorem relocates_exclamation : Relocates base id exclamation exclamation := by
  refine relocates_markupSort.bind fun sort => ?_
  cases sort with
  | comment => exact (relocates_textUntil _ _).bind fun _ => .pure id _
  | bracketed =>
      exact relocates_nextToken.bind fun _ => (relocates_demand _ _).bind fun _ =>
        relocates_cdataBracket.bind fun _ => relocates_cdataText.bind fun _ => .pure id _
  | declaration => exact (relocates_declarationEnd 0).bind fun _ => .pure id _

theorem relocates_closeTag (enclosing : Option String) :
    Relocates base id (closeTag enclosing) (closeTag enclosing) := by
  refine relocates_nextToken.bind fun name => ?_
  cases enclosing with
  | none => exact .refuse id _
  | some tag =>
      exact (relocates_demand _ _).bind fun _ => relocates_nextToken.bind fun _ =>
        (relocates_demand _ _).bind fun _ => .pure id _

theorem relocates_markupEvent (enclosing : Option String) (token : Token) :
    Relocates base id (markupEvent enclosing token)
      (markupEvent enclosing (token.relocate base)) := by
  change Relocates base id (markupEvent enclosing token) (markupEvent enclosing token)
  unfold markupEvent
  split
  · exact relocates_exclamation
  · split
    · exact (relocates_textUntil _ _).map fun _ => rfl
    · split
      · exact relocates_closeTag enclosing
      · split
        · exact .pure id _
        · exact .refuse id _

theorem relocates_markupReading (enclosing : Option String) :
    Relocates base (Reading.relocate base) (markupReading enclosing)
      (markupReading enclosing) :=
  relocates_nextToken.bind fun token => (relocates_markupEvent enclosing token).bind fun event =>
    .pure (Reading.relocate base) ⟨event, token.position, none⟩

theorem relocates_contentReading (tag : String) :
    Relocates base (Reading.relocate base) (contentReading tag) (contentReading tag) := by
  refine relocates_nextContent.bind fun token? => ?_
  cases token? with
  | none => exact .refuse _ _
  | some token =>
      change Relocates base (Reading.relocate base)
        (if token.kind == .text then _ else _) (if token.kind == .text then _ else _)
      split
      · exact .pure (Reading.relocate base) ⟨.text token.value, token.position, none⟩
      · exact relocates_markupReading (some tag)

theorem relocates_tagReading (token : Token) :
    Relocates base (Reading.relocate base) (tagReading token)
      (tagReading (token.relocate base)) := by
  change Relocates base (Reading.relocate base)
    (if token.isIdentifier then _ else if token.isThe .slash then _ else _)
    (if token.isIdentifier then _ else if token.isThe .slash then _ else _)
  split
  · refine relocates_nextToken.bind fun second => ?_
    change Relocates base (Reading.relocate base) (if second.isThe .equals then _ else _)
      (if second.isThe .equals then _ else _)
    split
    · refine relocates_nextToken.bind fun value => (relocates_demand _ _).bind fun _ => ?_
      exact .pure (Reading.relocate base)
        ⟨.attr token.value (some value.value), token.position, none⟩
    · exact .pure (Reading.relocate base) ⟨.attr token.value none, token.position, some second⟩
  · split
    · refine relocates_nextToken.bind fun last => (relocates_demand _ _).bind fun _ => ?_
      exact .pure (Reading.relocate base) ⟨.selfClosed, token.position, none⟩
    · refine (relocates_demand _ _).bind fun _ => ?_
      exact .pure (Reading.relocate base) ⟨.entered, token.position, none⟩

/-- An event is the same wherever its text stands. -/
theorem relocates_nextReading (nest : Nest) (pending : Option Token) :
    Relocates base (Option.map (Reading.relocate base)) (nextReading (nest.place pending))
      (nextReading (nest.place (pending.map (Token.relocate base)))) := by
  have hsome : ∀ {first second : Scan Reading},
      Relocates base (Reading.relocate base) first second →
      Relocates base (Option.map (Reading.relocate base)) (some <$> first) (some <$> second) :=
    fun h => h.map fun _ => rfl
  obtain ⟨openTags, - | name⟩ := nest
  · cases openTags with
    | nil =>
        intro cursor
        simp only [Nest.place_document, nextReading, Cursor.rest_relocate]
        cases Text.indexOf? ['<'] cursor.rest with
        | none =>
            dsimp only
            rw [Cursor.skipAll_relocate]
            rfl
        | some index =>
            dsimp only
            rw [Cursor.skip_relocate]
            exact hsome (relocates_markupReading none) _
    | cons tag outer => exact hsome (relocates_contentReading tag)
  · cases pending with
    | none => exact relocates_nextToken.bind fun token => hsome (relocates_tagReading token)
    | some token => exact hsome (relocates_tagReading token)

end Scan

/-! ## Readers -/

def Entry.relocate (base : Position) (entry : Entry) : Entry where
  event := entry.event
  start := base.relocate entry.start
  behind := base.relocate entry.behind

def Trace.relocate (base : Position) (trace : Trace) : Trace where
  entries := trace.entries.map (Entry.relocate base)
  fault := trace.fault.map (MarkupError.relocate base)

namespace Reader

/-- The same reader, behind `base`. -/
def relocate (base : Position) (reader : Reader) : Reader where
  cursor := reader.cursor.relocate base
  nest := reader.nest
  pending := reader.pending.map (Token.relocate base)

/-- A reader meets the same events wherever its text stands. -/
theorem trace_relocate (base : Position) (reader : Reader) :
    (reader.relocate base).trace = reader.trace.relocate base := by
  have hread : ∀ reader : Reader,
      nextReading (reader.relocate base).place (reader.relocate base).cursor =
        Scan.relocated base (Option.map (Reading.relocate base))
          (nextReading reader.place reader.cursor) :=
    fun reader => Scan.relocates_nextReading reader.nest reader.pending reader.cursor
  fun_induction Reader.trace reader with
  | case1 reader error stop hnext =>
      rw [trace_of_error ((hread reader).trans (congrArg _ hnext))]
      rfl
  | case2 reader stop hnext =>
      rw [trace_of_end ((hread reader).trans (congrArg _ hnext))]
      rfl
  | case3 reader reading stop hnext rest ih =>
      have hafter : (reader.relocate base).after (reading.relocate base) (stop.relocate base) =
          (reader.after reading stop).relocate base := rfl
      rw [trace_of_step ((hread reader).trans (congrArg _ hnext)), hafter, ih]
      rfl

end Reader

end XmlToJson

import XmlToJson.Proofs.RepeatedKeys
import XmlToJson.Proofs.Tokens

/-!
# Documents as they are written

A document can be written in many ways: blanks may stand between the tokens of a tag and between the
pieces of an element, a value may be in either sort of quotes, and every character of a text or a
value can be escaped.  `Renders` says which texts are ways to write a list of items, and every one
of them is converted to the same result (`convert_of_renders`).

## Strategy

Whoever reads such a text meets the events of its items and nothing else (`Renders.meets`).  The
statement is about readers and not about texts, since a reader may have read a token ahead.

* **Single pieces of markup.**  A cursor `Faces` what is written for a piece, up to characters that
  are skipped, and `Tokens.lean` says what its scans make of that.  Each piece has one lemma for the
  event that is read (`markupReading_comment`, `markupReading_cdata`, `markupReading_opened`,
  `markupReading_closed` and so on).
* **Several events.**  `Advances` says that a reader meets some events and then stands where another
  one stands.  Events that are met come first in what is read (`Advances.trace`).
* **Tags.**  Two names that meet without a value between them need a blank (`RendersAttributes`,
  `Separated`).  Whether the token behind a name has been read ahead makes no difference to what the
  reader stands in front of (`FacesInTag`), so attributes are one induction (`advances_attributes`).
* **Items.**  Outside every element any text without a `<` can stand and is ignored (`Scope.kept`),
  while in an element a text is an item.  `Renders.meets` is the induction on what is written, with
  `Reader.Meets.leaf` for items that are a single piece of markup.

The events spell the items that count (`Renders.spells`), and what those are converted to is known
(`Contributions.lean`).
-/

namespace XmlToJson

/-! ## Ways to write a document -/

/-- Whether a name can stand in front: nothing follows it in its tag but a blank. -/
def Separated (chars : List Char) : Prop := ∀ c ∈ chars.head?, Text.isBlank c = true

instance (chars : List Char) : Decidable (Separated chars) :=
  decidable_of_iff (chars.head?.all Text.isBlank = true) (Option.all_eq_true _ _)

/-- Whether characters are a way to write attributes behind a name.  Where two names meet
without a value between them, a blank has to stand there. -/
inductive RendersAttributes : Attributes → List Char → Prop where
  | nil : RendersAttributes [] []
  | blank {attributes : Attributes} {c : Char} {chars : List Char} :
      Text.isBlank c = true → RendersAttributes attributes chars →
      RendersAttributes attributes (c :: chars)
  | bare {name : String} {rest : Attributes} {chars : List Char} :
      IsName name → Separated chars → RendersAttributes rest chars →
      RendersAttributes ((name, none) :: rest) (name.toList ++ chars)
  | valued {name value : String} {rest : Attributes} {quote : Char}
      {before after written chars : List Char} :
      IsName name → Blanks before → Blanks after → quote = '"' ∨ quote = '\'' →
      Encodes quote value.toList written → RendersAttributes rest chars →
      RendersAttributes ((name, some value) :: rest)
        (name.toList ++ (before ++ '=' :: (after ++ quote :: (written ++ quote :: chars))))

/-- Where items stand. -/
inductive Scope where
  | document
  | element
  deriving DecidableEq, Repr

def Item.isText : Item → Bool
  | .text _ => true
  | _ => false

/-- Whether characters are a way to write items.  Outside every element any text without
a `<` can stand and is ignored.  In an element no text stands next to another, and blanks
can stand anywhere else. -/
inductive Renders : Scope → List Item → List Char → Prop where
  | nil {scope : Scope} : Renders scope [] []
  | blank {items : List Item} {c : Char} {chars : List Char} :
      Text.isBlank c = true → Renders .element items chars → Renders .element items (c :: chars)
  | ignored {text : String} {items : List Item} {chars : List Char} :
      '<' ∉ text.toList → Renders .document items chars →
      Renders .document (.text text :: items) (text.toList ++ chars)
  | text {text : String} {items : List Item} {written chars : List Char} :
      IsText text → Encodes '<' text.toList written →
      (∀ item ∈ items.head?, item.isText = false) → Renders .element items chars →
      Renders .element (.text text :: items) (written ++ chars)
  | comment {scope : Scope} {body : String} {items : List Item} {space chars : List Char} :
      Blanks space → ¬ "-->".toList <:+: body.toList → Renders scope items chars →
      Renders scope (.comment body :: items)
        ('<' :: (space ++ '!' :: '-' :: '-' :: (body.toList ++ ("-->".toList ++ chars))))
  | instruction {scope : Scope} {body : String} {items : List Item} {space chars : List Char} :
      Blanks space → ¬ "?>".toList <:+: body.toList → Renders scope items chars →
      Renders scope (.instruction body :: items)
        ('<' :: (space ++ '?' :: (body.toList ++ ("?>".toList ++ chars))))
  | cdata {scope : Scope} {text : String} {items : List Item} {space chars : List Char} :
      Blanks space → ¬ "]]>".toList <:+: text.toList → Renders scope items chars →
      Renders scope (.cdata text :: items)
        ('<' :: (space ++ '!' :: '[' :: ("CDATA".toList ++
          '[' :: (text.toList ++ ("]]>".toList ++ chars)))))
  | selfClosing {scope : Scope} {tag : String} {attributes : Attributes} {items : List Item}
      {space written last chars : List Char} :
      Blanks space → Blanks last → IsName tag → Separated written →
      RendersAttributes attributes written → Renders scope items chars →
      Renders scope (.selfClosing tag attributes :: items)
        ('<' :: (space ++ (tag.toList ++ (written ++ '/' :: (last ++ '>' :: chars)))))
  | element {scope : Scope} {tag : String} {attributes : Attributes} {content items : List Item}
      {space written inner slash before after chars : List Char} :
      Blanks space → Blanks slash → Blanks before → Blanks after → IsName tag →
      Separated written → RendersAttributes attributes written →
      Renders .element content inner → Renders scope items chars →
      Renders scope (.element tag attributes content :: items)
        ('<' :: (space ++ (tag.toList ++ (written ++ '>' :: (inner ++
          '<' :: (slash ++ '/' :: (before ++ (tag.toList ++ (after ++ '>' :: chars)))))))))

/-! ## Reading one piece of markup -/

namespace Scan

variable {enclosing : Option String} {cursor : Cursor} {space rest : List Char}

theorem markupReading_of_token {token : Token} {between stop : Cursor} {event : Event}
    (htoken : nextToken cursor = .ok token between)
    (hevent : markupEvent enclosing token between = .ok event stop) :
    markupReading enclosing cursor = .ok ⟨event, token.position, none⟩ stop := by
  simp only [markupReading, bind_apply, htoken, hevent]
  rfl

theorem markupEvent_bang {token : Token} (h : token.kind = .marker .bang) :
    markupEvent enclosing token = exclamation := by
  have hbang : token.isThe .bang = true := by simp [Token.isThe, h]
  exact if_pos hbang

theorem exclamation_comment {between stop : Cursor} {body : String}
    (hsort : markupSort cursor = .ok .comment between)
    (hread : textUntil "-->" .unclosedComment between = .ok body stop) :
    exclamation cursor = .ok (.comment body) stop := by
  refine (bind_apply markupSort _ cursor).trans ?_
  rw [hsort]
  show (textUntil "-->" .unclosedComment >>= fun body => pure (Event.comment body)) between = _
  rw [bind_apply, hread]
  rfl

theorem exclamation_cdata {between named behind stop : Cursor} {name : Token} {text : String}
    (hsort : markupSort cursor = .ok .bracketed between)
    (hname : nextToken between = .ok name named)
    (hcdata : (name.isIdentifier && name.value == "CDATA") = true)
    (hbracket : cdataBracket named = .ok () behind) (hread : cdataText behind = .ok text stop) :
    exclamation cursor = .ok (.cdata text) stop := by
  refine (bind_apply markupSort _ cursor).trans ?_
  rw [hsort]
  show (nextToken >>= fun name => demand (name.isIdentifier && name.value == "CDATA") .notCdata >>=
    fun _ => cdataBracket >>= fun _ => cdataText >>= fun text => pure (Event.cdata text))
      between = _
  simp only [bind_apply, hname, demand_apply, hcdata, if_true, hbracket, hread]
  rfl

theorem markupReading_comment {body : String} (hspace : Blanks space)
    (hbody : ¬ "-->".toList <:+: body.toList)
    (hrest : cursor.rest =
      space ++ '!' :: '-' :: '-' :: (body.toList ++ ("-->".toList ++ rest))) :
    ∃ position stop, markupReading enclosing cursor = .ok ⟨.comment body, position, none⟩ stop ∧
      stop.rest = rest := by
  have hfaces := (Faces.of_rest hrest).of_append hspace
  obtain ⟨position, between, htoken, hbetween⟩ :=
    @nextToken_marker _ '!' _ .bang rfl (by decide) (by decide) hfaces
  obtain ⟨stop, hread, hstop⟩ := @textUntil_eq (between.skip 2) body.toList rest "-->" ['-', '-']
    '>' .unclosedComment rfl (by decide) hbody (by rw [Cursor.skip, hbetween]; rfl)
  refine ⟨position, stop, markupReading_of_token htoken ?_, hstop⟩
  have hsort : markupSort between = .ok .comment (between.skip 2) := by
    simp only [markupSort, hbetween]
  rw [String.ofList_toList] at hread
  rw [markupEvent_bang rfl, exclamation_comment hsort hread]

theorem markupReading_instruction {body : String} (hspace : Blanks space)
    (hbody : ¬ "?>".toList <:+: body.toList)
    (hrest : cursor.rest = space ++ '?' :: (body.toList ++ ("?>".toList ++ rest))) :
    ∃ position stop,
      markupReading enclosing cursor = .ok ⟨.instruction body, position, none⟩ stop ∧
        stop.rest = rest := by
  have hfaces := (Faces.of_rest hrest).of_append hspace
  obtain ⟨position, between, htoken, hbetween⟩ :=
    @nextToken_marker _ '?' _ .question rfl (by decide) (by decide) hfaces
  obtain ⟨stop, hread, hstop⟩ := @textUntil_eq between body.toList rest "?>" ['?'] '>'
    .unclosedInstruction rfl (by decide) hbody hbetween
  refine ⟨position, stop, markupReading_of_token htoken ?_, hstop⟩
  have hbang : (TokenKind.marker .question == .marker .bang) = false := by decide
  simp only [markupEvent, Token.isThe, hbang, beq_self_eq_true, if_true, Bool.false_eq_true,
    if_false, map_apply, hread, String.ofList_toList]

theorem isName_cdata : IsName "CDATA" := by
  decide

theorem markupReading_cdata {text : String} (hspace : Blanks space)
    (htext : ¬ "]]>".toList <:+: text.toList)
    (hrest : cursor.rest = space ++ '!' :: '[' :: ("CDATA".toList ++
      '[' :: (text.toList ++ ("]]>".toList ++ rest)))) :
    ∃ position stop, markupReading enclosing cursor = .ok ⟨.cdata text, position, none⟩ stop ∧
      stop.rest = rest := by
  have hfaces := (Faces.of_rest hrest).of_append hspace
  obtain ⟨position, between, htoken, hbetween⟩ :=
    @nextToken_marker _ '!' _ .bang rfl (by decide) (by decide) hfaces
  have hopened : (between.skip 1).rest =
      "CDATA".toList ++ '[' :: (text.toList ++ ("]]>".toList ++ rest)) := by
    rw [Cursor.skip, hbetween]
    rfl
  obtain ⟨namePosition, named, hname, hnamed⟩ :=
    nextToken_name isName_cdata (.inr (by decide)) (.of_rest hopened)
  rw [if_neg (by decide)] at hnamed
  obtain ⟨stop, hread, hstop⟩ := @cdataText_eq named.next.2 _ rest htext (rest_next hnamed)
  refine ⟨position, stop, markupReading_of_token htoken ?_, hstop⟩
  have hsort : markupSort between = .ok .bracketed (between.skip 1) := by
    simp only [markupSort, hbetween]
  have hbracket : cdataBracket named = .ok () named.next.2 := by
    simp only [cdataBracket, Cursor.next, hnamed]
  rw [String.ofList_toList] at hread
  have hcdata : (Token.isIdentifier ⟨.name, "CDATA", namePosition⟩ &&
      "CDATA" == "CDATA") = true := by
    simp [Token.isIdentifier]
  rw [markupEvent_bang rfl, exclamation_cdata hsort hname hcdata hbracket hread]

/-- Where a cursor stands behind a name. -/
theorem faces_of_name {stop : Cursor} {c : Char}
    (h : stop.rest = if Text.isBlank c then rest else c :: rest) :
    Faces Text.isBlank stop (c :: rest) := by
  by_cases hc : Text.isBlank c = true
  · rw [if_pos hc] at h
    exact (Faces.of_rest h).cons hc
  · rw [if_neg hc] at h
    exact .of_rest h

theorem markupReading_opened {tag : String} {c : Char} (hspace : Blanks space)
    (htag : IsName tag) (hends : Text.isBlank c = true ∨ endsName c = true)
    (hrest : cursor.rest = space ++ (tag.toList ++ c :: rest)) :
    ∃ position stop, markupReading enclosing cursor = .ok ⟨.opened tag, position, none⟩ stop ∧
      Faces Text.isBlank stop (c :: rest) := by
  obtain ⟨position, stop, htoken, hstop⟩ :=
    nextToken_name htag hends ((Faces.of_rest hrest).of_append hspace)
  exact ⟨position, stop, markupReading_of_token htoken rfl, faces_of_name hstop⟩

/-- What follows blanks is read behind the name in front of them. -/
theorem nextToken_name_blanks {name : String} {blanks : List Char} {c : Char}
    (hname : IsName name) (hblanks : Blanks blanks) (hends : endsName c = true)
    (hfaces : Faces Text.isBlank cursor (name.toList ++ (blanks ++ c :: rest))) :
    ∃ position stop, nextToken cursor = .ok ⟨.name, name, position⟩ stop ∧
      Faces Text.isBlank stop (c :: rest) := by
  -- The name takes the first blank with it.
  cases blanks with
  | nil =>
      obtain ⟨position, stop, htoken, hstop⟩ := nextToken_name hname (.inr hends) hfaces
      exact ⟨position, stop, htoken, faces_of_name hstop⟩
  | cons first others =>
      obtain ⟨position, stop, htoken, hstop⟩ :=
        nextToken_name hname (.inl (hblanks first List.mem_cons_self)) hfaces
      refine ⟨position, stop, htoken, ?_⟩
      have hbehind : Faces Text.isBlank stop (first :: others ++ c :: rest) := faces_of_name hstop
      exact hbehind.of_append hblanks

theorem markupReading_closed {tag : String} {before after : List Char} (hspace : Blanks space)
    (hbefore : Blanks before) (hafter : Blanks after) (htag : IsName tag)
    (hrest : cursor.rest =
      space ++ '/' :: (before ++ (tag.toList ++ (after ++ '>' :: rest)))) :
    ∃ position stop, markupReading (some tag) cursor = .ok ⟨.closed tag, position, none⟩ stop ∧
      stop.rest = rest := by
  obtain ⟨position, slash, hslash, hbehind⟩ := @nextToken_marker _ '/' _ .slash rfl (by decide)
    (by decide) ((Faces.of_rest hrest).of_append hspace)
  obtain ⟨_, named, hname, hnamed⟩ := nextToken_name_blanks htag hafter (by decide)
    ((Faces.of_rest hbehind).of_append hbefore)
  obtain ⟨_, stop, hlast, hstop⟩ :=
    @nextToken_marker _ '>' _ .greater rfl (by decide) (by decide) hnamed
  refine ⟨position, stop, markupReading_of_token hslash ?_, hstop⟩
  show closeTag (some tag) slash = _
  simp [closeTag, bind_apply, map_apply, demand_apply, hname, hlast, Token.isIdentifier,
    Token.isThe]

end Scan

/-! ## Reading several events -/

namespace Reader

/-- Whether a reader meets some events and then stands where another one stands. -/
inductive Advances : Reader → List Entry → Reader → Prop where
  | refl (reader : Reader) : Advances reader [] reader
  | step {reader last : Reader} {reading : Reading} {cursor : Cursor} {entries : List Entry} :
      nextReading reader.place reader.cursor = .ok (some reading) cursor →
      Advances (reader.after reading cursor) entries last →
      Advances reader (⟨reading.event, reading.start, cursor.position⟩ :: entries) last

theorem Advances.trans {first second third : Reader} {entries further : List Entry}
    (h : Advances first entries second) (hnext : Advances second further third) :
    Advances first (entries ++ further) third := by
  induction h with
  | refl reader => exact hnext
  | step hread _ ih => exact .step hread (ih hnext)

/-- The events that are met come first in what is read. -/
theorem Advances.trace {first last : Reader} {entries : List Entry}
    (h : Advances first entries last) :
    first.trace = ⟨entries ++ last.trace.entries, last.trace.fault⟩ := by
  induction h with
  | refl reader => rfl
  | step hread _ ih => rw [trace_of_step hread, ih]; rfl

/-- The reader between two tags of the innermost of the open elements `tags`. -/
def between (tags : List String) (cursor : Cursor) : Reader := ⟨cursor, ⟨tags, none⟩, none⟩

/-- The reader in the opening tag `tag`. -/
def inside (tags : List String) (tag : String) (pending : Option Token) (cursor : Cursor) :
    Reader :=
  ⟨cursor, ⟨tags, some tag⟩, pending⟩

/-- Whether a reader in a tag stands in front of `chars`, also if it has read a token
ahead. -/
def FacesInTag (reader : Reader) (chars : List Char) : Prop :=
  ∃ start, Faces Text.isBlank start chars ∧
    nextReading reader.place reader.cursor = nextReading (.tag none) start

theorem facesInTag_inside {tags : List String} {tag : String} {cursor : Cursor}
    {chars : List Char} (h : Faces Text.isBlank cursor chars) :
    FacesInTag (inside tags tag none cursor) chars :=
  ⟨cursor, h, rfl⟩

end Reader

/-! ## Reading attributes -/

namespace Scan

variable {cursor : Cursor} {rest : List Char} {ending : Char}

theorem exists_behind_name {chars : List Char} (h : Separated chars)
    (hending : ending = '>' ∨ ending = '/') :
    ∃ c others, chars ++ ending :: rest = c :: others ∧
      (Text.isBlank c = true ∨ endsName c = true) := by
  cases chars with
  | nil => exact ⟨ending, rest, rfl, .inr (by rcases hending with rfl | rfl <;> decide)⟩
  | cons c others => exact ⟨c, _, rfl, .inl (h c rfl)⟩

/-- A name is read in front of whatever can stand behind it. -/
theorem nextToken_separated {name : String} {chars : List Char} (hname : IsName name)
    (hchars : Separated chars) (hending : ending = '>' ∨ ending = '/')
    (hfaces : Faces Text.isBlank cursor (name.toList ++ (chars ++ ending :: rest))) :
    ∃ position stop, nextToken cursor = .ok ⟨.name, name, position⟩ stop ∧
      Faces Text.isBlank stop (chars ++ ending :: rest) := by
  obtain ⟨c, others, hbehind, hends⟩ := @exists_behind_name rest ending chars hchars hending
  rw [hbehind] at hfaces ⊢
  obtain ⟨position, stop, htoken, hstop⟩ := nextToken_name hname hends hfaces
  exact ⟨position, stop, htoken, faces_of_name hstop⟩

/-- A tag goes on with a name or ends. -/
theorem exists_token {attributes : Attributes} {chars : List Char}
    (h : RendersAttributes attributes chars) (hending : ending = '>' ∨ ending = '/')
    (hfaces : Faces Text.isBlank cursor (chars ++ ending :: rest)) :
    ∃ token stop, nextToken cursor = .ok token stop ∧ token.isThe .equals = false := by
  induction h with
  | nil =>
      rcases hending with rfl | rfl
      · obtain ⟨position, stop, htoken, -⟩ :=
          @nextToken_marker _ '>' _ .greater rfl (by decide) (by decide) hfaces
        exact ⟨_, stop, htoken, rfl⟩
      · obtain ⟨position, stop, htoken, -⟩ :=
          @nextToken_marker _ '/' _ .slash rfl (by decide) (by decide) hfaces
        exact ⟨_, stop, htoken, rfl⟩
  | blank hc _ ih => exact ih (hfaces.of_cons hc)
  | bare hname hseparated _ _ =>
      rw [List.append_assoc] at hfaces
      obtain ⟨position, stop, htoken, -⟩ := nextToken_separated hname hseparated hending hfaces
      exact ⟨_, stop, htoken, rfl⟩
  | valued hname hbefore _ _ _ _ _ =>
      rw [List.append_assoc, List.append_assoc] at hfaces
      obtain ⟨position, stop, htoken, -⟩ :=
        nextToken_name_blanks hname hbefore (by decide) hfaces
      exact ⟨_, stop, htoken, rfl⟩

theorem tagReading_bare {name second : Token} {stop : Cursor} (hname : name.isIdentifier = true)
    (hsecond : nextToken cursor = .ok second stop) (hequals : second.isThe .equals = false) :
    tagReading name cursor = .ok ⟨.attr name.value none, name.position, some second⟩ stop := by
  simp only [tagReading, hname, if_true, bind_apply, hsecond, hequals, Bool.false_eq_true, if_false]
  rfl

theorem tagReading_valued {name equals value : Token} {behind stop : Cursor}
    (hname : name.isIdentifier = true) (hequals : nextToken cursor = .ok equals behind)
    (hisEquals : equals.isThe .equals = true) (hvalue : nextToken behind = .ok value stop)
    (hisValue : value.isIdentifier = true) :
    tagReading name cursor =
      .ok ⟨.attr name.value (some value.value), name.position, none⟩ stop := by
  simp only [tagReading, hname, if_true, bind_apply, hequals, hisEquals, hvalue, demand_apply,
    hisValue]
  rfl

end Scan

namespace Reader

variable {tags : List String} {tag : String} {pending : Option Token} {cursor : Cursor}
  {ending : Char} {rest : List Char}

theorem nextReading_of_token {start stop : Cursor} {token : Token}
    (htoken : Scan.nextToken start = .ok token stop) :
    nextReading (.tag none) start = (some <$> Scan.tagReading token) stop := by
  simp only [nextReading, bind_apply, htoken]

theorem advances_attributes {attributes : Attributes} {written : List Char}
    (h : RendersAttributes attributes written) (hending : ending = '>' ∨ ending = '/')
    (hfaces : FacesInTag (inside tags tag pending cursor) (written ++ ending :: rest)) :
    ∃ entries pending' stop,
      Advances (inside tags tag pending cursor) entries (inside tags tag pending' stop) ∧
      entries.map (·.event) = attributeEvents attributes ∧
      FacesInTag (inside tags tag pending' stop) (ending :: rest) := by
  -- A blank is skipped by whoever reads the next token, so it moves nothing here.
  induction h generalizing pending cursor with
  | nil => exact ⟨[], pending, cursor, .refl _, rfl, hfaces⟩
  | blank hc _ ih =>
      obtain ⟨start, hstart, hread⟩ := hfaces
      exact ih ⟨start, hstart.of_cons hc, hread⟩
  | @bare name attributes chars hname hseparated hchars ih =>
      obtain ⟨start, hstart, hread⟩ := hfaces
      rw [List.append_assoc] at hstart
      obtain ⟨position, behind, htoken, hbehind⟩ :=
        Scan.nextToken_separated hname hseparated hending hstart
      obtain ⟨second, stop, hsecond, hequals⟩ := Scan.exists_token hchars hending hbehind
      have hnext : nextReading (inside tags tag pending cursor).place
          (inside tags tag pending cursor).cursor =
          .ok (some ⟨.attr name none, position, some second⟩) stop := by
        rw [hread, nextReading_of_token htoken, map_apply,
          Scan.tagReading_bare rfl hsecond hequals]
      -- The token behind the name is read ahead: the reader still stands behind the name.
      have hahead : FacesInTag (inside tags tag (some second) stop) (chars ++ ending :: rest) :=
        ⟨behind, hbehind, (nextReading_of_token hsecond).symm⟩
      obtain ⟨entries, pending', last, hadvances, hevents, hlast⟩ := ih hahead
      refine ⟨_, pending', last, .step hnext hadvances, ?_, hlast⟩
      rw [List.map_cons, hevents]
      rfl
  | @valued name value attributes quote before after written chars hname hbefore hafter hquote
      hvalue hchars ih =>
      obtain ⟨start, hstart, hread⟩ := hfaces
      simp only [List.append_assoc, List.cons_append] at hstart
      obtain ⟨position, named, htoken, hnamed⟩ :=
        Scan.nextToken_name_blanks hname hbefore (by decide) hstart
      obtain ⟨_, behind, hequals, hbehind⟩ :=
        @Scan.nextToken_marker _ '=' _ .equals rfl (by decide) (by decide) hnamed
      obtain ⟨_, stop, hquoted, hstop⟩ :=
        Scan.nextToken_quoted hquote hvalue ((Faces.of_rest hbehind).of_append hafter)
      have hnext : nextReading (inside tags tag pending cursor).place
          (inside tags tag pending cursor).cursor =
          .ok (some ⟨.attr name (some value), position, none⟩) stop := by
        rw [hread, nextReading_of_token htoken, map_apply,
          Scan.tagReading_valued rfl hequals rfl hquoted rfl]
      obtain ⟨entries, pending', last, hadvances, hevents, hlast⟩ :=
        ih (facesInTag_inside (.of_rest hstop))
      refine ⟨_, pending', last, .step hnext hadvances, ?_, hlast⟩
      rw [List.map_cons, hevents]
      rfl

theorem advances_entered
    (hfaces : FacesInTag (inside tags tag pending cursor) ('>' :: rest)) :
    ∃ entry stop, Advances (inside tags tag pending cursor) [entry] (between (tag :: tags) stop) ∧
      entry.event = .entered ∧ stop.rest = rest := by
  obtain ⟨start, hstart, hread⟩ := hfaces
  obtain ⟨position, stop, htoken, hstop⟩ :=
    @Scan.nextToken_marker _ '>' _ .greater rfl (by decide) (by decide) hstart
  have hnext : nextReading (inside tags tag pending cursor).place
      (inside tags tag pending cursor).cursor = .ok (some ⟨.entered, position, none⟩) stop := by
    rw [hread, nextReading_of_token htoken, map_apply]
    rfl
  exact ⟨_, stop, .step hnext (.refl _), rfl, hstop⟩

theorem advances_selfClosed {blanks : List Char} (hblanks : Blanks blanks)
    (hfaces : FacesInTag (inside tags tag pending cursor) ('/' :: (blanks ++ '>' :: rest))) :
    ∃ entry stop, Advances (inside tags tag pending cursor) [entry] (between tags stop) ∧
      entry.event = .selfClosed ∧ stop.rest = rest := by
  obtain ⟨start, hstart, hread⟩ := hfaces
  obtain ⟨position, slash, htoken, hslash⟩ :=
    @Scan.nextToken_marker _ '/' _ .slash rfl (by decide) (by decide) hstart
  obtain ⟨_, stop, hlast, hstop⟩ := @Scan.nextToken_marker _ '>' _ .greater rfl (by decide)
    (by decide) ((Faces.of_rest hslash).of_append hblanks)
  have hnext : nextReading (inside tags tag pending cursor).place
      (inside tags tag pending cursor).cursor = .ok (some ⟨.selfClosed, position, none⟩) stop := by
    rw [hread, nextReading_of_token htoken, map_apply]
    simp [Scan.tagReading, Token.isIdentifier, Token.isThe, bind_apply, map_apply, demand_apply,
      hlast]
  exact ⟨_, stop, .step hnext (.refl _), rfl, hstop⟩

end Reader

/-! ## Reading items -/

/-- The characters that are skipped in front of the next item. -/
def Scope.skips : Scope → Char → Bool
  | .document, c => c != '<'
  | .element, c => Text.isBlank c

/-- The items that count: outside every element texts do not. -/
def Scope.kept : Scope → List Item → List Item
  | .document, items => items.filter fun item => !item.isText
  | .element, items => items

/-- Where the innermost of the open elements stands. -/
def Scope.inside : List String → Scope
  | [] => .document
  | _ :: _ => .element

namespace Reader

variable {tags : List String} {cursor : Cursor} {rest : List Char}

/-- In front of a `<` the markup behind it is read. -/
theorem nextReading_less (hfaces : Faces (Scope.inside tags).skips cursor ('<' :: rest)) :
    ∃ behind, behind.rest = rest ∧ nextReading (between tags cursor).place cursor =
      (some <$> Scan.markupReading tags.head?) behind := by
  cases tags with
  | nil =>
      -- Everything up to the first `<` is jumped over.
      have hskipped : cursor.rest.dropWhile (Scope.document.skips) = '<' :: rest :=
        hfaces.dropWhile_eq (by decide)
      have hsplit : cursor.rest =
          cursor.rest.takeWhile Scope.document.skips ++ ([] ++ ['<'] ++ rest) := by
        conv => lhs; rw [← @List.takeWhile_append_dropWhile _ Scope.document.skips cursor.rest]
        rw [hskipped]
        rfl
      have hnone : ¬ [] ++ ['<'] <:+: cursor.rest.takeWhile Scope.document.skips := by
        intro hsub
        have hmem : '<' ∈ cursor.rest.takeWhile Scope.document.skips :=
          hsub.subset List.mem_cons_self
        exact absurd (List.all_eq_true.1 List.all_takeWhile '<' hmem) (by decide)
      have hindex : Text.indexOf? ['<'] cursor.rest =
          some (cursor.rest.takeWhile Scope.document.skips).length := by
        conv => lhs; rw [hsplit]
        exact @Text.indexOf?_append [] _ '<' (by simp) hnone rest
      refine ⟨cursor.skip ((cursor.rest.takeWhile Scope.document.skips).length + 1), ?_, ?_⟩
      · rw [Cursor.skip, ← List.drop_drop, drop_takeWhile, hskipped]
        rfl
      · show nextReading .document cursor = _
        simp only [nextReading, hindex]
        rfl
  | cons tag outer =>
      obtain ⟨position, behind, hcontent, hbehind⟩ := Scan.nextContent_less hfaces
      refine ⟨behind, hbehind, ?_⟩
      show nextReading (.content tag) cursor = _
      simp only [nextReading, Scan.contentReading, map_apply, bind_apply, hcontent]
      rfl

theorem advances_markup {event : Event} {following : List Char}
    (hfaces : Faces (Scope.inside tags).skips cursor ('<' :: rest))
    (hread : ∀ behind : Cursor, behind.rest = rest → ∃ position stop,
      Scan.markupReading tags.head? behind = .ok ⟨event, position, none⟩ stop ∧
        stop.rest = following)
    (hevent : ∀ nest : Nest, nest.after event = nest) :
    ∃ entry stop, Advances (between tags cursor) [entry] (between tags stop) ∧
      entry.event = event ∧ stop.rest = following := by
  obtain ⟨behind, hbehind, hnext⟩ := nextReading_less hfaces
  obtain ⟨position, stop, hmarkup, hstop⟩ := hread behind hbehind
  rw [map_apply, hmarkup] at hnext
  have hafter : (between tags cursor).after ⟨event, position, none⟩ stop = between tags stop := by
    simp only [after, between, hevent]
  refine ⟨_, stop, .step hnext ?_, rfl, hstop⟩
  rw [hafter]
  exact .refl _

theorem advances_opened {tag : String} {space written : List Char} {ending : Char}
    (hspace : Blanks space) (htag : IsName tag) (hseparated : Separated written)
    (hending : ending = '>' ∨ ending = '/')
    (hfaces : Faces (Scope.inside tags).skips cursor
      ('<' :: (space ++ (tag.toList ++ (written ++ ending :: rest))))) :
    ∃ entry stop, Advances (between tags cursor) [entry] (inside tags tag none stop) ∧
      entry.event = .opened tag ∧ FacesInTag (inside tags tag none stop) (written ++ ending :: rest)
      := by
  obtain ⟨behind, hbehind, hnext⟩ := nextReading_less hfaces
  obtain ⟨c, others, hchars, hends⟩ := @Scan.exists_behind_name rest ending _ hseparated hending
  rw [hchars] at hbehind ⊢
  obtain ⟨position, stop, hmarkup, hstop⟩ :=
    Scan.markupReading_opened hspace htag hends hbehind
  rw [map_apply, hmarkup] at hnext
  exact ⟨_, stop, .step hnext (.refl _), rfl, facesInTag_inside hstop⟩

theorem advances_closed {tag : String} {slash before after : List Char} (hslash : Blanks slash)
    (hbefore : Blanks before) (hafter : Blanks after) (htag : IsName tag)
    (hfaces : Faces Text.isBlank cursor
      ('<' :: (slash ++ '/' :: (before ++ (tag.toList ++ (after ++ '>' :: rest)))))) :
    ∃ entry stop, Advances (between (tag :: tags) cursor) [entry] (between tags stop) ∧
      entry.event = .closed tag ∧ stop.rest = rest := by
  obtain ⟨behind, hbehind, hnext⟩ := @nextReading_less (tag :: tags) _ _ hfaces
  obtain ⟨position, stop, hmarkup, hstop⟩ :=
    Scan.markupReading_closed hslash hbefore hafter htag hbehind
  rw [map_apply, List.head?_cons, hmarkup] at hnext
  exact ⟨_, stop, .step hnext (.refl _), rfl, hstop⟩

theorem advances_text {tag text : String} {written blanks : List Char} (htext : IsText text)
    (hwritten : Encodes '<' text.toList written) (hblanks : Blanks blanks)
    (hfaces : Faces Text.isBlank cursor (written ++ (blanks ++ '<' :: rest))) :
    ∃ entry stop, Advances (between (tag :: tags) cursor) [entry] (between (tag :: tags) stop) ∧
      entry.event = .text text ∧ stop.rest = '<' :: rest := by
  obtain ⟨position, stop, hcontent, hstop⟩ :=
    Scan.nextContent_text htext hwritten hblanks hfaces
  have hnext : nextReading (between (tag :: tags) cursor).place cursor =
      .ok (some ⟨.text text, position, none⟩) stop := by
    show nextReading (.content tag) cursor = _
    simp only [nextReading, Scan.contentReading, map_apply, bind_apply, hcontent]
    rfl
  exact ⟨_, stop, .step hnext (.refl _), rfl, hstop⟩

end Reader

/-! ## Reading what is written for items -/

/-- Where no text comes next in an element, blanks and a `<` come. -/
theorem Renders.exists_blanks {scope : Scope} {items : List Item} {chars : List Char}
    (h : Renders scope items chars) (hscope : scope = .element)
    (hhead : ∀ item ∈ items.head?, item.isText = false) (more : List Char) :
    ∃ blanks rest, Blanks blanks ∧ chars ++ '<' :: more = blanks ++ '<' :: rest := by
  induction h with
  | nil => exact ⟨[], more, by simp [Blanks], rfl⟩
  | @blank items c chars hc _ ih =>
      obtain ⟨blanks, rest, hblanks, hchars⟩ := ih rfl hhead
      refine ⟨c :: blanks, rest, List.forall_mem_cons.2 ⟨hc, hblanks⟩, ?_⟩
      rw [List.cons_append, hchars, List.cons_append]
  | ignored => exact absurd hscope (by decide)
  | text => exact absurd (hhead _ rfl) (by simp [Item.isText])
  | comment | instruction | cdata | selfClosing | element =>
      exact ⟨[], _, by simp [Blanks], rfl⟩

theorem skips_document {chars : List Char} (h : '<' ∉ chars) :
    ∀ c ∈ chars, Scope.document.skips c = true := by
  intro c hc
  have hne : c ≠ '<' := fun heq => h (heq ▸ hc)
  simpa [Scope.skips] using hne

theorem Scope.kept_cons {scope : Scope} {item : Item} (items : List Item)
    (h : item.isText = false) : scope.kept (item :: items) = item :: scope.kept items := by
  cases scope with
  | document =>
      have hkept : (!item.isText) = true := by rw [h]; rfl
      exact @List.filter_cons_of_pos _ (fun item : Item => !item.isText) item items hkept
  | element => rfl

/-- Whether a reader between two tags meets the events of the items that count, and then
stands in front of `following`. -/
def Reader.Meets (tags : List String) (cursor : Cursor) (items : List Item)
    (following : List Char) : Prop :=
  ∃ entries stop, Advances (between tags cursor) entries (between tags stop) ∧
    Spells entries ((Scope.inside tags).kept items) ∧ Faces (Scope.inside tags).skips stop following

/-- An item that is a single piece of markup comes in front of what follows it. -/
theorem Reader.Meets.leaf {tags : List String} {cursor : Cursor} {items : List Item}
    {rest behind following : List Char} {event : Event} {item : Item}
    (hfaces : Faces (Scope.inside tags).skips cursor ('<' :: rest))
    (hread : ∀ start : Cursor, start.rest = rest → ∃ position stop,
      Scan.markupReading tags.head? start = .ok ⟨event, position, none⟩ stop ∧
        stop.rest = behind)
    (hnest : ∀ nest : Nest, nest.after event = nest) (hitem : event.item? = some item)
    (htext : item.isText = false)
    (hmeets : ∀ stop : Cursor, stop.rest = behind → Meets tags stop items following) :
    Meets tags cursor (item :: items) following := by
  obtain ⟨entry, stop, hadvances, hevent, hstop⟩ := advances_markup hfaces hread hnest
  obtain ⟨entries, last, hrest, hspells, hlast⟩ := hmeets stop hstop
  have hentry : entry.event.item? = some item := (congrArg Event.item? hevent).trans hitem
  refine ⟨entry :: entries, last, hadvances.trans hrest, ?_, hlast⟩
  rw [Scope.kept_cons items htext]
  exact .leaf hentry hspells

/-- Whoever reads what is written for items meets their events, and then stands in front of
what follows. -/
theorem Renders.meets {scope : Scope} {items : List Item} {chars : List Char}
    (h : Renders scope items chars) {tags : List String} (hscope : scope = Scope.inside tags)
    {cursor : Cursor} {following : List Char}
    (hfaces : Faces scope.skips cursor (chars ++ following))
    (hfollowing : scope = .element → ∃ more, following = '<' :: more) :
    Reader.Meets tags cursor items following := by
  -- The tags and what follows change on the way into an element, so both stay general.
  induction h generalizing tags cursor following with
  | @nil scope =>
      subst hscope
      have hspells : Spells [] ((Scope.inside tags).kept []) := by
        cases tags <;> exact .nil
      exact ⟨[], cursor, .refl _, hspells, hfaces⟩
  | blank hc _ ih => exact ih hscope (hfaces.of_cons hc) hfollowing
  | ignored htext _ ih =>
      rw [List.append_assoc] at hfaces
      obtain - | ⟨tag, outer⟩ := tags
      · exact ih hscope (hfaces.of_append (skips_document htext)) hfollowing
      · exact absurd hscope (by simp [Scope.inside])
  | @text text items written chars htext hwritten hhead hitems ih =>
      obtain ⟨more, rfl⟩ := hfollowing rfl
      -- The reader trims the blanks between the text and the next `<`.
      obtain ⟨blanks, rest, hblanks, hchars⟩ := hitems.exists_blanks rfl hhead more
      obtain - | ⟨tag, outer⟩ := tags
      · exact absurd hscope (by decide)
      · rw [List.append_assoc, hchars] at hfaces
        obtain ⟨entry, stop, hadvances, hevent, hstop⟩ :=
          Reader.advances_text htext hwritten hblanks hfaces
        have hbehind : Faces Scope.element.skips stop (chars ++ '<' :: more) := by
          rw [hchars]
          unfold Faces
          rw [hstop]
          exact (List.dropWhile_append_of_pos hblanks).symm
        obtain ⟨entries, last, hrest, hspells, hlast⟩ := ih hscope hbehind hfollowing
        exact ⟨entry :: entries, last, hadvances.trans hrest,
          .leaf (congrArg Event.item? hevent) hspells, hlast⟩
  | comment hspace hbody _ ih =>
      subst hscope
      simp only [List.cons_append, List.append_assoc] at hfaces
      exact .leaf hfaces (fun _ => Scan.markupReading_comment hspace hbody) (fun _ => rfl) rfl rfl
        fun stop hstop => ih rfl (.of_rest hstop) hfollowing
  | instruction hspace hbody _ ih =>
      subst hscope
      simp only [List.cons_append, List.append_assoc] at hfaces
      exact .leaf hfaces (fun _ => Scan.markupReading_instruction hspace hbody) (fun _ => rfl) rfl
        rfl fun stop hstop => ih rfl (.of_rest hstop) hfollowing
  | cdata hspace htext _ ih =>
      subst hscope
      simp only [List.cons_append, List.append_assoc] at hfaces
      exact .leaf hfaces (fun _ => Scan.markupReading_cdata hspace htext) (fun _ => rfl) rfl rfl
        fun stop hstop => ih rfl (.of_rest hstop) hfollowing
  | @selfClosing scope tag attributes items space written blanks chars hspace hblanks htag
      hseparated hattributes _ ih =>
      subst hscope
      simp only [List.cons_append, List.append_assoc] at hfaces
      obtain ⟨opening, behind, hopened, hopening, hbehind⟩ :=
        Reader.advances_opened hspace htag hseparated (.inr rfl) hfaces
      obtain ⟨between, pending, ahead, hbetween, hevents, hahead⟩ :=
        Reader.advances_attributes hattributes (.inr rfl) hbehind
      obtain ⟨closing, stop, hclosed, hclosing, hstop⟩ :=
        Reader.advances_selfClosed hblanks hahead
      obtain ⟨entries, last, hrest, hspells, hlast⟩ := ih rfl (.of_rest hstop) hfollowing
      refine ⟨_, last, hopened.trans (hbetween.trans (hclosed.trans hrest)), ?_, hlast⟩
      rw [Scope.kept_cons items rfl]
      exact .selfClosing hopening hevents hclosing hspells
  | @element scope tag attributes content items space written inner slash before after chars
      hspace hslash hbefore hafter htag hseparated hattributes _ _ ihcontent ih =>
      subst hscope
      simp only [List.cons_append, List.append_assoc] at hfaces
      obtain ⟨opening, behind, hopened, hopening, hbehind⟩ :=
        Reader.advances_opened hspace htag hseparated (.inl rfl) hfaces
      obtain ⟨between, pending, ahead, hbetween, hevents, hahead⟩ :=
        Reader.advances_attributes hattributes (.inl rfl) hbehind
      obtain ⟨entrance, start, hentered, hentrance, hstart⟩ := Reader.advances_entered hahead
      -- The content is read with the element on top; its close tag begins with a `<`.
      obtain ⟨inward, within, hinner, hcontent, hwithin⟩ :=
        @ihcontent (tag :: tags) rfl _ _ (.of_rest hstart) fun _ => ⟨_, rfl⟩
      obtain ⟨closing, stop, hclosed, hclosing, hstop⟩ :=
        Reader.advances_closed hslash hbefore hafter htag hwithin
      obtain ⟨entries, last, hrest, hspells, hlast⟩ := ih rfl (.of_rest hstop) hfollowing
      refine ⟨_, last,
        hopened.trans (hbetween.trans (hentered.trans (hinner.trans (hclosed.trans hrest)))), ?_,
        hlast⟩
      rw [Scope.kept_cons items rfl]
      exact .element hopening hevents hentrance hcontent hclosing hspells

/-! ## Documents -/

/-- Where only what is skipped outside every element is left, reading ends. -/
theorem nextReading_end {cursor : Cursor} (hfaces : Faces Scope.document.skips cursor []) :
    nextReading .document cursor = .ok none cursor.skipAll := by
  have hall : ∀ c ∈ cursor.rest, Scope.document.skips c = true := by
    have hsplit := @List.takeWhile_append_dropWhile _ Scope.document.skips cursor.rest
    have hnil : cursor.rest.dropWhile Scope.document.skips = [] := hfaces
    rw [hnil, List.append_nil] at hsplit
    rw [← hsplit]
    exact List.all_eq_true.1 List.all_takeWhile
  have hindex : Text.indexOf? ['<'] cursor.rest = none := by
    cases hfound : Text.indexOf? ['<'] cursor.rest with
    | none => rfl
    | some index =>
        have hmem : '<' ∈ cursor.rest := by
          rw [Text.eq_of_indexOf? hfound]
          simp
        exact absurd (hall '<' hmem) (by decide)
  simp only [nextReading, hindex]

/-- The events of a document that is written for items spell the items that count. -/
theorem Renders.spells {items : List Item} {text : String}
    (h : Renders .document items text.toList) :
    (Trace.ofText text).fault = none ∧
      Spells (Trace.ofText text).entries (Scope.document.kept items) := by
  have hfaces : Faces Scope.document.skips (Cursor.ofText text) (text.toList ++ []) := by
    rw [List.append_nil]
    exact .of_rest rfl
  obtain ⟨entries, stop, hadvances, hspells, hstop⟩ :=
    @Renders.meets _ _ _ h [] rfl _ _ hfaces (fun hscope => absurd hscope (by decide))
  have hend : (Reader.between [] stop).trace = ⟨[], none⟩ :=
    Reader.trace_of_end (nextReading_end hstop)
  have htrace : Trace.ofText text = ⟨entries, none⟩ := by
    show (Reader.between [] (Cursor.ofText text)).trace = _
    rw [hadvances.trace, hend, List.append_nil]
  rw [htrace]
  exact ⟨rfl, hspells⟩

/-- However a document is written, it is converted to what its items contribute, if its
length and its levels are allowed: the root and every element hold under each key the
`slot` of what is contributed to them.  Only a text that cannot be read as a scalar stops
this. -/
theorem convert_of_renders {converter : Converter} {items : List Item} {text : String}
    (h : Renders .document items text.toList) (hlength : converter.exceededLimit? text = none)
    (hdepth : ∀ level, 0 < level → level ≤ height (Scope.document.kept items) →
      ¬ converter.Forbids converter.ceiling level) :
    ((∀ own ∈ scalars (Scope.document.kept items), converter.Reads own) →
      (converter.convert text).outcome =
        .ok (converter.conversionOf text (Scope.document.kept items)) ∧
      ∀ container ∈ contributions converter.valueOf (Scope.document.kept items) ::
          containers converter.valueOf (Scope.document.kept items),
        (Object.gather container).keys = firstKeys container ∧
        ∀ key, (Object.gather container).get? key = slot (valuesUnder key container)) ∧
    ((∃ own ∈ scalars (Scope.document.kept items), ¬ converter.Reads own) →
      (converter.convert text).outcome = .error .integerTooLong) := by
  obtain ⟨hfault, hspells⟩ := h.spells
  obtain ⟨haccepted, hrefused⟩ := Converter.outcome_of_spells hlength hfault hspells hdepth
  refine ⟨fun hreads => ⟨haccepted hreads, ?_⟩, hrefused⟩
  intro container _
  exact ⟨keys_gather container, get?_gather container⟩

/-- A document with blanks in its tags, an attribute without a value and references. -/
def spaced : String := "<?v?><a k = '&lt;'b>1 &#49;< b/></ a >\n"

theorem renders_spaced : Renders .document
    [.instruction "v",
      .element "a" [("k", some "<"), ("b", none)] [.text "1 1", .selfClosing "b" []], .text "\n"]
    spaced.toList := by
  have hspace : Blanks [' '] := by decide
  have hnothing : Blanks [] := by decide
  have hvalue : Encodes '\'' ['<'] ('&' :: "lt".toList ++ [';'] ++ []) :=
    .cons (.named (by decide)) .nil
  have hdigits : Digits 10 (4 * 10 + 9) (['4'] ++ ['9']) :=
    .snoc (.first (by decide) (by decide) (by decide)) (by decide) (by decide)
  have hone : Encodes '<' ['1', ' ', '1']
      (['1'] ++ ([' '] ++ ('&' :: '#' :: ['4', '9'] ++ [';'] ++ []))) :=
    .cons (.raw (by decide) (by decide)) (.cons (.raw (by decide) (by decide))
      (.cons (.decimal (by decide) hdigits) .nil))
  have hattributes : RendersAttributes [("k", some "<"), ("b", none)] _ :=
    .blank (show Text.isBlank ' ' = true by decide) (.valued (by decide) hspace hspace (.inr rfl)
      hvalue (.bare (by decide) (by decide) .nil))
  have hcontent : Renders .element [.text "1 1", .selfClosing "b" []] _ :=
    .text (by decide) hone (by decide)
      (.selfClosing hspace hnothing (by decide) (by decide) .nil .nil)
  exact .instruction hnothing (by decide) (.element hnothing hnothing hspace hspace (by decide)
    (by decide) hattributes hcontent (.ignored (by decide) .nil))

theorem convert_of_renders_spaced :
    Renders .document
      [.instruction "v",
        .element "a" [("k", some "<"), ("b", none)] [.text "1 1", .selfClosing "b" []], .text "\n"]
      spaced.toList ∧
    (({} : Converter).convert spaced).outcome = .ok (({} : Converter).conversionOf spaced
      [.instruction "v",
        .element "a" [("k", some "<"), ("b", none)] [.text "1 1", .selfClosing "b" []]]) := by
  have hdepth : ∀ level, 0 < level → level ≤ 2 →
      ¬ ({} : Converter).Forbids ({} : Converter).ceiling level := by
    intro level hlow hhigh
    have hlevel : level = 1 ∨ level = 2 := by omega
    rcases hlevel with rfl | rfl <;> simp [Converter.Forbids] <;> decide
  have hscalars : ∀ own ∈ ["<", "1 1"], ({} : Converter).Reads own := by
    intro own hmem
    obtain rfl | rfl : own = "<" ∨ own = "1 1" := by simpa using hmem
    · exact ⟨.string "<", rfl⟩
    · exact ⟨.string "1 1", rfl⟩
  refine ⟨renders_spaced, ?_⟩
  exact ((convert_of_renders renders_spaced rfl hdepth).1 hscalars).1

end XmlToJson

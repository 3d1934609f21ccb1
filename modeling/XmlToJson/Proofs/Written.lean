import XmlToJson.Proofs.Contributions
import XmlToJson.Proofs.Tiling

/-!
# Where texts and values are written

A text between two tags and the value of an attribute come from one token each, so each of them is
written in one stretch of the source, next to the place where its event ends.  `Entry.WrittenAs`
says how the stretch is delimited, and `isWritten_of_mem` that every text and every quoted value of
a document is what such a stretch stands for, with its references replaced.  A value without quotes
stands as it is written (`Entry.IsBare`).

The source is cut in three by a token that tiles it: what stands in front, the characters of the
token, and what stands behind (`Token.Tiles.exists_append`).  For a text and for a quoted value
these characters are the stretch with its delimiters, and `Decodes` relates it to the text of the
token (`Token.Tiles.isWritten_text`, `Token.Tiles.isWritten_attr`).

What is left is to find the token of an event.

* Markup begins with a token, but that is neither a text nor an attribute, so nothing is claimed of
  it (`not_hasValue_of_markupReading`).
* A text in an element is a token of its own (`isWritten_of_contentReading`).
* An attribute has its value in the last of three tokens, the name, an equals sign and the value
  (`isWritten_of_tagReading`); the token behind a name that has no value belongs to the next event,
  where it was read ahead.

All events of a text follow by induction (`Reader.isWritten_trace`), and the data of an accepted
document is gathered from them (`isWritten_of_convert`).  The stretches come with the data there
(`Conversion.IsWritten`), so that what is shown of stretches can be said of documents.
-/

namespace XmlToJson

/-- Whether an event has the text of a token: it is a text, or an attribute with a value. -/
def Event.HasValue (event : Event) : Prop :=
  (∃ value, event = .text value) ∨ ∃ name value, event = .attr name (some value)

/-- Whether the text or the quoted value of an event is written in the source as the stretch
`written`, which `decoded` is put for. -/
inductive Entry.WrittenAs (source : List Char) : Entry → List Char → List Char → Prop where
  | text {front written behind decoded : List Char} {start stop : Position} :
      source = front ++ (written ++ behind) → start.offset = front.length →
      stop.offset = front.length + written.length → '<' ∉ written →
      behind = [] ∨ behind.head? = some '<' →
      WrittenAs source ⟨.text (String.ofList (Text.trim decoded)), start, stop⟩ written decoded
  | quoted {front written behind decoded : List Char} {quote : Char} {name : String}
      {start stop : Position} :
      source = front ++ (quote :: written ++ quote :: behind) → Scan.isQuote quote = true →
      quote ∉ written → stop.offset = front.length + (written.length + 2) →
      WrittenAs source ⟨.attr name (some (String.ofList decoded)), start, stop⟩ written decoded

/-- Whether the value of an event is written in the source without quotes. -/
def Entry.IsBare (source : List Char) (entry : Entry) : Prop :=
  ∃ name value front text taken, entry.event = .attr name (some (String.ofList value)) ∧
    source = front ++ text ∧ BareRun Scan.endsName value text taken ∧
    entry.behind.offset = front.length + taken

/-- Whether the text or the value of an event is what the source shows next to it. -/
def Entry.IsWritten (source : List Char) (entry : Entry) : Prop :=
  entry.IsBare source ∨
    ∃ written decoded, entry.WrittenAs source written decoded ∧ Decodes written decoded

/-! ## Tokens that give a text -/

section Tokens

variable {source : List Char} {token : Token} {index : Nat} {stop : Position}

/-- The source in front of a token and behind it. -/
theorem Token.Tiles.exists_append {stop : Nat} (h : token.Tiles source index stop) :
    ∃ front text, source = front ++ text ∧ front.length = token.position.offset ∧
      Token.Covers token.kind token.value text (stop - token.position.offset) := by
  refine ⟨source.take token.position.offset, source.drop token.position.offset, ?_, ?_, h.covers⟩
  · exact (List.take_append_drop _ source).symm
  · rw [List.length_take, Nat.min_eq_left h.counted.offset_le]

theorem Token.Tiles.isWritten_text (h : token.Tiles source index stop.offset)
    (hkind : token.kind = .text) :
    Entry.IsWritten source ⟨.text token.value, token.position, stop⟩ := by
  obtain ⟨front, text, hsource, hfront, hcovers⟩ := h.exists_append
  have hlt := h.lt_stop
  obtain ⟨kind, value, position⟩ := token
  obtain rfl : kind = .text := hkind
  generalize htaken : stop.offset - position.offset = taken at hcovers
  cases hcovers with
  | @text inner behind decoded hne hinner hbehind hdecodes =>
      refine .inr ⟨inner, decoded, .text hsource hfront.symm ?_ hinner hbehind, hdecodes⟩
      have hplace : position.offset < stop.offset := hlt
      have hlength : front.length = position.offset := hfront
      omega

theorem Token.Tiles.isWritten_attr (h : token.Tiles source index stop.offset)
    (hkind : token.isIdentifier = true) (name : String) (start : Position) :
    Entry.IsWritten source ⟨.attr name (some token.value), start, stop⟩ := by
  obtain ⟨front, text, hsource, hfront, hcovers⟩ := h.exists_append
  have hlt := h.lt_stop
  obtain ⟨kind, value, position⟩ := token
  have hplace : position.offset < stop.offset := hlt
  have hlength : front.length = position.offset := hfront
  have hkinds : kind = .name ∨ kind = .quoted := by simpa [Token.isIdentifier] using hkind
  generalize htaken : stop.offset - position.offset = taken at hcovers
  rcases hkinds with rfl | rfl
  · cases hcovers with
    | @name run text taken hrun hallowed =>
        exact .inl ⟨name, run, front, text, taken, rfl, hsource, hrun, by
          show stop.offset = _
          omega⟩
  · cases hcovers with
    | @quoted quote inner behind decoded hquote hinner hdecodes =>
        exact .inr ⟨inner, decoded, .quoted hsource hquote hinner (by omega), hdecodes⟩

end Tokens

/-! ## Events -/

namespace Scan

variable {source : List Char} {cursor stop : Cursor}

/-- What markup begins with is neither a text nor an attribute. -/
theorem not_hasValue_of_markupEvent {enclosing : Option String} {token : Token} {event : Event}
    (h : markupEvent enclosing token cursor = .ok event stop) : ¬ event.HasValue := by
  have hfits := fits_of_markupEvent h
  rintro (⟨value, rfl⟩ | ⟨name, value, rfl⟩)
  · cases enclosing with
    | none => exact hfits
    | some tag =>
        -- In an element a text would fit, so here the scan itself says that it reads none.
        unfold markupEvent at h
        split at h
        · have houtside : markupEvent none token cursor = .ok (.text value) stop := by
            unfold markupEvent
            rwa [if_pos ‹_›]
          exact fits_of_markupEvent houtside
        · split at h
          · obtain ⟨body, -, heq⟩ := ok_of_map h
            simp at heq
          · split at h
            · obtain ⟨name, _, -, h⟩ := ok_of_bind h
              obtain ⟨_, _, -, h⟩ := ok_of_bind h
              obtain ⟨_, _, -, h⟩ := ok_of_bind h
              obtain ⟨_, _, -, h⟩ := ok_of_bind h
              obtain ⟨heq, -⟩ := ok_of_pure h
              simp at heq
            · split at h
              · obtain ⟨heq, -⟩ := ok_of_pure h
                simp at heq
              · simp [refuse, fail] at h
  · cases enclosing <;> exact hfits

theorem not_hasValue_of_markupReading {enclosing : Option String} {reading : Reading}
    (h : markupReading enclosing cursor = .ok reading stop) : ¬ reading.event.HasValue := by
  obtain ⟨token, between, event, -, hevent, rfl⟩ := ok_of_markupReading h
  exact not_hasValue_of_markupEvent hevent

/-- A token that is read inside a tag is what the source shows. -/
theorem tiles_of_nextToken {token : Token} (htracks : cursor.Tracks source)
    (h : nextToken cursor = .ok token stop) :
    stop.Tracks source ∧ token.Tiles source cursor.position.offset stop.position.offset := by
  have hperform : Operation.token.perform cursor = .ok (.token (some token)) stop := by
    rw [Operation.perform, map_apply, h]
  exact ⟨Operation.tracks_of_perform htracks hperform,
    (htracks.tiles_iff.1 ⟨stop, hperform, rfl⟩).2⟩

theorem tiles_of_nextContent {token : Token} (htracks : cursor.Tracks source)
    (h : nextContent cursor = .ok (some token) stop) :
    token.Tiles source cursor.position.offset stop.position.offset := by
  have hperform : Operation.content.perform cursor = .ok (.token (some token)) stop := by
    rw [Operation.perform, map_apply, h]
  exact (htracks.tiles_iff.1 ⟨stop, hperform, rfl⟩).2

theorem isWritten_of_contentReading {tag : String} {reading : Reading}
    (htracks : cursor.Tracks source) (h : contentReading tag cursor = .ok reading stop)
    (hvalue : reading.event.HasValue) :
    Entry.IsWritten source ⟨reading.event, reading.start, stop.position⟩ := by
  obtain ⟨token?, between, hcontent, h⟩ := ok_of_bind h
  cases token? with
  | none => simp [refuse, fail] at h
  | some token =>
      dsimp only at h
      split at h
      · next hkind =>
          obtain ⟨rfl, rfl⟩ := ok_of_pure h
          exact (tiles_of_nextContent htracks hcontent).isWritten_text (beq_iff_eq.1 hkind)
      · exact absurd hvalue (not_hasValue_of_markupReading h)

theorem isWritten_of_tagReading {token : Token} {reading : Reading}
    (htracks : cursor.Tracks source) (h : tagReading token cursor = .ok reading stop)
    (hvalue : reading.event.HasValue) :
    Entry.IsWritten source ⟨reading.event, reading.start, stop.position⟩ := by
  by_cases hname : token.isIdentifier = true
  · rw [tagReading, if_pos hname] at h
    obtain ⟨second, between, hsecond, h⟩ := ok_of_bind h
    obtain ⟨hbetween, -⟩ := tiles_of_nextToken htracks hsecond
    split at h
    · obtain ⟨found, behind, hfound, h⟩ := ok_of_bind h
      obtain ⟨_, last, hdemand, hpure⟩ := ok_of_bind h
      obtain ⟨hidentifier, rfl⟩ := ok_of_demand hdemand
      obtain ⟨rfl, rfl⟩ := ok_of_pure hpure
      exact (tiles_of_nextToken hbetween hfound).2.isWritten_attr hidentifier _ _
    · obtain ⟨rfl, rfl⟩ := ok_of_pure h
      simp [Event.HasValue] at hvalue
  · obtain ⟨hends, -⟩ := ok_of_tagEnd hname h
    rcases hends with rfl | rfl
    · simp [Event.HasValue] at hvalue
    · simp [Event.HasValue] at hvalue

/-- Wherever an event is read, its text or its value is what the source shows. -/
theorem isWritten_of_nextReading {place : Place} {reading : Reading}
    (htracks : cursor.Tracks source) (h : nextReading place cursor = .ok (some reading) stop)
    (hvalue : reading.event.HasValue) :
    Entry.IsWritten source ⟨reading.event, reading.start, stop.position⟩ := by
  rcases place with - | tag | - | token
  · simp only [nextReading] at h
    split at h
    · simp at h
    · obtain ⟨found, hfound, hsome⟩ := ok_of_map h
      obtain rfl := Option.some.inj hsome
      exact absurd hvalue (not_hasValue_of_markupReading hfound)
  · obtain ⟨found, hfound, hsome⟩ := ok_of_map h
    obtain rfl := Option.some.inj hsome
    exact isWritten_of_contentReading htracks hfound hvalue
  · obtain ⟨token, between, htoken, h⟩ := ok_of_bind h
    obtain ⟨found, hfound, hsome⟩ := ok_of_map h
    obtain rfl := Option.some.inj hsome
    exact isWritten_of_tagReading (tiles_of_nextToken htracks htoken).1 hfound hvalue
  · obtain ⟨found, hfound, hsome⟩ := ok_of_map h
    obtain rfl := Option.some.inj hsome
    exact isWritten_of_tagReading htracks hfound hvalue

end Scan

theorem Reader.isWritten_trace {source : List Char} {reader : Reader}
    (hcursor : reader.cursor.Tracks source) (hpending : Scan.AreIn source reader.pending) :
    ∀ entry ∈ reader.trace.entries, entry.event.HasValue → entry.IsWritten source := by
  -- The cursor tracks the source behind each event.
  fun_induction Reader.trace reader with
  | case1 | case2 => simp
  | case3 reader reading stop hread rest ih =>
      have hstays := Scan.keeps_nextReading reader.nest hpending hcursor
      rw [show reader.nest.place reader.pending = reader.place from rfl, hread] at hstays
      obtain ⟨hstop, hreading⟩ := hstays
      obtain ⟨-, hahead⟩ := hreading reading rfl
      rw [List.forall_mem_cons]
      exact ⟨Scan.isWritten_of_nextReading hcursor hread, ih hstop hahead⟩

/-- Every text and every value of a document is what its source shows. -/
theorem isWritten_of_mem {text : String} {entry : Entry}
    (hmem : entry ∈ (Trace.ofText text).entries) (hvalue : entry.event.HasValue) :
    entry.IsWritten text.toList :=
  Reader.isWritten_trace (.ofText text) Scan.areIn_none entry hmem hvalue

/-- Whether the data of a conversion is gathered from a document in which every text and every
quoted value is written as a `good` stretch for what it stands for. -/
structure Conversion.IsWritten (converter : Converter) (text : String)
    (good : List Char → List Char → Prop) (found : Conversion) : Prop where
  gathered : ∃ items, Spells (Trace.ofText text).entries items ∧
    found.data = .gather (contributions converter.valueOf items)
  written : ∀ entry ∈ (Trace.ofText text).entries, entry.event.HasValue →
    entry.IsBare text.toList ∨
      ∃ written decoded, entry.WrittenAs text.toList written decoded ∧ good written decoded

theorem Conversion.IsWritten.mono {converter : Converter} {text : String} {found : Conversion}
    {good better : List Char → List Char → Prop} (h : found.IsWritten converter text better)
    (hgood : ∀ written decoded, better written decoded → good written decoded) :
    found.IsWritten converter text good where
  gathered := h.gathered
  written := by
    intro entry hmem hvalue
    refine (h.written entry hmem hvalue).imp_right ?_
    rintro ⟨written, decoded, hwritten, hbetter⟩
    exact ⟨written, decoded, hwritten, hgood written decoded hbetter⟩

/-- The data of an accepted document is gathered from what its source shows. -/
theorem isWritten_of_convert {converter : Converter} {text : String} {found : Conversion}
    (h : (converter.convert text).outcome = .ok found) :
    found.IsWritten converter text Decodes where
  gathered := by
    obtain ⟨-, hfault, -⟩ := Converter.follow_of_convert h
    obtain ⟨items, hitems⟩ := exists_spells text hfault
    exact ⟨items, hitems, congrArg Conversion.data (Converter.eq_conversionOf h hitems)⟩
  written _ := isWritten_of_mem

end XmlToJson

import XmlToJson.Proofs.CharacterNumbers
import XmlToJson.Proofs.Materials
import XmlToJson.Proofs.Output
import XmlToJson.Proofs.Scalars
import XmlToJson.Proofs.Written

/-!
# The alphabet of the data

The keys and the strings that a document is converted to are drawn from the document: each of their
characters stands in the source, or is the character of a reference (`IsDrawn`).  A reference can be
to any number, but only the numbers of characters that a document may contain are resolved, so no
other character comes in through it, be it in a text, in a value or in a quoted name.

The property goes through the stages of a conversion one after the other.

* **References.**  `mem_expand` says what a character of the text that replaces a reference is: one
  of the reference itself, or one that is allowed.  `inRanges_allowedRanges_iff` spells out which
  characters these are, so a source of allowed characters gives no others (`IsDrawn.allowed`).
* **Tokens.**  Decoding makes characters by references only (`Decodes.mem`), and trimming makes
  none, so the text of a token is drawn from the characters that the token covers
  (`Token.Tiles.isDrawn`).
* **Events.**  Each way to read an event has one lemma (`draws_markupReading`,
  `draws_contentReading`, `draws_tagReading`).  A tag reads one token ahead, of which the next event
  may consist, so that token has to be taken along: `Reading.IsDrawn` says it of the event and of
  the token.  `Reader.draws_trace` is the induction on the events of a text.
* **Data.**  What events give is all that data is made of (`Spells.madeOf`), and a scalar that is a
  string is the text that it was read from (`madeOf_valueOf`).
* **Text.**  The JSON text of the data adds only characters that are plain
  (`JsonGrammar.SpellsElement.forall_mem`).
-/

namespace XmlToJson

/-! ## Characters -/

/-- Whether the character with the given number is forbidden in a document: half of a pair, a
control other than the tab, the line feed and the carriage return, or one of the last two
characters of the first plane. -/
def IsForbidden (code : Nat) : Prop :=
  (0xD800 ≤ code ∧ code ≤ 0xDFFF) ∨ (code < 0x20 ∧ code ∉ [0x9, 0xA, 0xD]) ∨ code = 0xFFFE ∨
    code = 0xFFFF

/-- The allowed ranges leave out the forbidden characters, and nothing else that has a number. -/
theorem inRanges_allowedRanges_iff {code : Nat} :
    Text.inRanges Reference.allowedRanges code = true ↔ code ≤ 0x10FFFF ∧ ¬ IsForbidden code := by
  rw [Text.inRanges_iff]
  simp only [Reference.allowedRanges, IsForbidden, List.mem_cons, List.not_mem_nil, or_false,
    exists_eq_or_imp, exists_eq_left]
  omega

theorem not_isForbidden_of_isPlain {c : Char} (h : JsonGrammar.IsPlain c) :
    ¬ IsForbidden c.toNat := by
  rcases h with hprintable | hspace
  · unfold IsForbidden
    omega
  · simp only [List.mem_cons, List.not_mem_nil, or_false] at hspace
    rcases hspace with rfl | rfl | rfl <;> simp [IsForbidden]

/-- Whether every character of a text stands in the source or may stand in a document. -/
def IsDrawn (source : List Char) (text : String) : Prop :=
  ∀ c ∈ text.toList, c ∈ source ∨ IsAllowed c

theorem isDrawn_ofList {source chars : List Char} (h : ∀ c ∈ chars, c ∈ source ∨ IsAllowed c) :
    IsDrawn source (String.ofList chars) := by
  rwa [IsDrawn, String.toList_ofList]

/-- A text drawn from a source of allowed characters has no others. -/
theorem IsDrawn.allowed {source : List Char} {text : String} (h : IsDrawn source text)
    (hsource : ∀ c ∈ source, IsAllowed c) : ∀ c ∈ text.toList, IsAllowed c :=
  fun c hc => (h c hc).elim (hsource c) id

namespace Reference

variable {name : List Char} {c : Char}

/-- A reference is resolved to allowed characters only. -/
theorem isAllowed_of_resolve? (h : resolve? name = some c) : IsAllowed c := by
  have hnamed : ∀ {name : List Char}, named? name = some c → IsAllowed c := by
    intro name hname
    have hall : ∀ entry ∈ namedCharacters, IsAllowed entry.2 := by decide
    exact hall _ (named?_eq_some_iff.1 hname)
  unfold resolve? at h
  split at h
  · obtain ⟨code, -, hcode⟩ := Option.bind_eq_some_iff.1 h
    obtain ⟨value, -, hrange, rfl⟩ := character?_eq_some_iff.1 hcode
    rwa [IsAllowed, toNat_ofNat_of_inRanges hrange]
  · exact hnamed h

/-- What a reference is replaced by is allowed, or the reference itself. -/
theorem mem_expand (h : c ∈ expand name) : c ∈ '&' :: (name ++ [';']) ∨ IsAllowed c := by
  unfold expand at h
  split at h
  · next found hfound =>
      obtain rfl := List.mem_singleton.1 h
      exact .inr (isAllowed_of_resolve? hfound)
  · exact .inl h

end Reference

theorem Decodes.mem {written decoded : List Char} (h : Decodes written decoded) :
    ∀ c ∈ decoded, c ∈ written ∨ IsAllowed c := by
  induction h with
  | nil => simp
  | @raw c written decoded _ _ ih =>
      refine List.forall_mem_cons.2 ⟨.inl List.mem_cons_self, fun d hd => ?_⟩
      exact (ih d hd).imp_left (List.mem_cons_of_mem c)
  | @reference name written decoded _ _ ih =>
      refine List.forall_mem_append.2 ⟨fun c hc => ?_, fun c hc => ?_⟩
      · refine (Reference.mem_expand hc).imp_left fun hmem => ?_
        have hfront : '&' :: (name ++ [';']) ⊆ '&' :: (name ++ ';' :: written) := by simp
        exact hfront hmem
      · refine (ih c hc).imp_left fun hmem => ?_
        simp [hmem]

theorem Text.mem_of_mem_trim {text : List Char} {c : Char} (h : c ∈ trim text) : c ∈ text := by
  have hinner := (List.dropWhile_sublist _).subset (List.mem_reverse.1 h)
  exact (List.dropWhile_sublist _).subset (List.mem_reverse.1 hinner)

/-! ## Tokens -/

/-- The text of a token is drawn from what the token covers. -/
theorem Token.Covers.isDrawn {kind : TokenKind} {value : String} {text : List Char} {taken : Nat}
    (h : Covers kind value text taken) : IsDrawn text value := by
  have hrun : ∀ {ends : Char → Bool} {run text : List Char} {taken : Nat},
      BareRun ends run text taken → IsDrawn text (String.ofList run) := by
    rintro ends run text taken ⟨⟩
    exact isDrawn_ofList fun c hc => .inl (List.mem_append_left _ hc)
  cases h with
  | @marker c behind marker _ =>
      have hchars : c.toString.toList = [c] := String.toList_singleton c
      rw [IsDrawn, hchars]
      exact List.forall_mem_singleton.2 (.inl List.mem_cons_self)
  | name hname _ => exact hrun hname
  | quoted _ _ hdecodes =>
      refine isDrawn_ofList fun c hc => (hdecodes.mem c hc).imp_left fun hmem => ?_
      simp [hmem]
  | text _ _ _ hdecodes =>
      refine isDrawn_ofList fun c hc => ?_
      exact (hdecodes.mem c (Text.mem_of_mem_trim hc)).imp_left (List.mem_append_left _)
  | quotedFragment =>
      refine isDrawn_ofList fun c hc => .inl ?_
      simp [hc]
  | fragment hfragment => exact hrun hfragment

theorem Token.Tiles.isDrawn {source : List Char} {token : Token} {index stop : Nat}
    (h : token.Tiles source index stop) : IsDrawn source token.value := by
  obtain ⟨front, text, rfl, -, hcovers⟩ := h.exists_append
  exact fun c hc => (hcovers.isDrawn c hc).imp_left (List.mem_append_right front)

/-! ## Events -/

/-- Whether what an event gives is drawn from the source. -/
abbrev Event.IsDrawn (source : List Char) (event : Event) : Prop :=
  event.Gives (XmlToJson.IsDrawn source) (XmlToJson.IsDrawn source)

/-- Whether an event that was read is drawn from the source, and so is the token that has been read
ahead. -/
structure Reading.IsDrawn (source : List Char) (reading : Reading) : Prop where
  event : reading.event.IsDrawn source
  pending : ∀ token ∈ reading.pending, XmlToJson.IsDrawn source token.value

namespace Scan

variable {source : List Char}

/-- What is known of the value of a scan that keeps to its text. -/
theorem Keeps.of_ok {α : Type} {good fine : α → Prop} {scan : Scan α}
    (h : Keeps source good scan)
    (hfine : ∀ ⦃cursor value stop⦄, cursor.Tracks source → scan cursor = .ok value stop →
      fine value) : Keeps source fine scan := by
  intro cursor htracks
  have hstays := h htracks
  cases hresult : scan cursor with
  | ok value stop =>
      rw [hresult] at hstays
      exact ⟨hstays.1, hfine htracks hresult⟩
  | error error stop =>
      rw [hresult] at hstays
      exact hstays

theorem draws_nextToken : Keeps source (fun token => IsDrawn source token.value) nextToken :=
  keeps_nextToken.of_ok fun _ _ _ htracks h => (tiles_of_nextToken htracks h).2.isDrawn

theorem draws_nextContent :
    Keeps source (fun token? => ∀ token ∈ token?, IsDrawn source token.value) nextContent := by
  refine keeps_nextContent.of_ok fun cursor token? stop htracks h token htoken => ?_
  obtain rfl := htoken
  exact (tiles_of_nextContent htracks h).isDrawn

theorem draws_cdataText : Keeps source (IsDrawn source) cdataText := by
  refine keeps_cdataText.of_ok fun cursor value stop htracks h => ?_
  obtain ⟨read, rfl, -⟩ := htracks.place
  simp only [cdataText] at h
  split at h
  · simp [fail] at h
  · obtain ⟨rfl, -⟩ := by simpa using h
    refine isDrawn_ofList fun c hc => .inl ?_
    exact List.mem_append_right read (List.mem_of_mem_take hc)

theorem draws_exclamation : Keeps source (Event.IsDrawn source) exclamation := by
  refine keeps_markupSort.bind fun sort _ => ?_
  cases sort with
  | comment => exact (keeps_textUntil _ (by simp)).bind fun _ _ => .pure trivial
  | bracketed =>
      exact keeps_nextToken.bind fun _ _ => (keeps_demand _ (by simp)).bind fun _ _ =>
        keeps_cdataBracket.bind fun _ _ => draws_cdataText.bind fun _ hdrawn => .pure hdrawn
  | declaration => exact (keeps_declarationEnd 0).bind fun _ _ => .pure trivial

/-- A close tag gives nothing. -/
theorem draws_closeTag (enclosing : Option String) :
    Keeps source (Event.IsDrawn source) (closeTag enclosing) := by
  refine keeps_nextToken.bind fun name _ => ?_
  cases enclosing with
  | none => exact keeps_refuse (by simp)
  | some tag =>
      exact (keeps_demand _ (by simp)).bind fun _ _ => keeps_nextToken.bind fun _ _ =>
        (keeps_demand _ (by simp)).bind fun _ _ => .pure trivial

theorem draws_markupEvent (enclosing : Option String) {token : Token}
    (htoken : IsDrawn source token.value) :
    Keeps source (Event.IsDrawn source) (markupEvent enclosing token) := by
  unfold markupEvent
  split
  · exact draws_exclamation
  · split
    · exact (keeps_textUntil _ (by simp)).map fun _ _ => trivial
    · split
      · exact draws_closeTag enclosing
      · split
        · exact .pure htoken
        · exact keeps_refuse (by simp)

theorem draws_markupReading (enclosing : Option String) :
    Keeps source (Reading.IsDrawn source) (markupReading enclosing) :=
  draws_nextToken.bind fun _ htoken => (draws_markupEvent enclosing htoken).bind fun _ hevent =>
    .pure ⟨hevent, by simp⟩

theorem draws_contentReading (tag : String) :
    Keeps source (Reading.IsDrawn source) (contentReading tag) := by
  refine draws_nextContent.bind fun token? htoken => ?_
  cases token? with
  | none => exact keeps_refuse (by simp)
  | some token =>
      dsimp only
      split
      · exact .pure ⟨htoken token rfl, by simp⟩
      · exact draws_markupReading (some tag)

theorem draws_tagReading {token : Token} (htoken : IsDrawn source token.value) :
    Keeps source (Reading.IsDrawn source) (tagReading token) := by
  unfold tagReading
  split
  · refine draws_nextToken.bind fun second hsecond => ?_
    split
    · refine draws_nextToken.bind fun value hvalue => (keeps_demand _ (by simp)).bind fun _ _ => ?_
      refine .pure ⟨⟨htoken, fun own hown => ?_⟩, by simp⟩
      obtain rfl := Option.some.inj hown
      exact hvalue
    · refine .pure ⟨⟨htoken, by simp⟩, fun ahead hahead => ?_⟩
      obtain rfl := Option.some.inj hahead
      exact hsecond
  · split
    · exact keeps_nextToken.bind fun _ _ => (keeps_demand _ (by simp)).bind fun _ _ =>
        .pure ⟨trivial, by simp⟩
    · exact (keeps_demand _ (by simp)).bind fun _ _ => .pure ⟨trivial, by simp⟩

/-- Wherever an event is read, it is drawn from the source, also behind a token that has been read
ahead. -/
theorem draws_nextReading (nest : Nest) {pending : Option Token}
    (hpending : ∀ token ∈ pending, IsDrawn source token.value) :
    Keeps source (fun reading? => ∀ reading ∈ reading?, reading.IsDrawn source)
      (nextReading (nest.place pending)) := by
  have hsome : ∀ {scan : Scan Reading}, Keeps source (Reading.IsDrawn source) scan →
      Keeps source (fun reading? => ∀ reading ∈ reading?, reading.IsDrawn source)
        (some <$> scan) := by
    intro scan hscan
    refine hscan.map fun found hfound reading hreading => ?_
    obtain rfl := Option.some.inj hreading
    exact hfound
  obtain ⟨openTags, - | name⟩ := nest
  · cases openTags with
    | nil =>
        intro cursor h
        simp only [Nest.place_document, nextReading]
        split
        · exact ⟨h.skipAll, by simp⟩
        · exact hsome (draws_markupReading none) (h.skip _)
    | cons tag outer => exact hsome (draws_contentReading tag)
  · cases pending with
    | none => exact draws_nextToken.bind fun token htoken => hsome (draws_tagReading htoken)
    | some token => exact hsome (draws_tagReading (hpending token rfl))

end Scan

/-- Every event that a reader meets is drawn from the text that it reads. -/
theorem Reader.draws_trace {source : List Char} {reader : Reader}
    (hcursor : reader.cursor.Tracks source)
    (hpending : ∀ token ∈ reader.pending, IsDrawn source token.value) :
    ∀ entry ∈ reader.trace.entries, entry.event.IsDrawn source := by
  -- The cursor tracks the source, and the token that was read ahead is drawn from it.
  fun_induction Reader.trace reader with
  | case1 | case2 => simp
  | case3 reader reading stop hread rest ih =>
      have hstays := Scan.draws_nextReading reader.nest hpending hcursor
      rw [show reader.nest.place reader.pending = reader.place from rfl, hread] at hstays
      obtain ⟨hstop, hreading⟩ := hstays
      obtain ⟨hevent, hahead⟩ := hreading reading rfl
      rw [List.forall_mem_cons]
      exact ⟨hevent, ih hstop hahead⟩

/-! ## Documents -/

namespace Converter

/-- A text is the only string that it can be read as. -/
theorem madeOf_valueOf {name written : String → Prop} (converter : Converter) {text : String}
    (h : written text) : (converter.valueOf text).MadeOf (Value.HoldsText written) name := by
  refine .scalar (isContainer_valueOf converter text) fun own hown => ?_
  rcases converter.valueOf_cases text with hsame | ⟨-, hread⟩
  · rw [hsame] at hown
    obtain rfl := Value.string.inj hown
    exact h
  · rw [hown] at hread
    have hother := (Scalar.classifies_ofText text).other
    rw [hread] at hother
    obtain rfl : own = text := by simpa using hother
    exact h

/-- The keys and the strings of what an accepted document is converted to are drawn from the
document: each of their characters stands in it or is allowed in documents.  So the data of a
document without forbidden characters has none, nor has the text that the data is written as. -/
theorem drawn_of_convert (converter : Converter) (text : String) (found : Conversion)
    (h : (converter.convert text).outcome = .ok found) :
    found.data.toValue.UsesOnly (fun c => c ∈ text.toList ∨ IsAllowed c) ∧
    ((∀ c ∈ text.toList, ¬ IsForbidden c.toNat) →
      (found.data.toValue.UsesOnly fun c => ¬ IsForbidden c.toNat) ∧
      ∀ layout : JsonLayout, layout.IsSpaced →
        ∀ c ∈ (found.toJson layout).toList, ¬ IsForbidden c.toNat) := by
  have hempty : Value.HoldsText (IsDrawn text.toList) (.string "") := by
    intro own hown
    obtain rfl := Value.string.inj hown
    simp [IsDrawn]
  have hcontent : IsDrawn text.toList Object.contentKey := by
    have hall : ∀ c ∈ Object.contentKey.toList, IsAllowed c := forall_mem_of_all (by decide)
    exact fun c hc => .inr (hall c hc)
  have hdrawn : found.data.toValue.UsesOnly fun c => c ∈ text.toList ∨ IsAllowed c :=
    madeOf_of_convert h hempty hcontent (fun own hown => converter.madeOf_valueOf hown)
      (Reader.draws_trace (.ofText text) (by simp [Reader.ofText]))
  refine ⟨hdrawn, fun hsource => ?_⟩
  have hfree : found.data.toValue.UsesOnly fun c => ¬ IsForbidden c.toNat :=
    hdrawn.mono fun c hc => hc.elim (hsource c)
      fun hallowed => (inRanges_allowedRanges_iff.1 hallowed).2
  refine ⟨hfree, fun layout hlayout => ?_⟩
  have hplain : ∀ c, JsonGrammar.IsPlain c → ¬ IsForbidden c.toNat :=
    fun _ => not_isForbidden_of_isPlain
  exact (isPrintedAs_of_convert h hlayout).strict.forall_mem hplain hfree.plain

/-- References to forbidden characters stay as they are written, in a name and in a text. -/
theorem drawn_of_convert_forbidden :
    ∃ found, (({} : Converter).convert "<'&#0;'>&#xD800;&#9;</'&#0;'>").outcome = .ok found ∧
      (found.data.toValue.UsesOnly fun c => ¬ IsForbidden c.toNat) ∧
      ∀ c ∈ (found.toJson .compact).toList, ¬ IsForbidden c.toNat := by
  have hok : (({} : Converter).convert
      "<'&#0;'>&#xD800;&#9;</'&#0;'>").outcome.toOption.isSome = true := by
    decide +kernel
  obtain ⟨found, hfound⟩ := exists_of_isSome hok
  have hsource : ∀ c ∈ "<'&#0;'>&#xD800;&#9;</'&#0;'>".toList, ¬ IsForbidden c.toNat := by
    simp [IsForbidden]
  obtain ⟨hdata, houtput⟩ := (drawn_of_convert {} _ found hfound).2 hsource
  exact ⟨found, hfound, hdata, houtput .compact JsonLayout.isSpaced_compact⟩

end Converter

end XmlToJson

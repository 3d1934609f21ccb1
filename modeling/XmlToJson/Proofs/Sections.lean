import XmlToJson.Proofs.Balance
import XmlToJson.Proofs.Tiling

/-!
# CDATA sections

Behind `<![` stands the name of a section, and it is read as any token inside a tag.  So a section
can be opened in more ways than with `CDATA[`: with blanks in front of the name and one behind it,
and with a quoted name, in which references are replaced.  Whatever way a section is opened, its
text is captured as it stands up to the first `]]>`.  So nothing but `CDATA[` opens a section if and
only if none of the other openings is followed by a `]]>` (`section_exact_iff`).

## Strategy

* **The openings.**  `OpensCdata` lists them, with what is left behind each.  An opening is a token
  that is `CDATA`, quoted or not, and a bracket (`cdataOpening_eq_ok_iff`).  Which characters such a
  token can cover is known from `Tiling.lean`, and going through the sorts of tokens gives one
  opening for each (`opensCdata_of_covers`, `covers_of_opensCdata`).  So a section is opened if and
  only if one of the openings stands there (`cdataOpening_iff`).
* **The text.**  It is read up to the brackets that close it, or refused at the opening if there are
  none (`exists_cdataText`, `error_of_cdataText`).  `captured` is what capturing comes to: the
  section is counted, and a text that is not empty is added to the element.  Capturing a text is no
  fault of the document (`captured_ne`), which tells a section that is read from one that is
  refused.
* **The two together** say how a section that is opened in some way goes on: it is captured if a
  `]]>` follows, and refused if none does (`declaration_of_opensCdata`, `declaration_of_unclosed`,
  `declaration_refused_iff`).  Where a cursor comes to depends only on what is left there
  (`skip_eq_of_rest`), so the places of two openings need not be compared.

A blank in front of the name is enough (`spaced_section_captured`).
-/

namespace XmlToJson

/-- Whether a text begins with the opening of a CDATA section as it is read, and what is left behind
that. -/
inductive OpensCdata : List Char → List Char → Prop where
  | bare {blanks gap left : List Char} :
      Blanks blanks → Blanks gap → gap.length ≤ 1 →
      OpensCdata (blanks ++ ("CDATA".toList ++ (gap ++ '[' :: left))) left
  | quoted {blanks inner left : List Char} {quote : Char} :
      Blanks blanks → Scan.isQuote quote = true → quote ∉ inner →
      Decodes inner "CDATA".toList →
      OpensCdata (blanks ++ quote :: (inner ++ quote :: '[' :: left)) left

/-- The opening as it should be. -/
theorem OpensCdata.exact (left : List Char) : OpensCdata ("CDATA[".toList ++ left) left :=
  @OpensCdata.bare [] [] left (by decide) (by decide) (by decide)

/-- A literal that does not stand anywhere is not found. -/
theorem Text.indexOf?_eq_none_iff {literal text : List Char} (hliteral : literal ≠ []) :
    indexOf? literal text = none ↔ ¬ literal <:+: text := by
  induction text with
  | nil => simp [indexOf?, hliteral]
  | cons c rest ih =>
      rw [indexOf?, List.infix_cons_iff, not_or, ← ih]
      by_cases hfront : literal.isPrefixOf (c :: rest) = true
      · simp [hfront, List.isPrefixOf_iff_prefix.1 hfront]
      · simp [hfront, mt List.isPrefixOf_iff_prefix.2 hfront]

namespace Cursor

variable {cursor between stop : Cursor}

theorem Reaches.trans (h : cursor.Reaches between) (hstop : between.Reaches stop) :
    cursor.Reaches stop := by
  obtain ⟨count, hcount⟩ := hstop
  obtain ⟨more, hmore⟩ := h.exists_skip count
  exact ⟨more, hcount.trans hmore⟩

theorem reaches_next (cursor : Cursor) : cursor.Reaches cursor.next.2 :=
  ⟨1, skip_next cursor 0⟩

/-- Two jumps that leave the same text come to the same place. -/
theorem skip_eq_of_rest {first second : Nat}
    (h : (cursor.skip first).rest = (cursor.skip second).rest) :
    cursor.skip first = cursor.skip second := by
  change cursor.rest.drop first = cursor.rest.drop second at h
  have htake : cursor.rest.take first = cursor.rest.take second := by
    have hsplit := (List.take_append_drop first cursor.rest).trans
      (List.take_append_drop second cursor.rest).symm
    rw [h] at hsplit
    exact List.append_cancel_right hsplit
  rw [skip, skip, h, htake]

end Cursor

namespace Scan

variable {cursor stop : Cursor} {left : List Char}

/-- Reads the opening of a CDATA section, behind its first bracket. -/
def cdataOpening : Scan Unit := do
  let name ← nextToken
  demand (name.isIdentifier && name.value == "CDATA") .notCdata
  cdataBracket

theorem reaches_of_quotedValue {quote : Char} {value : String}
    (h : quotedValue quote cursor = .ok value stop) : cursor.Reaches stop := by
  simp only [quotedValue] at h
  split at h
  · obtain ⟨-, rfl⟩ := EStateM.Result.ok.inj h
    exact cursor.reaches_skipAndStep _
  · simp [fail] at h
  · simp [fail] at h

theorem reaches_of_bareName {value : String} (h : bareName cursor = .ok value stop) :
    cursor.Reaches stop := by
  simp only [bareName] at h
  split at h
  · obtain ⟨-, rfl⟩ := EStateM.Result.ok.inj h
    exact cursor.reaches_skip _
  · split at h
    · obtain ⟨-, rfl⟩ := EStateM.Result.ok.inj h
      exact cursor.reaches_skipAndStep _
    · split at h
      · obtain ⟨-, rfl⟩ := EStateM.Result.ok.inj h
        exact cursor.reaches_skip _
      · simp [fail] at h

theorem reaches_of_nextToken {token : Token} (h : nextToken cursor = .ok token stop) :
    cursor.Reaches stop := by
  have hblanks : cursor.Reaches (skipBlanks cursor) := cursor.reaches_skip _
  cases nextToken_eq_ok_iff.1 h with
  | marker => exact hblanks.trans (Cursor.reaches_next _)
  | quoted _ _ _ _ hvalue =>
      exact (hblanks.trans (Cursor.reaches_next _)).trans (reaches_of_quotedValue hvalue)
  | name _ _ _ _ hvalue => exact hblanks.trans (reaches_of_bareName hvalue)

theorem cdataBracket_iff :
    cdataBracket cursor = .ok () stop ↔
      stop = cursor.next.2 ∧ ∃ rest, cursor.rest = '[' :: rest := by
  unfold cdataBracket Cursor.next
  cases cursor.rest with
  | nil => simp [fail]
  | cons c rest =>
      by_cases hc : c = '['
      · subst hc
        simp [eq_comm]
      · simp [fail, hc]

/-- A section is opened by a token that is `CDATA`, quoted or not, and a bracket. -/
theorem cdataOpening_eq_ok_iff : cdataOpening cursor = .ok () stop ↔
    ∃ name between, nextToken cursor = .ok name between ∧ name.isIdentifier = true ∧
      name.value = "CDATA" ∧ stop = between.next.2 ∧ ∃ rest, between.rest = '[' :: rest := by
  unfold cdataOpening
  rw [bind_apply]
  cases nextToken cursor with
  | error error behind => simp
  | ok name between =>
      by_cases hname : (name.isIdentifier && name.value == "CDATA") = true
      · have hparts : name.isIdentifier = true ∧ name.value = "CDATA" := by simpa using hname
        simp only [bind_apply, demand_apply, hname, if_true, cdataBracket_iff]
        constructor
        · exact fun h => ⟨name, between, rfl, hparts.1, hparts.2, h⟩
        · rintro ⟨_, _, hsame, -, -, h⟩
          obtain ⟨rfl, rfl⟩ := EStateM.Result.ok.inj hsame
          exact h
      · simp only [bind_apply, demand_apply, hname]
        refine iff_of_false (by simp) ?_
        rintro ⟨_, _, hsame, hidentifier, hvalue, -⟩
        obtain ⟨rfl, rfl⟩ := EStateM.Result.ok.inj hsame
        exact hname (by simp [hidentifier, hvalue])

theorem reaches_of_cdataOpening (h : cdataOpening cursor = .ok () stop) : cursor.Reaches stop := by
  obtain ⟨name, between, hname, -, -, rfl, -⟩ := cdataOpening_eq_ok_iff.1 h
  exact (reaches_of_nextToken hname).trans (Cursor.reaches_next _)

theorem not_isBlank_of_isQuote {quote : Char} (h : isQuote quote = true) :
    Text.isBlank quote = false := by
  have hquotes : quote = '"' ∨ quote = '\'' := by simpa [isQuote] using h
  rcases hquotes with rfl | rfl <;> decide

/-- A name that is `CDATA`, with a bracket behind it, is one of the openings. -/
theorem opensCdata_of_covers {kind : TokenKind} {value : String} {blanks text : List Char}
    {taken : Nat} (hblanks : Blanks blanks) (hcovers : Token.Covers kind value text taken)
    (hkind : kind = .name ∨ kind = .quoted) (hvalue : value = "CDATA")
    (hleft : text.drop taken = '[' :: left) : OpensCdata (blanks ++ text) left := by
  cases hcovers with
  | marker | text | quotedFragment | fragment => simp at hkind
  | @name run text taken hrun hallowed =>
      obtain rfl : run = "CDATA".toList := by rw [← hvalue, String.toList_ofList]
      generalize hname : "CDATA".toList = name at hrun
      cases hrun with
      | @intro c others behind more _ _ _ _ hends =>
          rw [← List.drop_drop, List.drop_left] at hleft
          rw [← hname]
          cases hends with
          | exhausted => simp at hleft
          | @blank d rest hblank =>
              obtain rfl : rest = '[' :: left := hleft
              exact @OpensCdata.bare blanks [d] left hblanks (List.forall_mem_singleton.2 hblank)
                (Nat.le_refl 1)
          | terminator =>
              rw [List.drop_zero] at hleft
              rw [hleft]
              exact @OpensCdata.bare blanks [] left hblanks (by decide) (by decide)
  | @quoted quote inner behind decoded hquote hinner hdecodes =>
      obtain rfl : decoded = "CDATA".toList := by rw [← hvalue, String.toList_ofList]
      rw [drop_quoted] at hleft
      rw [hleft]
      exact .quoted hblanks hquote hinner hdecodes

/-- Each opening is a name that is `CDATA`, with a bracket behind it. -/
theorem covers_of_opensCdata (h : OpensCdata cursor.rest left) :
    ∃ kind taken, (kind = .name ∨ kind = .quoted) ∧
      Token.Covers kind "CDATA" (skipBlanks cursor).rest taken ∧
      (skipBlanks cursor).rest.drop taken = '[' :: left := by
  generalize htext : cursor.rest = text at h
  cases h with
  | @bare blanks gap left hblanks hgap hlength =>
      have hstart : (skipBlanks cursor).rest = 'C' :: ("DATA".toList ++ (gap ++ '[' :: left)) :=
        rest_skipBlanks ((Faces.of_rest htext).of_append hblanks) (by decide)
      have hends : EndsRun endsName (gap ++ '[' :: left) gap.length := by
        rcases gap with - | ⟨c, - | ⟨d, gap⟩⟩
        · exact .terminator (by decide) (by decide)
        · exact .blank (hgap c List.mem_cons_self)
        · simp at hlength
      have hname : ∀ d ∈ "CDATA".toList, isNameChar d = true := List.all_eq_true.1 (by decide)
      have hrun := @BareRun.intro endsName 'C' "DATA".toList _ _ (by decide) (by decide) (by decide)
        (fun d hd => (isNameChar_iff.1 (hname d (List.mem_cons_of_mem 'C' hd))).1) hends
      refine ⟨.name, "CDATA".toList.length + gap.length, .inl rfl, ?_, ?_⟩
      · rw [hstart]
        exact Token.Covers.name hrun fun d hd => (isNameChar_iff.1 (hname d hd)).2
      · rw [hstart, ← List.drop_drop]
        exact List.drop_left
  | @quoted blanks inner left quote hblanks hquote hinner hdecodes =>
      have hstart : (skipBlanks cursor).rest = quote :: inner ++ quote :: '[' :: left :=
        rest_skipBlanks ((Faces.of_rest htext).of_append hblanks) (not_isBlank_of_isQuote hquote)
      refine ⟨.quoted, inner.length + 2, .inr rfl, ?_, ?_⟩
      · rw [hstart]
        exact Token.Covers.quoted hquote hinner hdecodes
      · rw [hstart, drop_quoted]

/-- A section is opened if and only if one of the openings stands there. -/
theorem cdataOpening_iff : (∃ stop, cdataOpening cursor = .ok () stop ∧ stop.rest = left) ↔
    OpensCdata cursor.rest left := by
  constructor
  · rintro ⟨stop, hopening, rfl⟩
    obtain ⟨⟨kind, value, position⟩, between, hname, hidentifier, hvalue, rfl, rest, hrest⟩ :=
      cdataOpening_eq_ok_iff.1 hopening
    obtain ⟨-, -, taken, hcovers, hleft⟩ := nextToken_iff.1 ⟨between, hname, rfl⟩
    have hkind : kind = .name ∨ kind = .quoted := by simpa [Token.isIdentifier] using hidentifier
    have hblanks : Blanks (cursor.rest.takeWhile Text.isBlank) :=
      List.all_eq_true.1 List.all_takeWhile
    have hsplit : cursor.rest = cursor.rest.takeWhile Text.isBlank ++ (skipBlanks cursor).rest := by
      rw [rest_skipBlanks_eq, List.takeWhile_append_dropWhile]
    rw [rest_next hrest, hsplit]
    exact opensCdata_of_covers hblanks hcovers hkind hvalue (hleft.symm.trans hrest)
  · intro h
    obtain ⟨kind, taken, hkind, hcovers, hleft⟩ := covers_of_opensCdata h
    have hyields : Operation.token.Yields kind := hkind.imp_right .inl
    obtain ⟨between, hname, hbetween⟩ := (@nextToken_iff cursor ('[' :: left)
      ⟨kind, "CDATA", (skipBlanks cursor).position⟩).2 ⟨hyields, rfl, taken, hcovers, hleft.symm⟩
    refine ⟨between.next.2, cdataOpening_eq_ok_iff.2 ⟨_, between, hname, ?_, rfl, rfl, left,
      hbetween⟩, rest_next hbetween⟩
    simpa [Token.isIdentifier] using hkind

/-- A section without an end is refused behind its opening. -/
theorem error_of_cdataText (hleft : ¬ "]]>".toList <:+: cursor.rest) :
    cdataText cursor = .error ⟨.unclosedCdata, some cursor.position⟩ cursor := by
  unfold cdataText
  rw [(Text.indexOf?_eq_none_iff (by decide)).2 hleft]
  rfl

theorem exists_cdataText (hleft : "]]>".toList <:+: cursor.rest) :
    ∃ text stop, cdataText cursor = .ok text stop := by
  unfold cdataText
  cases hindex : Text.indexOf? "]]>".toList cursor.rest with
  | none => exact absurd hleft ((Text.indexOf?_eq_none_iff (by decide)).1 hindex)
  | some index => exact ⟨_, _, rfl⟩

theorem exists_skip_of_cdataText {text : String} (h : cdataText cursor = .ok text stop) :
    ∃ count, stop = cursor.skip count := by
  unfold cdataText at h
  split at h
  · simp [fail] at h
  · obtain ⟨-, rfl⟩ := EStateM.Result.ok.inj h
    exact ⟨_, rfl⟩

end Scan

/-! ## Reading a section -/

namespace Converter

open Scan

variable {converter : Converter} {state : ConversionState} {text left content rest : List Char}

/-- What capturing the text of a section comes to, with the cursor behind it: the section is
counted, and a text that is not empty is added to the content as its value. -/
def captured (converter : Converter) (state : ConversionState) (text : String) (stop : Cursor) :
    EStateM.Result Failure ConversionState Piece :=
  let behind := { state with cursor := stop, metrics := state.metrics.countCdata }
  if text = "" then .ok .skipped behind
  else
    match converter.scalar? text with
    | .ok value => .ok (.contribution Object.contentKey value) behind
    | .error failure => .error failure behind

theorem textPiece_apply (text : String) (state : ConversionState) :
    textPiece converter text state =
      if text = "" then .ok .skipped state
      else
        match converter.scalar? text with
        | .ok value => .ok (.contribution Object.contentKey value) state
        | .error failure => .error failure state := by
  unfold textPiece
  split
  · rfl
  · rw [bind_apply, scalar_apply]
    cases converter.scalar? text <;> rfl

/-- A section is opened, and then its text is captured. -/
theorem declaration_bracketed (hsection : state.cursor.rest = '[' :: text) :
    declaration converter state = match cdataOpening (state.cursor.skip 1) with
      | .error error stop => .error (.refused (.malformed error)) { state with cursor := stop }
      | .ok _ opened => match cdataText opened with
        | .error error stop => .error (.refused (.malformed error)) { state with cursor := stop }
        | .ok text stop => converter.captured state text stop := by
  have hsort : markupSort state.cursor = .ok .bracketed (state.cursor.skip 1) := by
    simp only [markupSort, hsection]
  have hopening : cdataSection converter = (do
      Step.scan cdataOpening
      let text ← Step.scan cdataText
      Step.count Metrics.countCdata
      textPiece converter text) := by
    simp only [cdataSection, cdataOpening, Step.scan_bind, Step.scan_demand, bind_assoc]
  unfold declaration
  simp only [bind_apply, scan_apply, hsort, hopening]
  cases cdataOpening (state.cursor.skip 1) with
  | error error stop => rfl
  | ok found opened =>
      dsimp only
      cases cdataText opened with
      | error error stop => rfl
      | ok text stop => exact textPiece_apply text _

/-- Capturing a text is no fault of the document. -/
theorem captured_ne {error : MarkupError} {value : String} {stop : Cursor}
    {after : ConversionState} :
    converter.captured state value stop ≠ .error (.refused (.malformed error)) after := by
  intro h
  unfold captured at h
  split at h
  · simp at h
  · cases hvalue : converter.scalar? value with
    | ok value => simp [hvalue] at h
    | error failure =>
        rw [hvalue] at h
        obtain ⟨rfl, -⟩ := EStateM.Result.error.inj h
        exact absurd (scalar?_error hvalue).1 (by simp)

/-- The opening of a section, as it is read behind its first bracket. -/
theorem exists_cdataOpening (hsection : state.cursor.rest = '[' :: text)
    (hopens : OpensCdata text left) :
    ∃ opened, cdataOpening (state.cursor.skip 1) = .ok () opened ∧ opened.rest = left := by
  have htext : (state.cursor.skip 1).rest = text := @rest_skip _ ['['] text hsection
  rw [← htext] at hopens
  exact cdataOpening_iff.2 hopens

/-- However a section is opened, it is captured up to the first `]]>`. -/
theorem declaration_of_opensCdata (hsection : state.cursor.rest = '[' :: text)
    (hcontent : ¬ "]]>".toList <:+: content)
    (hopens : OpensCdata text (content ++ ("]]>".toList ++ rest))) :
    ∃ count, (state.cursor.skip count).rest = rest ∧
      declaration converter state =
        converter.captured state (String.ofList content) (state.cursor.skip count) := by
  obtain ⟨opened, hopened, hleft⟩ := exists_cdataOpening hsection hopens
  obtain ⟨stop, hread, hstop⟩ := cdataText_eq hcontent hleft
  obtain ⟨more, rfl⟩ := exists_skip_of_cdataText hread
  obtain ⟨count, hcount⟩ :=
    ((state.cursor.reaches_skip 1).trans (reaches_of_cdataOpening hopened)).exists_skip more
  rw [hcount] at hread hstop
  exact ⟨count, hstop, by simp only [declaration_bracketed hsection, hopened, hread]⟩

/-- However a section is opened, it is refused if there is no `]]>` behind that. -/
theorem declaration_of_unclosed (hsection : state.cursor.rest = '[' :: text)
    (hleft : ¬ "]]>".toList <:+: left) (hopens : OpensCdata text left) :
    ∃ stop, declaration converter state =
      .error (.refused (.malformed ⟨.unclosedCdata, some stop.position⟩))
        { state with cursor := stop } := by
  obtain ⟨opened, hopened, rfl⟩ := exists_cdataOpening hsection hopens
  refine ⟨opened, ?_⟩
  simp only [declaration_bracketed hsection, hopened, error_of_cdataText hleft]

/-- A section is refused unless it is opened and closed. -/
theorem declaration_refused_iff (hsection : state.cursor.rest = '[' :: text) :
    (∃ error stop, declaration converter state =
      .error (.refused (.malformed error)) { state with cursor := stop }) ↔
      ∀ left, OpensCdata text left → ¬ "]]>".toList <:+: left := by
  constructor
  · rintro ⟨error, stop, hrefused⟩ left hopens hclosed
    obtain ⟨opened, hopened, rfl⟩ := exists_cdataOpening hsection hopens
    obtain ⟨value, last, hread⟩ := exists_cdataText hclosed
    simp only [declaration_bracketed hsection, hopened, hread] at hrefused
    exact captured_ne hrefused
  · intro hnone
    cases hopened : cdataOpening (state.cursor.skip 1) with
    | error error stop => exact ⟨error, stop, by rw [declaration_bracketed hsection, hopened]⟩
    | ok found opened =>
        have htext : (state.cursor.skip 1).rest = text := @rest_skip _ ['['] text hsection
        have hopens : OpensCdata text opened.rest := by
          rw [← htext]
          exact cdataOpening_iff.1 ⟨opened, hopened, rfl⟩
        obtain ⟨stop, hunclosed⟩ :=
          declaration_of_unclosed hsection (hnone opened.rest hopens) hopens
        exact ⟨_, stop, hunclosed⟩

/-- Behind `<![CDATA[` the text up to the first `]]>` is captured as it stands: the cursor comes to
what follows, the section is counted, and a text that is not empty becomes content.  Without a
`]]>` the section is refused as unclosed.  Any other opening is refused in all texts except those
where it is one that the tokenizer takes for `CDATA[` and a `]]>` follows; then the text between
them is captured just as well. -/
theorem section_exact_iff (converter : Converter) (state : ConversionState) {text : List Char}
    (hsection : state.cursor.rest = '[' :: text) :
    (∀ content rest, text = "CDATA[".toList ++ (content ++ ("]]>".toList ++ rest)) →
      ¬ "]]>".toList <:+: content →
      (state.cursor.skip (content.length + 10)).rest = rest ∧
        declaration converter state = converter.captured state (String.ofList content)
          (state.cursor.skip (content.length + 10))) ∧
    (∀ left, text = "CDATA[".toList ++ left → ¬ "]]>".toList <:+: left →
      ∃ stop, declaration converter state =
        .error (.refused (.malformed ⟨.unclosedCdata, some stop.position⟩))
          { state with cursor := stop }) ∧
    (¬ "CDATA[".toList <+: text →
      ((∃ error stop, declaration converter state =
          .error (.refused (.malformed error)) { state with cursor := stop }) ↔
        ∀ left, OpensCdata text left → ¬ "]]>".toList <:+: left)) ∧
    ∀ content rest, OpensCdata text (content ++ ("]]>".toList ++ rest)) →
      ¬ "]]>".toList <:+: content →
      ∃ count, (state.cursor.skip count).rest = rest ∧
        declaration converter state =
          converter.captured state (String.ofList content) (state.cursor.skip count) := by
  refine ⟨?_, ?_, fun _ => declaration_refused_iff hsection,
    fun content rest hopens hcontent => declaration_of_opensCdata hsection hcontent hopens⟩
  · rintro content rest rfl hcontent
    obtain ⟨count, hrest, hcaptured⟩ :=
      @declaration_of_opensCdata converter _ _ _ _ hsection hcontent (.exact _)
    have hjump : (state.cursor.skip (content.length + 10)).rest = rest := by
      have hlength : ('[' :: ("CDATA[".toList ++ (content ++ "]]>".toList))).length =
          content.length + 10 := by
        simp only [List.length_cons, List.length_append, String.length_toList]
        have hopening : "CDATA[".length = 6 := rfl
        have hclosing : "]]>".length = 3 := rfl
        omega
      rw [← hlength]
      exact rest_skip (by rw [hsection]; simp)
    refine ⟨hjump, ?_⟩
    rw [hcaptured, Cursor.skip_eq_of_rest (hrest.trans hjump.symm)]
  · rintro left rfl hleft
    exact declaration_of_unclosed hsection hleft (.exact left)

/-- A text with markup and with parts of the end is captured as it stands. -/
theorem section_exact_brackets :
    declaration {} (behindBang "<![CDATA[]<b>&]]]]></a>") =
      .ok (.contribution Object.contentKey (.string "]<b>&]]"))
        { cursor := (behindBang "<![CDATA[]<b>&]]]]></a>").cursor.skip 17
          metrics := { cdataSections := 1 }
          log := [] } ∧
      ((behindBang "<![CDATA[]<b>&]]]]></a>").cursor.skip 17).rest = "</a>".toList := by
  have hsection : (behindBang "<![CDATA[]<b>&]]]]></a>").cursor.rest =
      '[' :: "CDATA[]<b>&]]]]></a>".toList := by decide +kernel
  have hvalue : ({} : Converter).scalar? "]<b>&]]" = .ok (.string "]<b>&]]") := by rfl
  obtain ⟨hexact, -, -, -⟩ := section_exact_iff {} (behindBang "<![CDATA[]<b>&]]]]></a>") hsection
  obtain ⟨hrest, hread⟩ :=
    hexact "]<b>&]]".toList "</a>".toList (by decide +kernel) (by decide +kernel)
  refine ⟨hread.trans ?_, hrest⟩
  rw [String.ofList_toList, captured, hvalue]
  rfl

/-- A blank in front of the name does not keep a section from being captured. -/
theorem spaced_section_captured :
    (behindBang "<![ CDATA[x]]></a>").cursor.rest = '[' :: " CDATA[x]]></a>".toList ∧
      ¬ "CDATA[".toList <+: " CDATA[x]]></a>".toList ∧
      (¬ ∃ error stop, declaration {} (behindBang "<![ CDATA[x]]></a>") =
        .error (.refused (.malformed error))
          { behindBang "<![ CDATA[x]]></a>" with cursor := stop }) ∧
      (({} : Converter).convert "<a><![ CDATA[x]]></a>").outcome.toOption.isSome = true := by
  have hsection : (behindBang "<![ CDATA[x]]></a>").cursor.rest =
      '[' :: " CDATA[x]]></a>".toList := by decide +kernel
  have hopens : OpensCdata " CDATA[x]]></a>".toList "x]]></a>".toList :=
    @OpensCdata.bare [' '] [] "x]]></a>".toList (by decide) (by decide) (by decide)
  refine ⟨hsection, by decide +kernel, fun hrefused => ?_, by decide +kernel⟩
  exact (declaration_refused_iff hsection).1 hrefused _ hopens (by decide +kernel)

end Converter

end XmlToJson

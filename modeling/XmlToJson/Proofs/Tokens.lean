import XmlToJson.Proofs.Escapes
import XmlToJson.Proofs.Events

/-!
# Reading what is written

Blanks may stand between two tokens, and a scan that ends at a blank may or may not have taken it.
So what a cursor stands in front of is said up to characters that are skipped (`Faces`).  Each scan
has one lemma: in front of something that is written for a token it reads that token, and it stops
in front of what follows.

* **Names.**  `IsName` says which texts can be the name of an element or an attribute.  A name is
  read up to the blank or the marker behind it, and a blank is read with it (`nextToken_name`); this
  is where `Faces` is needed.
* **Markers and quoted values** end with a character of their own (`nextToken_marker`,
  `nextToken_quoted`).  A quoted value is written in one of the ways that `Encodes` lists, in front
  of its quote.
* **Texts.**  `IsText` says which texts can stand between two tags: a text is not empty and has no
  blank at either end, since blanks there are not kept.  It is read up to the next `<`, without the
  blanks in front of that (`nextContent_text`).  That what is written begins with no blank and no
  `<` is `head_of_encodes`, and that trimming takes nothing but the blanks behind a text is
  `IsText.trim_append`.
* **Literals that end something.**  A comment, an instruction and a section go on up to a literal,
  which is looked for.  It is found where it was written if the text does not hold it
  (`textUntil_eq`, `cdataText_eq`).  That needs an argument, since an occurrence could begin inside
  the text and end in the literal: `not_prefix_of_not_infix` rules this out for literals whose last
  character does not stand in them before, and `indexOf?_append` is the induction on the text.
-/

namespace XmlToJson

/-! ## What a cursor stands in front of -/

/-- Whether a cursor stands in front of `chars`, but for characters that are skipped. -/
def Faces (skipped : Char → Bool) (cursor : Cursor) (chars : List Char) : Prop :=
  cursor.rest.dropWhile skipped = chars.dropWhile skipped

namespace Faces

variable {skipped : Char → Bool} {cursor : Cursor} {c : Char} {chars rest : List Char}

theorem of_rest (h : cursor.rest = chars) : Faces skipped cursor chars :=
  congrArg (List.dropWhile skipped) h

theorem of_append (h : Faces skipped cursor (chars ++ rest))
    (hall : ∀ c ∈ chars, skipped c = true) : Faces skipped cursor rest := by
  unfold Faces at h
  rwa [List.dropWhile_append_of_pos hall] at h

theorem of_cons (h : Faces skipped cursor (c :: rest)) (hc : skipped c = true) :
    Faces skipped cursor rest :=
  of_append h (List.forall_mem_singleton.2 hc)

theorem cons (h : Faces skipped cursor rest) (hc : skipped c = true) :
    Faces skipped cursor (c :: rest) := by
  unfold Faces at h ⊢
  rwa [List.dropWhile_cons_of_pos hc]

theorem dropWhile_eq (h : Faces skipped cursor (c :: rest)) (hc : skipped c = false) :
    cursor.rest.dropWhile skipped = c :: rest := by
  unfold Faces at h
  rwa [List.dropWhile_cons_of_neg (by simp [hc])] at h

end Faces

/-- What is behind the characters of a class is what is left without them. -/
theorem drop_takeWhile (p : Char → Bool) (chars : List Char) :
    chars.drop (chars.takeWhile p).length = chars.dropWhile p := by
  have hsplit : chars.takeWhile p ++ chars.dropWhile p = chars := List.takeWhile_append_dropWhile
  calc chars.drop (chars.takeWhile p).length
      = (chars.takeWhile p ++ chars.dropWhile p).drop (chars.takeWhile p).length := by rw [hsplit]
    _ = chars.dropWhile p := List.drop_left

theorem rest_skipBlanks {cursor : Cursor} {c : Char} {rest : List Char}
    (h : Faces Text.isBlank cursor (c :: rest)) (hc : Text.isBlank c = false) :
    (Scan.skipBlanks cursor).rest = c :: rest :=
  (drop_takeWhile Text.isBlank cursor.rest).trans (h.dropWhile_eq hc)

theorem rest_next {cursor : Cursor} {c : Char} {rest : List Char} (h : cursor.rest = c :: rest) :
    cursor.next.2.rest = rest := by
  simp [Cursor.next, h]

theorem rest_skip {cursor : Cursor} {chars rest : List Char} (h : cursor.rest = chars ++ rest) :
    (cursor.skip chars.length).rest = rest := by
  simp [Cursor.skip, h]

/-! ## Names -/

/-- The characters that may not stand in a name. -/
def nameExcluded : List Char := ['<', '>', '/', '=', '!', '?', '[', ']', '"', '\'']

/-- Whether a text can be the name of an element or an attribute. -/
structure IsName (name : String) : Prop where
  nonempty : name ≠ ""
  notBlank : ∀ c ∈ name.toList, Text.isBlank c = false
  notExcluded : ∀ c ∈ name.toList, c ∉ nameExcluded

instance (name : String) : Decidable (IsName name) :=
  decidable_of_iff (name ≠ "" ∧ (name.toList.all fun c => !Text.isBlank c) = true ∧
      (name.toList.all fun c => !nameExcluded.contains c) = true)
    ⟨fun ⟨nonempty, notBlank, notExcluded⟩ =>
      ⟨nonempty, by simpa using notBlank, by simpa using notExcluded⟩,
      fun h => ⟨h.nonempty, by simpa using h.notBlank, by simpa using h.notExcluded⟩⟩

/-- Whether a text is a run of blanks. -/
def Blanks (chars : List Char) : Prop := ∀ c ∈ chars, Text.isBlank c = true

instance (chars : List Char) : Decidable (Blanks chars) :=
  decidable_of_iff (chars.all Text.isBlank = true) List.all_eq_true

namespace Scan

variable {cursor : Cursor} {c : Char} {chars rest : List Char}

theorem isNameChar_of_not_excluded (hblank : Text.isBlank c = false) (hc : c ∉ nameExcluded) :
    isNameChar c = true := by
  simp only [nameExcluded, List.mem_cons, List.not_mem_nil, or_false, not_or] at hc
  simp [isNameChar, endsName, isBadInName, isQuote, hblank, hc]

/-- A character that can begin a name is no marker and no quote. -/
theorem begins_name (hc : c ∉ nameExcluded) :
    c ≠ '<' ∧ Marker.ofChar? c = none ∧ isQuote c = false := by
  simp only [nameExcluded, List.mem_cons, List.not_mem_nil, or_false, not_or] at hc
  obtain ⟨hless, hgreater, hslash, hequals, hbang, hquestion, -, -, hdouble, hsingle⟩ := hc
  refine ⟨hless, ?_, by simp [isQuote, hdouble, hsingle]⟩
  unfold Marker.ofChar?
  split <;> first | contradiction | rfl

/-- A name is read up to the blank or the marker behind it; a blank is read with it. -/
theorem nextToken_name {name : String} (hname : IsName name)
    (hends : Text.isBlank c = true ∨ endsName c = true)
    (hfaces : Faces Text.isBlank cursor (name.toList ++ c :: rest)) :
    ∃ position stop, nextToken cursor = .ok ⟨.name, name, position⟩ stop ∧
      stop.rest = if Text.isBlank c then rest else c :: rest := by
  obtain ⟨first, others, hchars⟩ := List.exists_cons_of_ne_nil
    (fun h => hname.nonempty (String.toList_eq_nil_iff.1 h))
  have hfirst : first ∈ name.toList := by simp [hchars]
  rw [hchars, List.cons_append] at hfaces
  have hstart := rest_skipBlanks hfaces (hname.notBlank first hfirst)
  obtain ⟨hless, hmarker, hquote⟩ := begins_name (hname.notExcluded first hfirst)
  have hnot : isNameChar c = false := by
    rcases hends with h | h <;> simp [isNameChar, h]
  have hothers : ∀ d ∈ others, isNameChar d = true := fun d hd =>
    isNameChar_of_not_excluded (hname.notBlank d (by simp [hchars, hd]))
      (hname.notExcluded d (by simp [hchars, hd]))
  have hrun : (others ++ c :: rest).takeWhile isNameChar = others := by
    rw [List.takeWhile_append_of_pos hothers, List.takeWhile_cons_of_neg (by simp [hnot]),
      List.append_nil]
  have hbehind : ((skipBlanks cursor).skip (first :: others).length).rest = c :: rest :=
    rest_skip hstart
  have htext : String.ofList (first :: others) = name := by
    rw [← hchars, String.ofList_toList]
  -- The first character is taken whatever it is, and the run of the others ends at `c`.
  have hbare : ∃ stop, bareName (skipBlanks cursor) = .ok name stop ∧
      stop.rest = if Text.isBlank c then rest else c :: rest := by
    have hname : (skipBlanks cursor).rest.take 1 ++
        ((skipBlanks cursor).rest.drop 1).takeWhile isNameChar = first :: others := by
      rw [hstart]
      simp [hrun]
    unfold bareName
    simp only [hname, hbehind, htext]
    by_cases hblank : Text.isBlank c = true
    · rw [if_pos hblank, if_pos hblank]
      exact ⟨_, rfl, rest_next hbehind⟩
    · rw [if_neg hblank, if_neg hblank, if_pos (hends.resolve_left hblank)]
      exact ⟨_, rfl, hbehind⟩
  obtain ⟨stop, hbare, hstop⟩ := hbare
  refine ⟨(skipBlanks cursor).position, stop, ?_, hstop⟩
  simp only [nextToken, hstart, hless, hmarker, hquote, hbare, if_false, Bool.false_eq_true]

theorem nextToken_marker {marker : Marker} (hmarker : Marker.ofChar? c = some marker)
    (hless : c ≠ '<') (hblank : Text.isBlank c = false)
    (hfaces : Faces Text.isBlank cursor (c :: rest)) :
    ∃ position stop, nextToken cursor = .ok ⟨.marker marker, c.toString, position⟩ stop ∧
      stop.rest = rest := by
  have hstart := rest_skipBlanks hfaces hblank
  refine ⟨(skipBlanks cursor).position, (skipBlanks cursor).next.2, ?_, rest_next hstart⟩
  simp only [nextToken, hstart, hless, hmarker, if_false]

/-- A quoted value is read up to its closing quote. -/
theorem nextToken_quoted {quote : Char} (hquote : quote = '"' ∨ quote = '\'') {value : String}
    (hvalue : Encodes quote value.toList chars)
    (hfaces : Faces Text.isBlank cursor (quote :: (chars ++ quote :: rest))) :
    ∃ position stop, nextToken cursor = .ok ⟨.quoted, value, position⟩ stop ∧
      stop.rest = rest := by
  have hfacts : Text.isBlank quote = false ∧ quote ≠ '<' ∧ Marker.ofChar? quote = none ∧
      isQuote quote = true ∧ quote ≠ '&' := by
    rcases hquote with rfl | rfl <;> decide
  obtain ⟨hblank, hless, hmarker, hisQuote, hreference⟩ := hfacts
  have hstart := rest_skipBlanks hfaces hblank
  have hinside := rest_next hstart
  have hread : CharacterData.read quote (chars ++ quote :: rest) =
      ⟨value.toList, chars.length, .stopped⟩ := by
    rw [CharacterData.read_encodes hreference hvalue, CharacterData.read, if_pos rfl]
    simp [CharacterData.after]
  refine ⟨(skipBlanks cursor).position, (skipBlanks cursor).next.2.skipAndStep chars.length, ?_,
    rest_next (rest_skip hinside)⟩
  simp only [nextToken, quotedValue, hstart, hless, hmarker, hisQuote, hinside, hread, if_false,
    if_true, String.ofList_toList]

theorem nextContent_less (hfaces : Faces Text.isBlank cursor ('<' :: rest)) :
    ∃ position stop, nextContent cursor = .ok (some ⟨.marker .less, "<", position⟩) stop ∧
      stop.rest = rest := by
  have hstart := rest_skipBlanks hfaces (by decide)
  refine ⟨(skipBlanks cursor).position, (skipBlanks cursor).next.2, ?_, rest_next hstart⟩
  simp only [nextContent, hstart, if_true]
  rfl

end Scan

/-! ## Texts -/

/-- Whether a text can stand between two tags: it is not empty and has no blank at either
end. -/
structure IsText (text : String) : Prop where
  nonempty : text ≠ ""
  first : ∀ c ∈ text.toList.head?, Text.isBlank c = false
  last : ∀ c ∈ text.toList.getLast?, Text.isBlank c = false

instance (text : String) : Decidable (IsText text) :=
  decidable_of_iff (text ≠ "" ∧ (text.toList.head?.all fun c => !Text.isBlank c) = true ∧
      (text.toList.getLast?.all fun c => !Text.isBlank c) = true)
    ⟨fun ⟨nonempty, first, last⟩ => ⟨nonempty, by simpa [Option.all_eq_true] using first,
        by simpa [Option.all_eq_true] using last⟩,
      fun h => ⟨h.nonempty, by simpa [Option.all_eq_true] using h.first,
        by simpa [Option.all_eq_true] using h.last⟩⟩

theorem IsText.trim_append {text : String} (h : IsText text) {blanks : List Char}
    (hblanks : Blanks blanks) : Text.trim (text.toList ++ blanks) = text.toList := by
  have hne : text.toList ≠ [] := fun hnil => h.nonempty (String.toList_eq_nil_iff.1 hnil)
  have hfront : (text.toList ++ blanks).dropWhile Text.isBlank = text.toList ++ blanks := by
    obtain ⟨first, others, hchars⟩ := List.exists_cons_of_ne_nil hne
    have hfirst := h.first
    rw [hchars] at hfirst ⊢
    exact dropWhile_eq_self hfirst
  have hback : text.toList.reverse.dropWhile Text.isBlank = text.toList.reverse := by
    refine dropWhile_eq_self fun c hc => h.last c ?_
    rwa [List.head?_reverse] at hc
  have hreversed : ∀ c ∈ blanks.reverse, Text.isBlank c = true := fun c hc =>
    hblanks c (List.mem_reverse.1 hc)
  unfold Text.trim
  rw [hfront, List.reverse_append, List.dropWhile_append_of_pos hreversed, hback,
    List.reverse_reverse]

namespace Scan

variable {cursor : Cursor} {chars blanks rest : List Char}

/-- What is written for a text begins with no blank and no `<`. -/
theorem head_of_encodes {text : String} (htext : IsText text)
    (h : Encodes '<' text.toList chars) :
    ∃ c others, chars = c :: others ∧ Text.isBlank c = false ∧ c ≠ '<' := by
  have hfirst := htext.first
  cases htoList : text.toList with
  | nil => exact absurd (String.toList_eq_nil_iff.1 htoList) htext.nonempty
  | cons first others =>
      rw [htoList] at h hfirst
      cases h with
      | cons hwritten hothers =>
          cases hwritten with
          | raw hreference hless => exact ⟨first, _, rfl, hfirst first rfl, hless⟩
          | named | decimal | hexadecimal => exact ⟨'&', _, rfl, by decide, by decide⟩

/-- A text is read up to the next `<`, without the blanks in front of that. -/
theorem nextContent_text {text : String} (htext : IsText text)
    (hchars : Encodes '<' text.toList chars) (hblanks : Blanks blanks)
    (hfaces : Faces Text.isBlank cursor (chars ++ (blanks ++ '<' :: rest))) :
    ∃ position stop, nextContent cursor = .ok (some ⟨.text, text, position⟩) stop ∧
      stop.rest = '<' :: rest := by
  obtain ⟨c, others, rfl, hblank, hless⟩ := head_of_encodes htext hchars
  have hstart : (skipBlanks cursor).rest = c :: (others ++ (blanks ++ '<' :: rest)) :=
    rest_skipBlanks hfaces hblank
  -- The blanks are written as they are, so they are read as a part of the text.
  have hraw : Encodes '<' blanks blanks := by
    refine .raw fun d hd => ⟨?_, ?_⟩ <;> rintro rfl
    · exact absurd (hblanks _ hd) (by decide)
    · exact absurd (hblanks _ hd) (by decide)
  have hread : CharacterData.read '<' (c :: (others ++ (blanks ++ '<' :: rest))) =
      ⟨text.toList ++ blanks, (c :: others ++ blanks).length, .stopped⟩ := by
    have hencodes := CharacterData.read_encodes (by decide) (hchars.append hraw) ('<' :: rest)
    rw [List.append_assoc] at hencodes
    refine hencodes.trans ?_
    rw [CharacterData.read, if_pos rfl]
    simp [CharacterData.after]
  have hstop : ((skipBlanks cursor).skip (c :: others ++ blanks).length).rest = '<' :: rest := by
    refine rest_skip (hstart.trans ?_)
    simp
  refine ⟨(skipBlanks cursor).position, _, ?_, hstop⟩
  simp only [nextContent, hstart, hless, if_false, hread, htext.trim_append hblanks,
    String.ofList_toList]

end Scan

/-! ## Literals that end something -/

namespace Text

/-- A literal whose last character does not stand in it before overlaps nothing: where it
begins inside a text and ends behind it, the text would hold all of it. -/
theorem not_prefix_of_not_infix {front body rest : List Char} {last : Char} (hlast : last ∉ front)
    (hbody : ¬ front ++ [last] <:+: body) (hne : body ≠ []) :
    ¬ front ++ [last] <+: body ++ (front ++ [last] ++ rest) := by
  rintro ⟨behind, hsplit⟩
  rcases List.append_eq_append_iff.1 hsplit with ⟨inside, hinside, -⟩ | ⟨overlap, hoverlap, htail⟩
  · exact hbody (hinside ▸ (List.prefix_append _ _).isInfix)
  -- The literal goes beyond `body`: what is over ends with `last`, but lies in front of
  -- the `last` of the literal behind `body`.
  · rcases List.eq_nil_or_concat overlap with rfl | ⟨before, c, rfl⟩
    · rw [List.append_nil] at hoverlap
      exact hbody (hoverlap ▸ List.infix_rfl)
    · rw [List.concat_eq_append] at hoverlap htail
      have hc : last = c := by
        have hlasts := congrArg List.getLast? hoverlap
        simpa using hlasts
      subst hc
      have hlength := congrArg List.length hoverlap
      have hpos := List.length_pos_iff.2 hne
      simp only [List.length_append, List.length_singleton] at hlength
      have hfront : before ++ [last] <+: front := by
        refine List.prefix_of_prefix_length_le ⟨behind, htail.symm⟩ ?_ (by simp; omega)
        rw [List.append_assoc]
        exact List.prefix_append _ _
      exact hlast (hfront.subset (by simp))

/-- The first occurrence of a literal behind a text that does not hold it. -/
theorem indexOf?_append {front body : List Char} {last : Char} (hlast : last ∉ front)
    (hbody : ¬ front ++ [last] <:+: body) (rest : List Char) :
    indexOf? (front ++ [last]) (body ++ (front ++ [last] ++ rest)) = some body.length := by
  induction body with
  | nil =>
      obtain ⟨c, others, hchars⟩ := List.exists_cons_of_ne_nil
        (show front ++ [last] ++ rest ≠ [] by simp)
      have hprefix : (front ++ [last]).isPrefixOf (c :: others) = true := by
        rw [← hchars]
        exact List.isPrefixOf_iff_prefix.2 (List.prefix_append _ _)
      rw [List.nil_append, hchars, indexOf?, if_pos hprefix]
      rfl
  | cons c body ih =>
      have hprefix :
          ¬ (front ++ [last]).isPrefixOf (c :: body ++ (front ++ [last] ++ rest)) = true := by
        intro h
        exact not_prefix_of_not_infix hlast hbody (by simp) (List.isPrefixOf_iff_prefix.1 h)
      have hinner : ¬ front ++ [last] <:+: body := fun h =>
        hbody (h.trans (List.suffix_cons c body).isInfix)
      rw [List.cons_append] at hprefix ⊢
      rw [indexOf?, if_neg hprefix, ih hinner]
      rfl

end Text

namespace Scan

variable {cursor : Cursor} {body rest : List Char}

/-- Text is read up to a literal that it does not hold. -/
theorem textUntil_eq {literal : String} {front : List Char} {last : Char} (fault : MarkupFault)
    (hliteral : literal.toList = front ++ [last]) (hlast : last ∉ front)
    (hbody : ¬ literal.toList <:+: body)
    (hrest : cursor.rest = body ++ (literal.toList ++ rest)) :
    ∃ stop, textUntil literal fault cursor = .ok (String.ofList body) stop ∧ stop.rest = rest := by
  rw [hliteral] at hbody
  have hindex : Text.indexOf? literal.toList cursor.rest = some body.length := by
    rw [hrest, hliteral]
    exact Text.indexOf?_append hlast hbody rest
  have hlength : (body ++ literal.toList).length = body.length + literal.length := by
    rw [List.length_append, String.length_toList]
  refine ⟨cursor.skip (body.length + literal.length), ?_, ?_⟩
  · unfold textUntil
    rw [hindex]
    simp [hrest]
  · rw [← hlength]
    exact rest_skip (hrest.trans (List.append_assoc ..).symm)

/-- The text of a CDATA section is read up to the brackets that close it. -/
theorem cdataText_eq (hbody : ¬ "]]>".toList <:+: body)
    (hrest : cursor.rest = body ++ ("]]>".toList ++ rest)) :
    ∃ stop, cdataText cursor = .ok (String.ofList body) stop ∧ stop.rest = rest := by
  have hindex : Text.indexOf? "]]>".toList cursor.rest = some body.length := by
    rw [hrest]
    exact @Text.indexOf?_append [']', ']'] body '>' (by decide) hbody rest
  have hlength : (body ++ "]]>".toList).length = body.length + 3 := by
    rw [List.length_append]
    rfl
  refine ⟨cursor.skip (body.length + 3), ?_, ?_⟩
  · unfold cdataText
    rw [hindex]
    simp [hrest]
  · rw [← hlength]
    exact rest_skip (hrest.trans (List.append_assoc ..).symm)

end Scan

end XmlToJson

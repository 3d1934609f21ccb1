import XmlToJson.Proofs.CharacterNumbers

/-!
# References by name

The name of a reference may hold hyphens, full stops, underscores and colons besides letters and
digits (`IsEntityName`).  Reading takes the letters and digits, and has to find the semicolon right
behind them.  So a reference by a name of these alone (`IsPlain`) stands for one of five characters
or for itself, and a reference by any other name is refused as if it had no semicolon
(`references_kept`).

## Strategy

* **The name.**  A name that is not plain begins with a run of letters and digits and goes on with
  another character of a name (`IsEntityName.exists_run`), which is no semicolon.  A single
  reference is therefore read up to its semicolon or refused (`Scan.reference_of_isEntityName`), and
  refused only if no semicolon stands behind the run (`Scan.refusesReference_iff`).
* **Character data.**  References stand in the middle of a text or a quoted value, with anything in
  front of them.  `ending_of_not_isPlain` says that what has been read comes to its end at the first
  name that is not plain, and the scans of a value and of a text are refused there
  (`quotedValue_refuses`, `nextContent_refuses`).  Where all names are plain, what is written
  decodes with each reference kept (`Resolves.decodes`), and the scans return that
  (`quotedValue_returns`, `nextContent_returns`).
* **Documents.**  In an accepted document every reference by name is therefore kept as the rule for
  names says, since none with such a character is left.

A name with an underscore is the shortest that shows the difference (`underscore_refused`).
-/

namespace XmlToJson

/-! ## Names -/

/-- Whether a name is made of letters and digits, and of the four other characters that may stand in
one.  It begins with a letter, an underscore or a colon. -/
structure IsEntityName (name : List Char) : Prop where
  first : ∃ c, name.head? = some c ∧
    (Text.isAlphanumeric c = true ∧ Text.decimalDigit? c = none ∨ c = '_' ∨ c = ':')
  chars : ∀ c ∈ name, Text.isAlphanumeric c = true ∨ c ∈ ['.', '-', '_', ':']

/-- Whether a name is made of letters and digits alone. -/
def IsPlain (name : List Char) : Prop :=
  ∀ c ∈ name, Text.isAlphanumeric c = true

/-- What a reference by name stands for: one of the five characters, or the reference itself. -/
def Reference.standsFor (name : List Char) : List Char :=
  (named? name).elim ('&' :: name ++ [';']) fun c => [c]

/-- Whether a text is what a reference by a plain name stands for. -/
def IsKept (name text : List Char) : Prop :=
  IsEntityName name ∧ IsPlain name ∧ text = Reference.standsFor name

namespace IsEntityName

variable {name : List Char}

theorem head_ne (h : IsEntityName name) : name.head? ≠ some '#' := by
  obtain ⟨c, hc, hclass⟩ := h.first
  rw [hc]
  intro hsign
  obtain rfl := Option.some.inj hsign
  rcases hclass with ⟨halphanumeric, -⟩ | hunderscore | hcolon
  · revert halphanumeric
    decide +kernel
  · simp at hunderscore
  · simp at hcolon

theorem not_mem_semicolon (h : IsEntityName name) : ';' ∉ name := by
  intro hmem
  rcases h.chars ';' hmem with halphanumeric | hother
  · revert halphanumeric
    decide +kernel
  · simp at hother

theorem expand_eq (h : IsEntityName name) : Reference.expand name = Reference.standsFor name := by
  have hresolve : Reference.resolve? name = Reference.named? name := by
    unfold Reference.resolve?
    split
    · exact absurd rfl h.head_ne
    · rfl
  unfold Reference.expand Reference.standsFor
  rw [hresolve]
  cases Reference.named? name <;> rfl

end IsEntityName

theorem Reference.isNameChar_of_isAlphanumeric {c : Char} (h : Text.isAlphanumeric c = true) :
    isNameChar c = true := by
  rw [isNameChar, h, Bool.true_or]

/-- Of the characters of a name, reading takes the letters and digits. -/
theorem IsEntityName.isNameChar_iff {name : List Char} (h : IsEntityName name) {c : Char}
    (hc : c ∈ name) : Reference.isNameChar c = true ↔ Text.isAlphanumeric c = true := by
  refine ⟨fun hname => ?_, Reference.isNameChar_of_isAlphanumeric⟩
  rcases h.chars c hc with halphanumeric | hother
  · exact halphanumeric
  · have hnone : ∀ d ∈ ['.', '-', '_', ':'], Reference.isNameChar d = false :=
      forall_mem_of_all (by decide +kernel)
    rw [hnone c hother] at hname
    contradiction

/-- A name that is not plain begins with a run of letters and digits, and goes on with another
character. -/
theorem IsEntityName.exists_run {name : List Char} (h : IsEntityName name)
    (hplain : ¬ IsPlain name) :
    ∃ run c others, name = run ++ c :: others ∧
      (∀ d ∈ run, Reference.isNameChar d = true) ∧ Reference.isNameChar c = false ∧ c ≠ ';' := by
  have hsplit := @List.takeWhile_append_dropWhile _ Reference.isNameChar name
  cases hbehind : name.dropWhile Reference.isNameChar with
  | nil =>
      rw [hbehind, List.append_nil] at hsplit
      refine absurd (fun c hc => (h.isNameChar_iff hc).1 ?_) hplain
      rw [← hsplit] at hc
      exact List.all_eq_true.1 List.all_takeWhile c hc
  | cons c others =>
      rw [hbehind] at hsplit
      refine ⟨name.takeWhile Reference.isNameChar, c, others, hsplit.symm,
        List.all_eq_true.1 List.all_takeWhile, ?_, ?_⟩
      · exact @Text.head?_dropWhile Reference.isNameChar name c (by rw [hbehind]; rfl)
      · rintro rfl
        exact h.not_mem_semicolon (by rw [← hsplit]; simp)

/-! ## Scans -/

namespace Scan

variable {cursor : Cursor} {name rest : List Char} {quote : Char}

/-- Whether a scan returns a text and leaves what is behind it. -/
def Returns (scan : Scan String) (cursor : Cursor) (text left : List Char) : Prop :=
  ∃ stop, scan cursor = .ok (String.ofList text) stop ∧ stop.rest = left

/-- Whether a scan is refused because a reference is not ended. -/
def RefusesReference {α : Type} (scan : Scan α) (cursor : Cursor) (opening : String) : Prop :=
  ∃ name stop,
    scan cursor = .error ⟨.unterminatedReference opening name, some stop.position⟩ stop

theorem reference_of_run (opening : String) (hname : ∀ c ∈ name, Reference.isNameChar c = true)
    (hrest : cursor.rest = name ++ ';' :: rest) :
    Returns (reference opening) cursor (Reference.expand name) rest := by
  have hrun : cursor.rest.takeWhile Reference.isNameChar = name := by
    rw [hrest]
    exact Text.takeWhile_append_cons hname Reference.not_isNameChar_semicolon rest
  have hbehind : (cursor.skip name.length).rest = ';' :: rest := rest_skip hrest
  refine ⟨cursor.skipAndStep name.length, ?_, rest_next hbehind⟩
  simp only [reference, hrun, hbehind]

/-- A reference is refused if and only if no semicolon stands behind the characters that are read as
its name. -/
theorem refusesReference_iff (opening : String) (cursor : Cursor) :
    RefusesReference (reference opening) cursor opening ↔
      ¬ ∃ name rest, (∀ c ∈ name, Reference.isNameChar c = true) ∧
        cursor.rest = name ++ ';' :: rest := by
  constructor
  · rintro ⟨name, stop, hrefused⟩ ⟨other, rest, hother, hrest⟩
    obtain ⟨behind, hreturned, -⟩ := reference_of_run opening hother hrest
    rw [hreturned] at hrefused
    contradiction
  · intro hnone
    have hname : ∀ c ∈ cursor.rest.takeWhile Reference.isNameChar, Reference.isNameChar c = true :=
      List.all_eq_true.1 List.all_takeWhile
    have hsplit := @List.takeWhile_append_dropWhile _ Reference.isNameChar cursor.rest
    refine ⟨String.ofList (cursor.rest.takeWhile Reference.isNameChar),
      cursor.skipAndStep (cursor.rest.takeWhile Reference.isNameChar).length, ?_⟩
    dsimp only [reference]
    split
    · next following hbehind =>
        have hdrop : cursor.rest.dropWhile Reference.isNameChar = ';' :: following :=
          (drop_takeWhile Reference.isNameChar cursor.rest).symm.trans hbehind
        rw [hdrop] at hsplit
        exact absurd ⟨_, following, hname, hsplit.symm⟩ hnone
    · rfl

/-- A name that a semicolon ends is read up to there if it is plain, and refused otherwise. -/
theorem reference_of_isEntityName (opening : String) (h : IsEntityName name)
    (hrest : cursor.rest = name ++ ';' :: rest) :
    (IsPlain name → Returns (reference opening) cursor (Reference.standsFor name) rest) ∧
      (¬ IsPlain name → RefusesReference (reference opening) cursor opening) := by
  constructor
  · intro hplain
    rw [← h.expand_eq]
    exact reference_of_run opening
      (fun c hc => Reference.isNameChar_of_isAlphanumeric (hplain c hc)) hrest
  · intro hplain
    obtain ⟨run, c, others, rfl, hrun, hc, hsemicolon⟩ := h.exists_run hplain
    rw [refusesReference_iff]
    rintro ⟨other, behind, hother, hbehind⟩
    -- Both names are the longest run of the characters that are read as a name.
    rw [hrest, List.append_assoc, List.cons_append] at hbehind
    have hsame : run = other := by
      calc run = (run ++ c :: (others ++ ';' :: rest)).takeWhile Reference.isNameChar :=
            (Text.takeWhile_append_cons hrun hc _).symm
        _ = (other ++ ';' :: behind).takeWhile Reference.isNameChar := by rw [hbehind]
        _ = other := Text.takeWhile_append_cons hother Reference.not_isNameChar_semicolon behind
    subst hsame
    exact hsemicolon (List.cons.inj (List.append_cancel_left hbehind)).1

end Scan

/-! ## Character data -/

namespace CharacterData

/-- Character data ends at a reference by a name that is not plain, whatever stands in front of
that. -/
theorem ending_of_not_isPlain {stop : Char} {front name behind decoded : List Char}
    (hstop : IsStop stop) (hfront : Decodes front decoded) (hfree : stop ∉ front)
    (h : IsEntityName name) (hplain : ¬ IsPlain name) :
    ∃ run, (read stop (front ++ '&' :: (name ++ ';' :: behind))).ending = .brokenReference run := by
  obtain ⟨run, c, others, rfl, hrun, hc, hsemicolon⟩ := h.exists_run hplain
  have hname : (run ++ c :: (others ++ ';' :: behind)).takeWhile Reference.isNameChar = run :=
    Text.takeWhile_append_cons hrun hc _
  refine ⟨run, ?_⟩
  rw [read_decodes hstop.1 hfront hfree, List.append_assoc, List.cons_append, read,
    if_neg (Ne.symm hstop.1), if_pos rfl]
  simp only [hname, List.drop_left]
  split
  · next following hfollowing => exact absurd (List.cons.inj hfollowing).1 hsemicolon
  · rfl

end CharacterData

theorem Resolves.decodes {written decoded : List Char} (h : Resolves IsKept written decoded) :
    Decodes written decoded := by
  induction h with
  | nil => exact .nil
  | raw hc _ ih => exact .raw hc ih
  | reference hchars hkept _ ih =>
      obtain ⟨hname, -, rfl⟩ := hkept
      rw [← hname.expand_eq]
      exact .reference hchars ih

namespace Scan

variable {cursor : Cursor} {front name behind decoded written : List Char} {quote : Char}

/-- A quoted value is refused at a reference by a name that is not plain. -/
theorem quotedValue_refuses (hquote : isQuote quote = true) (hfront : Decodes front decoded)
    (hfree : quote ∉ front) (h : IsEntityName name) (hplain : ¬ IsPlain name)
    (hrest : cursor.rest = front ++ '&' :: (name ++ ';' :: behind)) :
    RefusesReference (quotedValue quote) cursor "&" := by
  obtain ⟨run, hrun⟩ := @CharacterData.ending_of_not_isPlain quote front name behind decoded
    (isStop_of_isQuote hquote) hfront hfree h hplain
  rw [← hrest] at hrun
  refine ⟨String.ofList run,
    cursor.skipAndStep (CharacterData.read quote cursor.rest).length, ?_⟩
  simp only [quotedValue, hrun]
  rfl

/-- So is a text between two tags. -/
theorem nextContent_refuses (hfront : Decodes front decoded) (hfree : '<' ∉ front)
    (h : IsEntityName name) (hplain : ¬ IsPlain name)
    (hrest : (skipBlanks cursor).rest = front ++ '&' :: (name ++ ';' :: behind)) :
    RefusesReference nextContent cursor "&" := by
  obtain ⟨run, hrun⟩ := @CharacterData.ending_of_not_isPlain '<' front name behind decoded
    isStop_less hfront hfree h hplain
  obtain ⟨c, others, hchars, hless⟩ : ∃ c others,
      front ++ '&' :: (name ++ ';' :: behind) = c :: others ∧ c ≠ '<' := by
    cases front with
    | nil => exact ⟨'&', _, rfl, by decide⟩
    | cons c front => exact ⟨c, _, rfl, fun heq => hfree (by simp [heq])⟩
  rw [hchars] at hrest hrun
  refine ⟨String.ofList run,
    (skipBlanks cursor).skipAndStep (CharacterData.read '<' (c :: others)).length, ?_⟩
  simp only [nextContent, hrest, hless, if_false, hrun]
  rfl

/-- A quoted value in which all references are by plain names is read, and they are kept. -/
theorem quotedValue_returns (hquote : isQuote quote = true) (hfree : quote ∉ written)
    (h : Resolves IsKept written decoded) (hrest : cursor.rest = written ++ quote :: behind) :
    Returns (quotedValue quote) cursor decoded behind :=
  (quotedValue_iff hquote).2 ⟨written, decoded, hfree, h.decodes, rfl, hrest⟩

/-- So is a text between two tags. -/
theorem nextContent_returns (hne : written ≠ []) (hfree : '<' ∉ written)
    (h : Resolves IsKept written decoded)
    (hrest : (skipBlanks cursor).rest = written ++ behind)
    (hbehind : behind = [] ∨ behind.head? = some '<') :
    ∃ stop, nextContent cursor = .ok (some ⟨.text, String.ofList (Text.trim decoded),
        (skipBlanks cursor).position⟩) stop ∧ stop.rest = behind := by
  refine nextContent_iff.2 ⟨.inl rfl, rfl, written.length, ?_, ?_⟩
  · rw [hrest]
    exact .text hne hfree hbehind h.decodes
  · rw [hrest, List.drop_left]

end Scan

/-! ## Documents -/

/-- A reference by name with a semicolon behind it is read and kept, or refused, by whether it has
letters and digits alone; nothing else is refused for want of a semicolon.  The references by name
in the texts and the quoted values of an accepted document are all kept. -/
theorem references_kept (opening : String) (quote : Char) (cursor : Cursor)
    (converter : Converter) (text : String) :
    ((∀ name rest, IsEntityName name → cursor.rest = name ++ ';' :: rest →
        (IsPlain name →
          Scan.Returns (Scan.reference opening) cursor (Reference.standsFor name) rest) ∧
        (¬ IsPlain name → Scan.RefusesReference (Scan.reference opening) cursor opening)) ∧
      (Scan.RefusesReference (Scan.reference opening) cursor opening ↔
        ¬ ∃ name rest, (∀ c ∈ name, Reference.isNameChar c = true) ∧
          cursor.rest = name ++ ';' :: rest)) ∧
    (Scan.isQuote quote = true →
      (∀ front name behind decoded, Decodes front decoded → quote ∉ front → IsEntityName name →
        ¬ IsPlain name → cursor.rest = front ++ '&' :: (name ++ ';' :: behind) →
        Scan.RefusesReference (Scan.quotedValue quote) cursor "&") ∧
      ∀ written decoded behind, quote ∉ written → Resolves IsKept written decoded →
        cursor.rest = written ++ quote :: behind →
        Scan.Returns (Scan.quotedValue quote) cursor decoded behind) ∧
    ((∀ front name behind decoded, Decodes front decoded → '<' ∉ front → IsEntityName name →
        ¬ IsPlain name →
        (Scan.skipBlanks cursor).rest = front ++ '&' :: (name ++ ';' :: behind) →
        Scan.RefusesReference Scan.nextContent cursor "&") ∧
      ∀ written decoded behind, written ≠ [] → '<' ∉ written → Resolves IsKept written decoded →
        (Scan.skipBlanks cursor).rest = written ++ behind →
        behind = [] ∨ behind.head? = some '<' →
        ∃ stop, Scan.nextContent cursor = .ok (some ⟨.text, String.ofList (Text.trim decoded),
          (Scan.skipBlanks cursor).position⟩) stop ∧ stop.rest = behind) ∧
    ∀ found : Conversion, (converter.convert text).outcome = .ok found →
      found.IsWritten converter text fun written decoded =>
        Decodes written decoded ∧
          ∀ front name behind, IsEntityName name →
            written = front ++ '&' :: (name ++ ';' :: behind) →
            ∃ before after, Decodes front before ∧ Decodes behind after ∧
              decoded = before ++ Reference.standsFor name ++ after := by
  refine ⟨?_, ?_, ?_, ?_⟩
  · exact ⟨fun name rest h hrest => Scan.reference_of_isEntityName opening h hrest,
      Scan.refusesReference_iff opening cursor⟩
  · intro hquote
    refine ⟨fun front name behind decoded hfront hfree h hplain hrest => ?_,
      fun written decoded behind hfree h hrest => Scan.quotedValue_returns hquote hfree h hrest⟩
    exact Scan.quotedValue_refuses hquote hfront hfree h hplain hrest
  · refine ⟨fun front name behind decoded hfront hfree h hplain hrest => ?_,
      fun written decoded behind hne hfree h hrest hbehind => ?_⟩
    · exact Scan.nextContent_refuses hfront hfree h hplain hrest
    · exact Scan.nextContent_returns hne hfree h hrest hbehind
  · intro found hfound
    refine (isWritten_of_convert hfound).mono fun written decoded hdecodes => ⟨hdecodes, ?_⟩
    rintro front name behind hname rfl
    obtain ⟨-, before, after, hbefore, hafter, hdecoded⟩ :=
      hdecodes.exists_of_reference hname.not_mem_semicolon
    rw [hname.expand_eq] at hdecoded
    exact ⟨before, after, hbefore, hafter, hdecoded⟩

/-- A reference by a plain name is kept in a document. -/
theorem references_kept_plain :
    Scan.Returns (Scan.reference "&") (.ofText "nbsp;x") "&nbsp;".toList ['x'] ∧
    ∃ found, (({} : Converter).convert "<a>&nbsp;</a>").outcome = .ok found ∧
      found.IsWritten {} "<a>&nbsp;</a>" Decodes := by
  have hok : (({} : Converter).convert "<a>&nbsp;</a>").outcome.toOption.isSome = true := by
    decide +kernel
  have hkept := references_kept "&" '"' (.ofText "nbsp;x") {} "<a>&nbsp;</a>"
  constructor
  · have hname : IsEntityName "nbsp".toList :=
      ⟨⟨'n', rfl, .inl ⟨by decide +kernel, by decide +kernel⟩⟩,
        forall_mem_of_all (by decide +kernel)⟩
    exact (hkept.1.1 "nbsp".toList ['x'] hname rfl).1
      (forall_mem_of_all (by decide +kernel))
  · obtain ⟨found, hfound⟩ := exists_of_isSome hok
    exact ⟨found, hfound, (hkept.2.2.2 found hfound).mono fun _ _ => And.left⟩

/-- A reference by a name with an underscore is refused, though a semicolon ends it, and so is a
document with it. -/
theorem underscore_refused :
    IsEntityName "my_ent".toList ∧
    Scan.RefusesReference (Scan.reference "&") (.ofText "my_ent;") "&" ∧
    ∃ error, (({} : Converter).convert "<a>&my_ent;</a>").outcome =
      .error (.refused (.malformed error)) ∧ error.fault = .unterminatedReference "&" "my" := by
  have hname : IsEntityName "my_ent".toList :=
    ⟨⟨'m', rfl, .inl ⟨by decide +kernel, by decide +kernel⟩⟩,
      forall_mem_of_all (by decide +kernel)⟩
  refine ⟨hname, (@Scan.reference_of_isEntityName (.ofText "my_ent;") _ [] "&" hname rfl).2 ?_, ?_⟩
  · intro hplain
    have hunderscore := hplain '_' (by decide)
    revert hunderscore
    decide +kernel
  · have hrefused : (match (({} : Converter).convert "<a>&my_ent;</a>").outcome with
        | .error (.refused (.malformed error)) => error.fault == .unterminatedReference "&" "my"
        | _ => false) = true := by
      decide +kernel
    split at hrefused
    · next error hresult => exact ⟨error, hresult, beq_iff_eq.1 hrefused⟩
    · contradiction

end XmlToJson

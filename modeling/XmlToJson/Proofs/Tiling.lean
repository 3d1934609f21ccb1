import XmlToJson.Proofs.Decoding
import XmlToJson.Proofs.NeverBack

/-!
# Tokens tile the source

A token is made of the characters of the source between the place where it starts and the place
where reading goes on.  Each scan returns a token if and only if the source shows it, so the tokens
and the places are determined by the source alone (`tiles_iff_of_run`): blanks, then the characters
of the token, then what is read next.

## Strategy

* **The shapes of tokens.**  `Token.Covers` lists, without a scan, what such a stretch can be for
  each sort of token: a marker is one character, a bare run goes on as far as it can (`BareRun`,
  `EndsRun`), and a quoted value and a text are delimited first and decoded afterwards
  (`Decoding.lean`).  A stretch has at least one character, and no more than there are
  (`Token.Covers.bounds`).
* **Scans.**  `Token.Follows` says that a token is what stands behind the blanks in front of a
  cursor.  There is one statement for each place where tokens are read, and each of them goes
  through the characters that a token can begin with:
  - inside a tag, where a `<` is no token (`nextToken_iff`);
  - between two tags, where a token is a `<` or a text (`nextContent_iff`);
  - inside a declaration, where a run takes no marker and no quote (`nextFragment_iff`).

The runs and the quoted values in them are `bareName_iff` and `quotedValue_iff`.
* **Places.**  A cursor that tracks a source stands as far in front of its end as there is left to
  read (`Cursor.Tracks.offset_of_rest`), so what is left behind a token gives the place where
  reading goes on.  `Token.Tiles` says the same by places in the source, and
  `Cursor.Tracks.tiles_iff` goes from one to the other.  With that the statement holds wherever a
  run of operations has come to.
-/

namespace XmlToJson

/-! ## The shapes of tokens -/

/-- Whether a character ends a bare fragment of a declaration and belongs to the token after it. -/
def Scan.endsFragment (c : Char) : Bool :=
  (Marker.ofChar? c).isSome || isQuote c

/-- How a bare run ends in front of a text, and the number of characters that are read of that.  A
blank is read with the run, and a character that ends it is left. -/
inductive EndsRun (ends : Char → Bool) : List Char → Nat → Prop where
  | exhausted : EndsRun ends [] 0
  | blank {c : Char} {rest : List Char} : Text.isBlank c = true → EndsRun ends (c :: rest) 1
  | terminator {c : Char} {rest : List Char} :
      Text.isBlank c = false → ends c = true → EndsRun ends (c :: rest) 0

/-- Whether a bare run is what a text begins with, as far as it goes, and the number of characters
that are read of the text.  Only the first character may be one that would end the run. -/
inductive BareRun (ends : Char → Bool) : List Char → List Char → Nat → Prop where
  | intro {c : Char} {others behind : List Char} {more : Nat} :
      Text.isBlank c = false → Marker.ofChar? c = none → Scan.isQuote c = false →
      (∀ d ∈ others, Text.isBlank d = false ∧ ends d = false) → EndsRun ends behind more →
      BareRun ends (c :: others) (c :: others ++ behind) ((c :: others).length + more)

/-- Whether a token of the given kind and value is what a text begins with, and the number of
characters that are read of the text. -/
inductive Token.Covers : TokenKind → String → List Char → Nat → Prop where
  | marker {c : Char} {behind : List Char} {marker : Marker} :
      Marker.ofChar? c = some marker → Covers (.marker marker) c.toString (c :: behind) 1
  | name {run text : List Char} {taken : Nat} :
      BareRun Scan.endsName run text taken → (∀ d ∈ run, d ≠ '<' ∧ Scan.isQuote d = false) →
      Covers .name (String.ofList run) text taken
  | quoted {quote : Char} {inner behind decoded : List Char} :
      Scan.isQuote quote = true → quote ∉ inner → Decodes inner decoded →
      Covers .quoted (String.ofList decoded) (quote :: inner ++ quote :: behind)
        (inner.length + 2)
  | text {inner behind decoded : List Char} :
      inner ≠ [] → '<' ∉ inner → behind = [] ∨ behind.head? = some '<' → Decodes inner decoded →
      Covers .text (String.ofList (Text.trim decoded)) (inner ++ behind) inner.length
  | quotedFragment {quote : Char} {inner behind : List Char} :
      Scan.isQuote quote = true → quote ∉ inner →
      Covers .fragment (String.ofList inner) (quote :: inner ++ quote :: behind)
        (inner.length + 2)
  | fragment {run text : List Char} {taken : Nat} :
      BareRun Scan.endsFragment run text taken → Covers .fragment (String.ofList run) text taken

theorem EndsRun.le_length {ends : Char → Bool} {behind : List Char} {more : Nat}
    (h : EndsRun ends behind more) : more ≤ behind.length := by
  cases h with
  | exhausted => exact Nat.le_refl 0
  | blank => exact Nat.succ_le_succ (Nat.zero_le _)
  | terminator => exact Nat.zero_le _

theorem BareRun.bounds {ends : Char → Bool} {run text : List Char} {taken : Nat}
    (h : BareRun ends run text taken) : 0 < taken ∧ taken ≤ text.length := by
  cases h with
  | intro _ _ _ _ hends =>
      have hle := hends.le_length
      simp only [List.length_append, List.length_cons]
      omega

/-- A run begins with a character that begins nothing else. -/
theorem BareRun.first {ends : Char → Bool} {run text : List Char} {taken : Nat}
    (h : BareRun ends run text taken) :
    ∃ c rest, text = c :: rest ∧ Text.isBlank c = false ∧ Marker.ofChar? c = none ∧
      Scan.isQuote c = false := by
  cases h with
  | intro hblank hmarker hquote _ _ => exact ⟨_, _, rfl, hblank, hmarker, hquote⟩

/-- Where a run can begin there is one. -/
theorem BareRun.exists (ends : Char → Bool) {c : Char} (rest : List Char)
    (hblank : Text.isBlank c = false) (hmarker : Marker.ofChar? c = none)
    (hquote : Scan.isQuote c = false) : ∃ run taken, BareRun ends run (c :: rest) taken := by
  let goesOn : Char → Bool := fun d => !(Text.isBlank d || ends d)
  have hothers : ∀ d ∈ rest.takeWhile goesOn, Text.isBlank d = false ∧ ends d = false := by
    intro d hd
    have hgoesOn : goesOn d = true := List.all_eq_true.1 List.all_takeWhile d hd
    simpa [goesOn] using hgoesOn
  have hends : ∃ more, EndsRun ends (rest.dropWhile goesOn) more := by
    have hhead := @Text.head?_dropWhile goesOn rest
    cases hbehind : rest.dropWhile goesOn with
    | nil => exact ⟨0, .exhausted⟩
    | cons d behind =>
        rw [hbehind] at hhead
        by_cases hd : Text.isBlank d = true
        · exact ⟨1, .blank hd⟩
        · have hstops : ends d = true := by simpa [goesOn, hd] using hhead d rfl
          exact ⟨0, .terminator (Bool.eq_false_iff.2 hd) hstops⟩
  obtain ⟨more, hends⟩ := hends
  have hrun := BareRun.intro hblank hmarker hquote hothers hends
  rw [List.cons_append, List.takeWhile_append_dropWhile] at hrun
  exact ⟨_, _, hrun⟩

/-- A token has at least one character, and no more than there are. -/
theorem Token.Covers.bounds {kind : TokenKind} {value : String} {text : List Char} {taken : Nat}
    (h : Covers kind value text taken) : 0 < taken ∧ taken ≤ text.length := by
  cases h with
  | marker _ => exact ⟨Nat.one_pos, Nat.succ_le_succ (Nat.zero_le _)⟩
  | name hrun _ => exact hrun.bounds
  | quoted | quotedFragment =>
      simp only [List.length_append, List.length_cons]
      omega
  | text hne _ _ _ =>
      have hpos := List.length_pos_iff.2 hne
      simp only [List.length_append]
      omega
  | fragment hrun => exact hrun.bounds

namespace Scan

variable {cursor : Cursor} {c quote : Char} {rest left : List Char} {value : String}

/-! ## Bare runs -/

theorem isNameChar_iff {c : Char} : isNameChar c = true ↔
    (Text.isBlank c = false ∧ endsName c = false) ∧ c ≠ '<' ∧ isQuote c = false := by
  simp only [isNameChar, isBadInName, Bool.not_eq_true', Bool.or_eq_false_iff,
    beq_eq_false_iff_ne]

theorem isFragmentChar_iff {c : Char} : isFragmentChar c = true ↔
    Text.isBlank c = false ∧ endsFragment c = false := by
  simp only [isFragmentChar, endsFragment, Bool.not_eq_true', Bool.or_eq_false_iff, and_assoc]

theorem leavesBehind_iff {behind : List Char} :
    LeavesBehind behind left ↔ ∃ more, EndsRun endsName behind more ∧ left = behind.drop more := by
  constructor
  · rintro (_ | hblank | ⟨hblank, hends⟩)
    · exact ⟨0, .exhausted, rfl⟩
    · exact ⟨1, .blank hblank, rfl⟩
    · exact ⟨0, .terminator hblank hends, rfl⟩
  · rintro ⟨more, hends, rfl⟩
    cases hends with
    | exhausted => exact .nothing
    | blank hblank => exact .blank hblank
    | terminator hblank hends => exact .marker hblank hends

/-- A run begins with a character that is no marker, so with none that is read in another way. -/
theorem ne_less_of_ofChar? (hmarker : Marker.ofChar? c = none) : c ≠ '<' := by
  rintro rfl
  simp [Marker.ofChar?] at hmarker

theorem bareName_iff (hcursor : cursor.rest = c :: rest) (hblank : Text.isBlank c = false)
    (hmarker : Marker.ofChar? c = none) (hquote : isQuote c = false) :
    (∃ stop, bareName cursor = .ok value stop ∧ stop.rest = left) ↔
      ∃ run taken, BareRun endsName run cursor.rest taken ∧
        (∀ d ∈ run, d ≠ '<' ∧ isQuote d = false) ∧ value = String.ofList run ∧
        left = cursor.rest.drop taken := by
  constructor
  · rintro ⟨stop, hname, rfl⟩
    obtain ⟨rfl, hleaves⟩ := ok_of_bareName hcursor hname
    obtain ⟨more, hends, hleft⟩ := leavesBehind_iff.1 hleaves
    have hothers : ∀ d ∈ rest.takeWhile isNameChar, isNameChar d = true :=
      List.all_eq_true.1 List.all_takeWhile
    have hsplit : cursor.rest =
        c :: rest.takeWhile isNameChar ++ rest.dropWhile isNameChar := by
      rw [List.cons_append, List.takeWhile_append_dropWhile, hcursor]
    refine ⟨c :: rest.takeWhile isNameChar, (c :: rest.takeWhile isNameChar).length + more,
      ?_, ?_, rfl, ?_⟩
    · rw [hsplit]
      exact .intro hblank hmarker hquote (fun d hd => (isNameChar_iff.1 (hothers d hd)).1) hends
    · rw [List.forall_mem_cons]
      exact ⟨⟨ne_less_of_ofChar? hmarker, hquote⟩,
        fun d hd => (isNameChar_iff.1 (hothers d hd)).2⟩
    · rw [hleft, hsplit, ← List.drop_drop, List.drop_left]
  · rintro ⟨run, taken, hrun, hallowed, rfl, rfl⟩
    generalize htext : cursor.rest = text at hrun
    cases hrun with
    | @intro d others behind more _ _ _ hothers hends =>
        have hall : ∀ e ∈ others, isNameChar e = true := fun e he =>
          isNameChar_iff.2 ⟨hothers e he, hallowed e (List.mem_cons_of_mem d he)⟩
        obtain ⟨stop, hname, hstop⟩ :=
          exists_bareName htext hall (leavesBehind_iff.2 ⟨more, hends, rfl⟩)
        refine ⟨stop, hname, ?_⟩
        rw [hstop, ← List.drop_drop, List.drop_left]

/-! ## Quoted values -/

theorem isStop_of_isQuote (h : isQuote quote = true) : CharacterData.IsStop quote := by
  have hquotes : quote = '"' ∨ quote = '\'' := by simpa [isQuote] using h
  rcases hquotes with rfl | rfl
  · exact ⟨by decide, by decide, by decide +kernel⟩
  · exact ⟨by decide, by decide, by decide +kernel⟩

/-- A quoted value ends at the next quote of its sort, and what stands in front of that is
decoded. -/
theorem quotedValue_iff (hquote : isQuote quote = true) :
    (∃ stop, quotedValue quote cursor = .ok value stop ∧ stop.rest = left) ↔
      ∃ inner decoded, quote ∉ inner ∧ Decodes inner decoded ∧ value = String.ofList decoded ∧
        cursor.rest = inner ++ quote :: left := by
  have hstop := isStop_of_isQuote hquote
  constructor
  · rintro ⟨stop, hvalue, rfl⟩
    simp only [quotedValue] at hvalue
    split at hvalue
    · next hending =>
        obtain ⟨rfl, rfl⟩ := EStateM.Result.ok.inj hvalue
        rcases CharacterData.read_spec hstop cursor.rest with
          ⟨name, hbroken⟩ | ⟨inner, behind, hrest, hlength, hinner, hdecodes, hends⟩
        · rw [hending] at hbroken
          contradiction
        · rcases hends with ⟨-, hexhausted⟩ | ⟨hhead, -⟩
          · rw [hending] at hexhausted
            contradiction
          · obtain ⟨behind, rfl⟩ := List.head?_eq_some_iff.1 hhead
            refine ⟨inner, _, hinner, hdecodes, rfl, ?_⟩
            rw [← hlength, Cursor.skipAndStep, rest_next (rest_skip hrest)]
            exact hrest
    · simp [fail] at hvalue
    · simp [fail] at hvalue
  · rintro ⟨inner, decoded, hinner, hdecodes, rfl, hrest⟩
    have hread : CharacterData.read quote cursor.rest = ⟨decoded, inner.length, .stopped⟩ := by
      rw [hrest, CharacterData.read_decodes hstop.1 hdecodes hinner, CharacterData.read,
        if_pos rfl]
      simp [CharacterData.after]
    refine ⟨cursor.skipAndStep inner.length, ?_, rest_next (rest_skip hrest)⟩
    simp only [quotedValue, hread]

end Scan

/-! ## Scans -/

/-- Whether a token is what stands behind the blanks in front of a cursor, and `left` is what is
left to read behind it. -/
def Token.Follows (token : Token) (cursor : Cursor) (left : List Char) : Prop :=
  token.position = (Scan.skipBlanks cursor).position ∧
    ∃ taken, Token.Covers token.kind token.value (Scan.skipBlanks cursor).rest taken ∧
      left = (Scan.skipBlanks cursor).rest.drop taken

/-- Which sorts of tokens an operation can return. -/
def Operation.Yields : Operation → TokenKind → Prop
  | .token, kind => kind = .name ∨ kind = .quoted ∨ ∃ marker ≠ .less, kind = .marker marker
  | .content, kind => kind = .text ∨ kind = .marker .less
  | .fragment, kind => kind = .fragment ∨ ∃ marker, kind = .marker marker
  | _, _ => False

namespace Scan

variable {cursor : Cursor} {c : Char} {rest left : List Char} {token : Token}

theorem not_isBlank_of_skipBlanks (h : (skipBlanks cursor).rest = c :: rest) :
    Text.isBlank c = false :=
  @Text.head?_dropWhile Text.isBlank cursor.rest c (by rw [← rest_skipBlanks_eq, h]; rfl)

theorem eq_less_iff : Marker.ofChar? c = some .less ↔ c = '<' := by
  constructor
  · intro h
    unfold Marker.ofChar? at h
    split at h
    · rfl
    all_goals simp at h
  · rintro rfl
    rfl

theorem ofChar?_of_isQuote (h : isQuote c = true) : Marker.ofChar? c = none := by
  have hquotes : c = '"' ∨ c = '\'' := by simpa [isQuote] using h
  rcases hquotes with rfl | rfl <;> rfl

/-- A marker behind the blanks is what follows. -/
theorem follows_marker {marker : Marker} (hstart : (skipBlanks cursor).rest = c :: rest)
    (hmarker : Marker.ofChar? c = some marker) :
    Token.Follows ⟨.marker marker, c.toString, (skipBlanks cursor).position⟩ cursor
      (skipBlanks cursor).next.2.rest := by
  refine ⟨rfl, 1, ?_, ?_⟩
  · rw [hstart]
    exact .marker hmarker
  · rw [rest_next hstart, hstart]
    rfl

/-- What is behind a quoted stretch. -/
theorem drop_quoted {quote : Char} {inner behind : List Char} :
    (quote :: inner ++ quote :: behind).drop (inner.length + 2) = behind := by
  rw [List.cons_append, List.drop_succ_cons, ← List.drop_drop, List.drop_left]
  rfl

/-! ### Inside a tag -/

theorem follows_of_nextToken {stop : Cursor} (h : nextToken cursor = .ok token stop) :
    Operation.token.Yields token.kind ∧ token.Follows cursor stop.rest := by
  cases nextToken_eq_ok_iff.1 h with
  | @marker c rest marker hstart hless hmarker =>
      refine ⟨.inr (.inr ⟨marker, ?_, rfl⟩), follows_marker hstart hmarker⟩
      rintro rfl
      exact hless (eq_less_iff.1 hmarker)
  | @quoted c rest value _ hstart hless hmarker hquote hvalue =>
      obtain ⟨inner, decoded, hinner, hdecodes, rfl, hrest⟩ :=
        (quotedValue_iff hquote).1 ⟨stop, hvalue, rfl⟩
      rw [rest_next hstart] at hrest
      refine ⟨.inr (.inl rfl), rfl, inner.length + 2, ?_, ?_⟩
      · rw [hstart, hrest]
        exact .quoted hquote hinner hdecodes
      · rw [hstart, hrest]
        exact drop_quoted.symm
  | @name c rest value _ hstart hless hmarker hquote hvalue =>
      obtain ⟨run, taken, hrun, hallowed, rfl, hleft⟩ :=
        (bareName_iff hstart (not_isBlank_of_skipBlanks hstart) hmarker
          (Bool.eq_false_iff.2 hquote)).1 ⟨stop, hvalue, rfl⟩
      exact ⟨.inl rfl, rfl, taken, .name hrun hallowed, hleft⟩

/-- Inside a tag a token is returned if and only if it is what follows, and is no `<`. -/
theorem nextToken_iff : (∃ stop, nextToken cursor = .ok token stop ∧ stop.rest = left) ↔
    Operation.token.Yields token.kind ∧ token.Follows cursor left := by
  constructor
  · rintro ⟨stop, htoken, rfl⟩
    exact follows_of_nextToken htoken
  · obtain ⟨kind, value, position⟩ := token
    rintro ⟨hyields, rfl, taken, hcovers, rfl⟩
    generalize htext : (skipBlanks cursor).rest = text at hcovers
    rcases hyields with hkind | hkind | ⟨marker, hless, hkind⟩
    · obtain rfl : kind = .name := hkind
      cases hcovers with
      | name hrun hallowed =>
          obtain ⟨c, rest, rfl, hblank, hmarker, hquote⟩ := hrun.first
          rw [← htext] at hrun ⊢
          obtain ⟨stop, hname, hstop⟩ := (bareName_iff htext hblank hmarker hquote).2
            ⟨_, taken, hrun, hallowed, rfl, rfl⟩
          exact ⟨stop, nextToken_eq_ok_iff.2 (.name htext (ne_less_of_ofChar? hmarker) hmarker
            (by simp [hquote]) hname), hstop⟩
    · obtain rfl : kind = .quoted := hkind
      cases hcovers with
      | @quoted quote inner behind decoded hquote hinner hdecodes =>
          have hmarker := ofChar?_of_isQuote hquote
          obtain ⟨stop, hvalue, hstop⟩ := (quotedValue_iff hquote).2
            ⟨inner, decoded, hinner, hdecodes, rfl, rest_next htext⟩
          refine ⟨stop, nextToken_eq_ok_iff.2 (.quoted htext (ne_less_of_ofChar? hmarker) hmarker
            hquote hvalue), ?_⟩
          rw [hstop, drop_quoted]
    · obtain rfl : kind = .marker marker := hkind
      cases hcovers with
      | marker hmarker =>
          refine ⟨_, nextToken_eq_ok_iff.2 (.marker htext ?_ hmarker), rest_next htext⟩
          rintro rfl
          exact hless (Option.some.inj (hmarker.symm.trans rfl))

/-! ### Between two tags -/

theorem isStop_less : CharacterData.IsStop '<' :=
  ⟨by decide, by decide, by decide +kernel⟩

theorem follows_of_nextContent {stop : Cursor} (h : nextContent cursor = .ok (some token) stop) :
    Operation.content.Yields token.kind ∧ token.Follows cursor stop.rest := by
  simp only [nextContent] at h
  split at h
  · simp at h
  · next c rest hstart =>
      split at h
      · next hless =>
          obtain ⟨rfl, rfl⟩ : _ ∧ _ := by simpa using h
          exact ⟨.inr rfl, follows_marker hstart (eq_less_iff.2 hless)⟩
      · next hless =>
          split at h
          · simp [fail] at h
          · next hending =>
              obtain ⟨rfl, rfl⟩ : _ ∧ _ := by simpa using h
              rcases CharacterData.read_spec isStop_less (skipBlanks cursor).rest with
                ⟨name, hbroken⟩ | ⟨inner, behind, hrest, hlength, hinner, hdecodes, hends⟩
              · exact absurd hbroken (hending name)
              have hbehind : behind = [] ∨ behind.head? = some '<' :=
                hends.imp And.left And.left
              have hne : inner ≠ [] := by
                rintro rfl
                rw [hstart, List.nil_append] at hrest
                subst hrest
                rcases hbehind with hnil | hhead
                · simp at hnil
                · exact hless (Option.some.inj hhead)
              refine ⟨.inl rfl, rfl, inner.length, ?_, ?_⟩
              · have hcovers := Token.Covers.text hne hinner hbehind hdecodes
                rwa [← hrest] at hcovers
              · rw [Cursor.skip, hlength]

/-- Between two tags a token is returned if and only if it is what follows. -/
theorem nextContent_iff : (∃ stop, nextContent cursor = .ok (some token) stop ∧ stop.rest = left) ↔
    Operation.content.Yields token.kind ∧ token.Follows cursor left := by
  constructor
  · rintro ⟨stop, htoken, rfl⟩
    exact follows_of_nextContent htoken
  · obtain ⟨kind, value, position⟩ := token
    rintro ⟨hyields, rfl, taken, hcovers, rfl⟩
    generalize htext : (skipBlanks cursor).rest = text at hcovers
    rcases hyields with hkind | hkind
    · obtain rfl : kind = .text := hkind
      cases hcovers with
      | @text inner behind decoded hne hinner hbehind hdecodes =>
          obtain ⟨c, others, rfl⟩ := List.exists_cons_of_ne_nil hne
          have hless : c ≠ '<' := by
            rintro rfl
            exact hinner List.mem_cons_self
          have hends : ∃ ending, (∀ name, ending ≠ .brokenReference name) ∧
              CharacterData.read '<' behind = ⟨[], 0, ending⟩ := by
            rcases hbehind with rfl | hhead
            · exact ⟨.exhausted, by simp, CharacterData.read.eq_1 '<'⟩
            · obtain ⟨others, rfl⟩ := List.head?_eq_some_iff.1 hhead
              exact ⟨.stopped, by simp, by rw [CharacterData.read, if_pos rfl]⟩
          obtain ⟨ending, hsound, hending⟩ := hends
          have hread : CharacterData.read '<' (c :: others ++ behind) =
              ⟨decoded, (c :: others).length, ending⟩ := by
            rw [CharacterData.read_decodes isStop_less.1 hdecodes hinner, hending]
            simp [CharacterData.after]
          refine ⟨(skipBlanks cursor).skip (c :: others).length, ?_, ?_⟩
          · rw [List.cons_append] at htext hread
            simp only [nextContent, htext, hless, if_false, hread]
            cases ending with
            | brokenReference name => exact absurd rfl (hsound name)
            | stopped | exhausted => rfl
          · rw [rest_skip htext, List.drop_left]
    · obtain rfl : kind = .marker .less := hkind
      cases hcovers with
      | marker hmarker =>
          refine ⟨(skipBlanks cursor).next.2, ?_, rest_next htext⟩
          simp only [nextContent, htext, eq_less_iff.1 hmarker, if_true]
          rfl

/-! ### Inside a declaration -/

theorem nextFragment_bare {run : List Char} {taken : Nat}
    (hrun : BareRun endsFragment run (skipBlanks cursor).rest taken) :
    ∃ stop, nextFragment cursor =
        .ok (some ⟨.fragment, String.ofList run, (skipBlanks cursor).position⟩) stop ∧
      stop.rest = (skipBlanks cursor).rest.drop taken := by
  generalize htext : (skipBlanks cursor).rest = text at hrun
  cases hrun with
  | @intro c others behind more _ hmarker hquote hothers hends =>
      have hall : ∀ d ∈ others, isFragmentChar d = true := fun d hd =>
        isFragmentChar_iff.2 (hothers d hd)
      have hhead : ∀ d ∈ behind.head?, isFragmentChar d = false := by
        cases hends with
        | exhausted => simp
        | blank hblank => simp [isFragmentChar, hblank]
        | terminator hblank hends =>
            rintro d hd
            obtain rfl := Option.some.inj hd
            rw [Bool.eq_false_iff, Ne, isFragmentChar_iff, hends]
            simp
      have hname := Text.takeWhile_append_of_head? hall hhead
      have hbehind : ((skipBlanks cursor).skip (c :: others).length).rest = behind :=
        rest_skip htext
      rw [← List.drop_drop, List.drop_left]
      rw [List.cons_append] at htext
      simp only [nextFragment, htext, hmarker, hquote, hname, hbehind, if_false,
        Bool.false_eq_true]
      cases hends with
      | exhausted => exact ⟨_, rfl, hbehind⟩
      | blank hblank =>
          refine ⟨_, rfl, ?_⟩
          rw [if_pos hblank, Cursor.skipAndStep, rest_next hbehind]
          rfl
      | terminator hblank _ =>
          refine ⟨_, rfl, ?_⟩
          rw [if_neg (by simp [hblank])]
          exact hbehind

theorem nextFragment_quoted {quote : Char} {inner behind : List Char}
    (hquote : isQuote quote = true) (hinner : quote ∉ inner)
    (hstart : (skipBlanks cursor).rest = quote :: inner ++ quote :: behind) :
    nextFragment cursor =
      .ok (some ⟨.fragment, String.ofList inner, (skipBlanks cursor).position⟩)
        ((skipBlanks cursor).skip (inner.length + 2)) := by
  have hindex : Text.indexOf? [quote] (inner ++ quote :: behind) = some inner.length := by
    have hnot : ¬ [] ++ [quote] <:+: inner := fun hsub => hinner (hsub.subset (by simp))
    exact Text.indexOf?_append List.not_mem_nil hnot behind
  rw [List.cons_append] at hstart
  simp only [nextFragment, hstart, ofChar?_of_isQuote hquote, hquote, hindex, if_true,
    List.take_left]

theorem follows_of_nextFragment {stop : Cursor} (h : nextFragment cursor = .ok (some token) stop) :
    Operation.fragment.Yields token.kind ∧ token.Follows cursor stop.rest := by
  cases hstart : (skipBlanks cursor).rest with
  | nil => simp [nextFragment, hstart] at h
  | cons c rest =>
      cases hmarker : Marker.ofChar? c with
      | some marker =>
          simp only [nextFragment, hstart, hmarker] at h
          obtain ⟨rfl, rfl⟩ : _ ∧ _ := by simpa using h
          exact ⟨.inr ⟨marker, rfl⟩, follows_marker hstart hmarker⟩
      | none =>
          by_cases hquote : isQuote c = true
          · cases hindex : Text.indexOf? [c] rest with
            | none => simp [nextFragment, hstart, hmarker, hquote, hindex] at h
            | some length =>
                obtain ⟨inner, behind, rfl, -, hinner⟩ := Text.exists_of_indexOf?_singleton hindex
                rw [nextFragment_quoted hquote hinner hstart] at h
                obtain ⟨rfl, rfl⟩ : _ ∧ _ := by simpa using h
                refine ⟨.inl rfl, rfl, inner.length + 2, ?_, rfl⟩
                rw [hstart]
                exact .quotedFragment hquote hinner
          · obtain ⟨run, taken, hrun⟩ := BareRun.exists endsFragment rest
              (not_isBlank_of_skipBlanks hstart) hmarker (Bool.eq_false_iff.2 hquote)
            rw [← hstart] at hrun
            obtain ⟨behind, hfragment, hbehind⟩ := nextFragment_bare hrun
            rw [hfragment] at h
            obtain ⟨rfl, rfl⟩ : _ ∧ _ := by simpa using h
            exact ⟨.inl rfl, rfl, taken, .fragment hrun, hbehind⟩

/-- Inside a declaration a token is returned if and only if it is what follows. -/
theorem nextFragment_iff :
    (∃ stop, nextFragment cursor = .ok (some token) stop ∧ stop.rest = left) ↔
      Operation.fragment.Yields token.kind ∧ token.Follows cursor left := by
  constructor
  · rintro ⟨stop, htoken, rfl⟩
    exact follows_of_nextFragment htoken
  · obtain ⟨kind, value, position⟩ := token
    rintro ⟨hyields, rfl, taken, hcovers, rfl⟩
    generalize htext : (skipBlanks cursor).rest = text at hcovers
    rcases hyields with hkind | ⟨marker, hkind⟩
    · obtain rfl : kind = .fragment := hkind
      cases hcovers with
      | quotedFragment hquote hinner =>
          refine ⟨_, nextFragment_quoted hquote hinner htext, ?_⟩
          rw [Cursor.skip, htext]
      | fragment hrun =>
          rw [← htext] at hrun ⊢
          exact nextFragment_bare hrun
    · obtain rfl : kind = .marker marker := hkind
      cases hcovers with
      | marker hmarker =>
          refine ⟨(skipBlanks cursor).next.2, ?_, rest_next htext⟩
          simp only [nextFragment, htext, hmarker]
          rfl

end Scan

/-- A scan with renamed results returns a result if and only if the scan returns it, provided that
no other result gets the same name. -/
theorem ok_map_iff {α β : Type} {scan : Scan α} {change : α → β} {value : α}
    {cursor stop : Cursor} (hchange : ∀ found, change found = change value → found = value) :
    (change <$> scan) cursor = .ok (change value) stop ↔ scan cursor = .ok value stop := by
  constructor
  · intro h
    obtain ⟨found, hfound, heq⟩ := ok_of_map h
    rwa [hchange found heq] at hfound
  · intro h
    rw [map_apply, h]

/-- Whatever the operation, it returns a token if and only if it is what follows and of a sort that
the operation returns. -/
theorem Operation.perform_iff {operation : Operation} {cursor : Cursor} {token : Token}
    {left : List Char} :
    (∃ stop, operation.perform cursor = .ok (.token (some token)) stop ∧ stop.rest = left) ↔
      operation.Yields token.kind ∧ token.Follows cursor left := by
  cases operation with
  | next | skipPast literal => simp [perform, Yields]
  | back | cdata | reference opening =>
      constructor
      · rintro ⟨stop, h, -⟩
        obtain ⟨found, -, heq⟩ := ok_of_map h
        simp at heq
      · rintro ⟨hyields, -⟩
        exact hyields.elim
  | token =>
      rw [← Scan.nextToken_iff]
      refine exists_congr fun stop => and_congr_left fun _ => ?_
      exact ok_map_iff fun found heq => by simpa using heq
  | content =>
      rw [← Scan.nextContent_iff]
      refine exists_congr fun stop => and_congr_left fun _ => ?_
      exact ok_map_iff fun found heq => by simpa using heq
  | fragment =>
      rw [← Scan.nextFragment_iff]
      refine exists_congr fun stop => and_congr_left fun _ => ?_
      exact ok_map_iff fun found heq => by simpa using heq

/-! ## Places in the source -/

/-- Whether a token is what the source shows from the place `index` on, up to the place `stop`:
blanks, and then the characters of the token, with the blank that ends a run. -/
structure Token.Tiles (source : List Char) (index : Nat) (token : Token) (stop : Nat) : Prop
    extends Token.StandsIn source index token where
  lt_stop : token.position.offset < stop
  stop_le : stop ≤ source.length
  covers : Covers token.kind token.value (source.drop token.position.offset)
    (stop - token.position.offset)

theorem Position.CountedIn.eq {source : List Char} {first second : Position}
    (hfirst : first.CountedIn source) (hsecond : second.CountedIn source)
    (hoffset : first.offset = second.offset) : first = second := by
  have hcounted := hfirst.counted
  rw [hoffset, hsecond.counted] at hcounted
  exact (Except.ok.inj hcounted).symm

/-- Where two cursors track a source, their places are as far apart as what is left to read. -/
theorem Cursor.Tracks.offset_of_rest {source : List Char} {cursor behind : Cursor} {taken : Nat}
    (hcursor : cursor.Tracks source) (hbehind : behind.Tracks source)
    (hle : taken ≤ cursor.rest.length) (hrest : behind.rest = cursor.rest.drop taken) :
    behind.position.offset = cursor.position.offset + taken := by
  have hbefore := hcursor.offset_add
  have hafter := hbehind.offset_add
  rw [Cursor.remaining] at hbefore
  rw [Cursor.remaining, hrest, List.length_drop] at hafter
  omega

theorem Operation.tracks_of_perform {source : List Char} {cursor stop : Cursor}
    {operation : Operation} {answer : Answer} (htracks : cursor.Tracks source)
    (h : operation.perform cursor = .ok answer stop) : stop.Tracks source := by
  have hstays := Operation.stays_perform htracks operation
  rwa [h] at hstays

/-- The first character that is no blank is found behind the blanks. -/
theorem Token.StandsIn.position_skipBlanks {source : List Char} {cursor : Cursor} {token : Token}
    (h : token.StandsIn source cursor.position.offset) (htracks : cursor.Tracks source) :
    (Scan.skipBlanks cursor).position = token.position := by
  obtain ⟨c, hc, hblank, -⟩ := h.first
  have hle := h.index_le
  have hoffset := h.counted.offset_le
  set blanks := (source.take token.position.offset).drop cursor.position.offset with hblanks
  have hlength : blanks.length = token.position.offset - cursor.position.offset := by
    rw [hblanks, List.length_drop, List.length_take, Nat.min_eq_left hoffset]
  have hrest : cursor.rest = blanks ++ source.drop token.position.offset := by
    have hsplit := List.take_append_drop token.position.offset source
    calc cursor.rest = source.drop cursor.position.offset := htracks.countedIn.2
      _ = (source.take token.position.offset ++ source.drop token.position.offset).drop
            cursor.position.offset := by rw [hsplit]
      _ = blanks ++ source.drop token.position.offset := by
          rw [List.drop_append_of_le_length]
          rw [List.length_take, Nat.min_eq_left hoffset]
          exact hle
  have hrun : cursor.rest.takeWhile Text.isBlank = blanks := by
    rw [hrest]
    refine Text.takeWhile_append_of_head? h.blanks fun d hd => ?_
    rw [List.head?_drop, hc] at hd
    obtain rfl := Option.some.inj hd
    exact hblank
  have hstart := htracks.skipBlanks
  have hbehind : (Scan.skipBlanks cursor).rest = cursor.rest.drop blanks.length := by
    rw [Scan.skipBlanks, hrun, Cursor.skip]
  have hbound : blanks.length ≤ cursor.rest.length := by
    rw [hrest, List.length_append]
    exact Nat.le_add_right _ _
  refine hstart.countedIn.1.eq h.counted ?_
  rw [htracks.offset_of_rest hstart hbound hbehind, hlength]
  omega

/-- Where a cursor tracks a source, an operation returns a token and goes on at the place `stop` if
and only if the source shows that token up to there. -/
theorem Cursor.Tracks.tiles_iff {source : List Char} {cursor : Cursor}
    (htracks : cursor.Tracks source) {operation : Operation} {token : Token} {stop : Nat} :
    (∃ behind, operation.perform cursor = .ok (.token (some token)) behind ∧
        behind.position.offset = stop) ↔
      operation.Yields token.kind ∧ token.Tiles source cursor.position.offset stop := by
  have hstart := htracks.skipBlanks
  have hdrop := hstart.countedIn.2
  constructor
  · rintro ⟨behind, hperform, rfl⟩
    obtain ⟨hyields, hposition, taken, hcovers, hrest⟩ :=
      Operation.perform_iff.1 ⟨behind, hperform, rfl⟩
    obtain ⟨hpos, hle⟩ := hcovers.bounds
    have hoffset := hstart.offset_of_rest (Operation.tracks_of_perform htracks hperform) hle hrest
    have hbound := hstart.countedIn.1.offset_le
    have hlength : (Scan.skipBlanks cursor).rest.length =
        source.length - (Scan.skipBlanks cursor).position.offset := by
      rw [hdrop, List.length_drop]
    refine ⟨hyields, (Operation.begins_of_perform hperform).standsIn htracks, ?_, ?_, ?_⟩
    · rw [hoffset, hposition]
      omega
    · omega
    · rw [hposition, hoffset, Nat.add_sub_cancel_left, ← hdrop]
      exact hcovers
  · rintro ⟨hyields, htiles⟩
    have hposition := htiles.toStandsIn.position_skipBlanks htracks
    have hcovers := htiles.covers
    have hlt := htiles.lt_stop
    rw [← hposition, ← hdrop] at hcovers
    obtain ⟨behind, hperform, hrest⟩ := Operation.perform_iff.2
      ⟨hyields, hposition.symm, _, hcovers, rfl⟩
    refine ⟨behind, hperform, ?_⟩
    rw [hstart.offset_of_rest (Operation.tracks_of_perform htracks hperform) hcovers.bounds.2 hrest,
      hposition]
    omega

/-- From wherever a run of operations has come to, the next operation returns a token and goes on at
the place `stop` if and only if it is one that the operation returns and the source shows it up to
there: blanks, then the characters of the token, then what is read next. -/
theorem tiles_iff_of_run (text : String) (start : Nat) (operations : List Operation)
    (operation : Operation) (token : Token) (stop : Nat) :
    let source := text.toList
    let cursor := Operation.run operations ((Cursor.ofText text).skip start)
    (∃ behind, operation.perform cursor = .ok (.token (some token)) behind ∧
        behind.position.offset = stop) ↔
      operation.Yields token.kind ∧ token.Tiles source cursor.position.offset stop :=
  (Operation.tracks_run ((Cursor.Tracks.ofText text).skip start) operations).tiles_iff

end XmlToJson

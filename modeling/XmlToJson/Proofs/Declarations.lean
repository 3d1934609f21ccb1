import XmlToJson.Proofs.Rendering

/-!
# Where a declaration ends

A declaration is not looked into, but its end has to be found: a `<` in it opens a group, a `>`
closes the innermost group or the declaration itself, and between two quotes of the same sort
nothing counts.  This file gives three accounts of the end and shows that they are one.

* **Character by character.**  `pastDeclaration?` carries the number of open groups and the quote
  that has still to come, and looks at each character once.
* **Token by token** is how the program reads.  A token is a marker, a quoted run or a run of other
  characters, and blanks are skipped in front of it.  Each of them is a stretch over which the first
  account is known: blanks and other characters mean nothing (`pastDeclaration?_plain`), and a quote
  hides everything up to its second occurrence (`pastDeclaration?_quoted`) or, if there is none, the
  end (`pastDeclaration?_unclosed`).  So where a declaration ends follows from its next token and
  what is left behind that (`declarationToken_spec`), and the two accounts agree
  (`declarationEnd_spec`).
* **By a grammar.**  `Groups` says what can stand in a declaration: characters that mean nothing,
  quoted runs and groups in angle brackets.  Groups open and close nothing but themselves
  (`pastDeclaration?_groups`), and what stands in front of the `>` that ends a declaration is made
  of them (`exists_groups`).  So a declaration ends at a `>` if and only if groups stand in front of
  it (`pastDeclaration?_eq_iff`).

The last section brings this to the event of a declaration, which begins behind `<!` where neither a
comment nor a section does (`markupSort_declaration`, `markupReading_declaration`).
-/

namespace XmlToJson

namespace Text

/-- Where a character stands for the first time. -/
theorem exists_of_indexOf?_singleton {c : Char} {text : List Char} {index : Nat}
    (h : indexOf? [c] text = some index) :
    ∃ before behind, text = before ++ c :: behind ∧ before.length = index ∧ c ∉ before := by
  induction text generalizing index with
  | nil => simp [indexOf?] at h
  | cons d rest ih =>
      rw [indexOf?] at h
      split at h
      · next hfront =>
          obtain rfl : 0 = index := by simpa using h
          obtain rfl : c = d := by simpa using hfront
          exact ⟨[], rest, rfl, rfl, by simp⟩
      · next hfront =>
          obtain ⟨inner, hinner, rfl⟩ := Option.map_eq_some_iff.1 h
          obtain ⟨before, behind, rfl, hlength, hbefore⟩ := ih hinner
          have hne : c ≠ d := by simpa using hfront
          exact ⟨d :: before, behind, rfl, by rw [List.length_cons, hlength],
            by simp [hne, hbefore]⟩

theorem not_mem_of_indexOf? {c : Char} {text : List Char} (h : indexOf? [c] text = none) :
    c ∉ text := by
  induction text with
  | nil => simp
  | cons d rest ih =>
      rw [indexOf?] at h
      split at h
      · simp at h
      · next hfront =>
          have hne : c ≠ d := by simpa using hfront
          simp [hne, ih (by simpa using h)]

end Text

namespace Scan

/-- What is left behind a declaration.  `nesting` is the number of groups in it that are open,
and `quote` the quote that has still to come for the second time. -/
def pastDeclaration? : Nat → Option Char → List Char → Option (List Char)
  | _, _, [] => none
  | nesting, some quote, c :: rest =>
      pastDeclaration? nesting (if c = quote then none else some quote) rest
  | nesting, none, c :: rest =>
      if c = '<' then pastDeclaration? (nesting + 1) none rest
      else if c = '>' then
        match nesting with
        | 0 => some rest
        | outer + 1 => pastDeclaration? outer none rest
      else pastDeclaration? nesting (if isQuote c then some c else none) rest

/-- Whether a character means nothing in a declaration. -/
def isPlain (c : Char) : Bool :=
  !(c == '<' || c == '>' || isQuote c)

theorem isPlain_of_isBlank {c : Char} (h : Text.isBlank c = true) : isPlain c = true := by
  have hne : ∀ d, Text.isBlank d = false → c ≠ d := by
    rintro d hd rfl
    simp [hd] at h
  simp [isPlain, isQuote, hne '<' (by decide), hne '>' (by decide), hne '"' (by decide),
    hne '\'' (by decide)]

theorem isPlain_of_not_marker {c : Char} (hmarker : Marker.ofChar? c = none)
    (hquote : ¬ isQuote c = true) : isPlain c = true := by
  have hne : ∀ d, Marker.ofChar? d ≠ none → c ≠ d := by
    rintro d hd rfl
    exact hd hmarker
  simp [isPlain, hquote, hne '<' (by decide), hne '>' (by decide)]

theorem isPlain_of_isFragmentChar {c : Char} (h : isFragmentChar c = true) :
    isPlain c = true := by
  simp only [isFragmentChar, Bool.not_eq_true', Bool.or_eq_false_iff] at h
  obtain ⟨⟨-, hmarker⟩, hquote⟩ := h
  exact isPlain_of_not_marker (by simpa using hmarker) (by simp [hquote])

section Characters

variable {nesting : Nat} {c quote : Char} {chars rest : List Char}

theorem pastDeclaration?_plain (hc : isPlain c = true) :
    pastDeclaration? nesting none (c :: rest) = pastDeclaration? nesting none rest := by
  simp only [isPlain, Bool.not_eq_true', Bool.or_eq_false_iff, beq_eq_false_iff_ne] at hc
  obtain ⟨⟨hless, hgreater⟩, hquote⟩ := hc
  simp [pastDeclaration?, hless, hgreater, hquote]

theorem pastDeclaration?_append_plain (hchars : ∀ c ∈ chars, isPlain c = true) :
    pastDeclaration? nesting none (chars ++ rest) = pastDeclaration? nesting none rest := by
  induction chars with
  | nil => rfl
  | cons c chars ih =>
      rw [List.cons_append, pastDeclaration?_plain (hchars c List.mem_cons_self)]
      exact ih fun d hd => hchars d (List.mem_cons_of_mem c hd)

/-- Up to its second occurrence a quote hides everything. -/
theorem pastDeclaration?_quoted (hchars : quote ∉ chars) :
    pastDeclaration? nesting (some quote) (chars ++ quote :: rest) =
      pastDeclaration? nesting none rest := by
  induction chars with
  | nil => simp [pastDeclaration?]
  | cons c chars ih =>
      obtain ⟨hc, hrest⟩ := List.ne_and_not_mem_of_not_mem_cons hchars
      rw [List.cons_append, pastDeclaration?, if_neg (Ne.symm hc)]
      exact ih hrest

/-- A quote that does not come again hides the end. -/
theorem pastDeclaration?_unclosed (hchars : quote ∉ chars) :
    pastDeclaration? nesting (some quote) chars = none := by
  induction chars with
  | nil => rfl
  | cons c chars ih =>
      obtain ⟨hc, hrest⟩ := List.ne_and_not_mem_of_not_mem_cons hchars
      rw [pastDeclaration?, if_neg (Ne.symm hc)]
      exact ih hrest

theorem pastDeclaration?_quote (hquote : isQuote quote = true) :
    pastDeclaration? nesting none (quote :: rest) =
      pastDeclaration? nesting (some quote) rest := by
  have hless : quote ≠ '<' := by rintro rfl; simp [isQuote] at hquote
  have hgreater : quote ≠ '>' := by rintro rfl; simp [isQuote] at hquote
  simp [pastDeclaration?, hless, hgreater, hquote]

theorem pastDeclaration?_less :
    pastDeclaration? nesting none ('<' :: rest) = pastDeclaration? (nesting + 1) none rest := by
  simp [pastDeclaration?]

/-- Where a declaration ends does not depend on what follows. -/
theorem exists_of_pastDeclaration? {open? : Option Char}
    (h : pastDeclaration? nesting open? chars = some rest) :
    ∃ body, chars = body ++ rest ∧ body ≠ [] ∧
      ∀ tail, pastDeclaration? nesting open? (body ++ tail) = some tail := by
  fun_induction pastDeclaration? nesting open? chars with
  | case1 => simp at h
  | case2 nesting quote c chars ih =>
      obtain ⟨body, rfl, -, hbody⟩ := ih h
      exact ⟨c :: body, rfl, by simp, fun tail => by rw [List.cons_append, pastDeclaration?, hbody]⟩
  | case3 nesting chars ih =>
      obtain ⟨body, rfl, -, hbody⟩ := ih h
      exact ⟨'<' :: body, rfl, by simp, fun tail => by
        rw [List.cons_append, pastDeclaration?_less, hbody]⟩
  | case4 chars =>
      obtain rfl := Option.some.inj h
      exact ⟨['>'], rfl, by simp, fun tail => by simp [pastDeclaration?]⟩
  | case5 chars _ outer ih =>
      obtain ⟨body, rfl, -, hbody⟩ := ih h
      refine ⟨'>' :: body, rfl, by simp, fun tail => ?_⟩
      simp [pastDeclaration?, hbody]
  | case6 nesting c chars hless hgreater ih =>
      obtain ⟨body, rfl, -, hbody⟩ := ih h
      refine ⟨c :: body, rfl, by simp, fun tail => ?_⟩
      simp [pastDeclaration?, hless, hgreater, hbody]

end Characters

end Scan

/-! ## Token by token -/

namespace Onward

variable {ε σ α : Type} {size : σ → Nat} {step : EStateM ε σ α} {moves : StrictlyForward size step}
  {before after : σ}

theorem ok_of_run {value : α} {shorter : size after < size before}
    (h : run step moves before = .ok value after shorter) : step before = .ok value after := by
  rw [← toResult_run step moves, h]
  rfl

theorem error_of_run {failure : ε} (h : run step moves before = .error failure after) :
    step before = .error failure after := by
  rw [← toResult_run step moves, h]
  rfl

end Onward

namespace Scan

variable {cursor stop : Cursor}

/-- Behind the blanks that come next a declaration ends where it ends. -/
theorem pastDeclaration?_skipBlanks (nesting : Nat) (cursor : Cursor) :
    pastDeclaration? nesting none cursor.rest =
      pastDeclaration? nesting none (skipBlanks cursor).rest := by
  have hsplit : cursor.rest = cursor.rest.takeWhile Text.isBlank ++ (skipBlanks cursor).rest := by
    conv => lhs; rw [← @List.takeWhile_append_dropWhile _ Text.isBlank cursor.rest]
    rw [skipBlanks, Cursor.skip, drop_takeWhile]
  conv => lhs; rw [hsplit]
  exact pastDeclaration?_append_plain fun c hc =>
    isPlain_of_isBlank (List.all_eq_true.1 List.all_takeWhile c hc)

/-- What is left behind a declaration whose next token has been read. -/
def pastToken? (nesting : Nat) (token : Token) (rest : List Char) : Option (List Char) :=
  if token.isThe .less then pastDeclaration? (nesting + 1) none rest
  else if token.isThe .greater then
    match nesting with
    | 0 => some rest
    | outer + 1 => pastDeclaration? outer none rest
  else pastDeclaration? nesting none rest

theorem pastToken?_fragment (nesting : Nat) (value : String) (position : Position)
    (rest : List Char) :
    pastToken? nesting ⟨.fragment, value, position⟩ rest = pastDeclaration? nesting none rest := rfl

theorem pastDeclaration?_marker {c : Char} {marker : Marker} (h : Marker.ofChar? c = some marker)
    (nesting : Nat) (position : Position) (rest : List Char) :
    pastDeclaration? nesting none (c :: rest) =
      pastToken? nesting ⟨.marker marker, c.toString, position⟩ rest := by
  unfold Marker.ofChar? at h
  split at h
  · obtain rfl := Option.some.inj h
    exact pastDeclaration?_less
  · obtain rfl := Option.some.inj h
    simp [pastDeclaration?, pastToken?, Token.isThe]
  · obtain rfl := Option.some.inj h
    exact pastDeclaration?_plain (by decide)
  · obtain rfl := Option.some.inj h
    exact pastDeclaration?_plain (by decide)
  · obtain rfl := Option.some.inj h
    exact pastDeclaration?_plain (by decide)
  · obtain rfl := Option.some.inj h
    exact pastDeclaration?_plain (by decide)
  · simp at h

/-- A run of other characters is read up to the marker, the quote or the blank behind it; a
blank is read with it. -/
theorem nextFragment_run {c : Char} {rest : List Char}
    (hstart : (skipBlanks cursor).rest = c :: rest) (hmarker : Marker.ofChar? c = none)
    (hquote : ¬ isQuote c = true) :
    ∃ stop, nextFragment cursor = .ok (some ⟨.fragment,
        String.ofList (c :: rest.takeWhile isFragmentChar), (skipBlanks cursor).position⟩) stop ∧
      (stop.rest = rest.dropWhile isFragmentChar ∨
        ∃ blank, Text.isBlank blank = true ∧
          blank :: stop.rest = rest.dropWhile isFragmentChar) := by
  have hbehind : ((skipBlanks cursor).skip (c :: rest.takeWhile isFragmentChar).length).rest =
      rest.dropWhile isFragmentChar := by
    rw [Cursor.skip, hstart, List.length_cons, List.drop_succ_cons, drop_takeWhile]
  simp only [nextFragment, hstart, hmarker, if_neg hquote]
  rw [hbehind]
  cases hrest : rest.dropWhile isFragmentChar with
  | nil => exact ⟨_, rfl, .inl (hbehind.trans hrest)⟩
  | cons d others =>
      refine ⟨_, rfl, ?_⟩
      split
      · next hblank => exact .inr ⟨d, hblank, congrArg (d :: ·) (rest_next (hbehind.trans hrest))⟩
      · exact .inl (hbehind.trans hrest)

/-- Where a declaration ends follows from its first token and what is left behind that; if
there is no token, it has no end. -/
theorem nextFragment_spec (nesting : Nat) (cursor : Cursor) :
    (∃ stop, nextFragment cursor = .ok none stop ∧
      pastDeclaration? nesting none cursor.rest = none) ∨
    ∃ token stop, nextFragment cursor = .ok (some token) stop ∧
      pastDeclaration? nesting none cursor.rest = pastToken? nesting token stop.rest := by
  rw [pastDeclaration?_skipBlanks]
  cases hstart : (skipBlanks cursor).rest with
  | nil => exact .inl ⟨skipBlanks cursor, by simp only [nextFragment, hstart], rfl⟩
  | cons c rest =>
      cases hmarker : Marker.ofChar? c with
      | some marker =>
          refine .inr ⟨⟨.marker marker, c.toString, (skipBlanks cursor).position⟩,
            (skipBlanks cursor).next.2, by simp only [nextFragment, hstart, hmarker], ?_⟩
          rw [rest_next hstart]
          exact pastDeclaration?_marker hmarker nesting _ rest
      | none =>
          by_cases hquote : isQuote c = true
          · rw [pastDeclaration?_quote hquote]
            cases hindex : Text.indexOf? [c] rest with
            | none =>
                refine .inl ⟨(skipBlanks cursor).skipAll, ?_,
                  pastDeclaration?_unclosed (Text.not_mem_of_indexOf? hindex)⟩
                simp only [nextFragment, hstart, hmarker, hquote, hindex, if_true]
            | some index =>
                obtain ⟨inside, others, rfl, rfl, hinside⟩ :=
                  Text.exists_of_indexOf?_singleton hindex
                refine .inr ⟨⟨.fragment, String.ofList inside, (skipBlanks cursor).position⟩,
                  (skipBlanks cursor).skip (inside.length + 2), ?_, ?_⟩
                · simp only [nextFragment, hstart, hmarker, hquote, hindex, if_true, List.take_left]
                · have hrest : ((skipBlanks cursor).skip (inside.length + 2)).rest = others := by
                    rw [Cursor.skip, hstart]
                    simp
                  rw [pastToken?_fragment, hrest]
                  exact pastDeclaration?_quoted hinside
          · obtain ⟨stop, hfragment, hstop⟩ := nextFragment_run hstart hmarker hquote
            refine .inr ⟨_, stop, hfragment, ?_⟩
            have hrun : ∀ d ∈ c :: rest.takeWhile isFragmentChar, isPlain d = true :=
              List.forall_mem_cons.2 ⟨isPlain_of_not_marker hmarker hquote, fun d hd =>
                isPlain_of_isFragmentChar (List.all_eq_true.1 List.all_takeWhile d hd)⟩
            have hsplit : c :: rest = (c :: rest.takeWhile isFragmentChar) ++
                rest.dropWhile isFragmentChar := by
              simp
            rw [hsplit, pastDeclaration?_append_plain hrun, pastToken?_fragment]
            rcases hstop with hrest | ⟨blank, hblank, hrest⟩
            · rw [hrest]
            · rw [← hrest, pastDeclaration?_plain (isPlain_of_isBlank hblank)]

/-- Where a declaration ends follows from its next token and what is left behind that; if the
token cannot be read, it has no end. -/
theorem declarationToken_spec (nesting : Nat) (cursor : Cursor) :
    match declarationToken cursor with
    | .ok token stop =>
        pastDeclaration? nesting none cursor.rest = pastToken? nesting token stop.rest
    | .error _ _ => pastDeclaration? nesting none cursor.rest = none := by
  rcases nextFragment_spec nesting cursor with
    ⟨stop, hfragment, hpast⟩ | ⟨token, stop, hfragment, hpast⟩
  · simp only [declarationToken, hfragment]
    exact hpast
  · simp only [declarationToken, hfragment]
    exact hpast

/-- Token by token a declaration ends where it does character by character. -/
theorem declarationEnd_spec (nesting : Nat) (cursor : Cursor) :
    match declarationEnd nesting cursor with
    | .ok _ stop => pastDeclaration? nesting none cursor.rest = some stop.rest
    | .error _ _ => pastDeclaration? nesting none cursor.rest = none := by
  fun_induction declarationEnd nesting cursor with
  | case1 nesting cursor error stop hrun =>
      have htoken := declarationToken_spec nesting cursor
      rwa [Onward.error_of_run hrun] at htoken
  | case2 nesting cursor token between shorter hrun hless ih =>
      have htoken := declarationToken_spec nesting cursor
      rw [Onward.ok_of_run hrun] at htoken
      dsimp only at htoken
      rw [htoken]
      unfold pastToken?
      rw [if_pos hless]
      exact ih
  | case3 cursor token between shorter hrun hless hgreater =>
      have htoken := declarationToken_spec 0 cursor
      rw [Onward.ok_of_run hrun] at htoken
      dsimp only at htoken ⊢
      rw [htoken, pastToken?, if_neg hless, if_pos hgreater]
  | case4 cursor token between shorter hrun hless hgreater outer ih =>
      have htoken := declarationToken_spec (outer + 1) cursor
      rw [Onward.ok_of_run hrun] at htoken
      dsimp only at htoken
      rw [htoken, pastToken?, if_neg hless, if_pos hgreater]
      exact ih
  | case5 nesting cursor token between shorter hrun hless hgreater ih =>
      have htoken := declarationToken_spec nesting cursor
      rw [Onward.ok_of_run hrun] at htoken
      dsimp only at htoken
      rw [htoken]
      unfold pastToken?
      rw [if_neg hless, if_neg hgreater]
      exact ih

theorem ok_of_declarationEnd {nesting : Nat} {found : Unit}
    (h : declarationEnd nesting cursor = .ok found stop) :
    pastDeclaration? nesting none cursor.rest = some stop.rest := by
  have hspec := declarationEnd_spec nesting cursor
  rwa [h] at hspec

theorem exists_declarationEnd {nesting : Nat} {rest : List Char}
    (h : pastDeclaration? nesting none cursor.rest = some rest) :
    ∃ stop, declarationEnd nesting cursor = .ok () stop ∧ stop.rest = rest := by
  have hspec := declarationEnd_spec nesting cursor
  cases hend : declarationEnd nesting cursor with
  | ok found stop =>
      rw [hend] at hspec
      exact ⟨stop, rfl, Option.some.inj (hspec.symm.trans h)⟩
  | error error stop =>
      rw [hend] at hspec
      exact absurd (hspec.symm.trans h) (by simp)

end Scan

/-! ## What can stand in a declaration -/

open Scan

/-- Whether characters are made of groups: of characters that mean nothing, of runs between two
quotes, and of groups in angle brackets. -/
inductive Groups : List Char → Prop where
  | nil : Groups []
  | plain {c : Char} {rest : List Char} : isPlain c = true → Groups rest → Groups (c :: rest)
  | quoted {quote : Char} {inside rest : List Char} :
      isQuote quote = true → quote ∉ inside → Groups rest →
      Groups (quote :: (inside ++ quote :: rest))
  | group {inner rest : List Char} :
      Groups inner → Groups rest → Groups ('<' :: (inner ++ '>' :: rest))

theorem Groups.append {first second : List Char} (hfirst : Groups first) (hsecond : Groups second) :
    Groups (first ++ second) := by
  induction hfirst with
  | nil => exact hsecond
  | plain hc _ ih => exact .plain hc ih
  | quoted hquote hinside _ ih =>
      rw [List.cons_append, List.append_assoc]
      exact .quoted hquote hinside ih
  | group hinner _ _ ih =>
      rw [List.cons_append, List.append_assoc]
      exact .group hinner ih

theorem Groups.of_plain {chars : List Char} (h : ∀ c ∈ chars, isPlain c = true) :
    Groups chars := by
  induction chars with
  | nil => exact .nil
  | cons c rest ih => exact .plain (h c List.mem_cons_self) (ih fun d hd => h d (by simp [hd]))

theorem Groups.flatMap {α : Type} {items : List α} {chars : α → List Char}
    (h : ∀ item ∈ items, Groups (chars item)) : Groups (items.flatMap chars) := by
  induction items with
  | nil => exact .nil
  | cons item rest ih =>
      exact (h item List.mem_cons_self).append (ih fun other hother => h other (by simp [hother]))

/-- Groups open and close nothing but themselves. -/
theorem pastDeclaration?_groups {body : List Char} (h : Groups body) (nesting : Nat)
    (rest : List Char) :
    pastDeclaration? nesting none (body ++ rest) = pastDeclaration? nesting none rest := by
  induction h generalizing nesting rest with
  | nil => rfl
  | plain hc _ ih => rw [List.cons_append, pastDeclaration?_plain hc, ih]
  | quoted hquote hinside _ ih =>
      rw [List.cons_append, List.append_assoc, List.cons_append, pastDeclaration?_quote hquote,
        pastDeclaration?_quoted hinside, ih]
  | group _ _ ihinner ih =>
      rw [List.cons_append, List.append_assoc, List.cons_append, pastDeclaration?_less, ihinner]
      simp only [pastDeclaration?, Char.reduceEq, if_false, if_true, ih]

theorem pastDeclaration?_zero (rest : List Char) :
    pastDeclaration? 0 none ('>' :: rest) = some rest := by
  simp [pastDeclaration?]

theorem pastDeclaration?_succ (outer : Nat) (rest : List Char) :
    pastDeclaration? (outer + 1) none ('>' :: rest) = pastDeclaration? outer none rest := by
  simp [pastDeclaration?]

/-- A quoted run ends at the same quote. -/
theorem exists_of_quoted {nesting : Nat} {quote : Char} {chars rest : List Char}
    (h : pastDeclaration? nesting (some quote) chars = some rest) :
    ∃ inside others, chars = inside ++ quote :: others ∧ quote ∉ inside ∧
      pastDeclaration? nesting none others = some rest := by
  cases hindex : Text.indexOf? [quote] chars with
  | none =>
      rw [pastDeclaration?_unclosed (Text.not_mem_of_indexOf? hindex)] at h
      simp at h
  | some index =>
      obtain ⟨inside, others, rfl, -, hinside⟩ := Text.exists_of_indexOf?_singleton hindex
      rw [pastDeclaration?_quoted hinside] at h
      exact ⟨inside, others, rfl, hinside, h⟩

/-- In front of the `>` that ends a declaration or its innermost group stand groups. -/
theorem exists_groups {nesting : Nat} {chars rest : List Char}
    (h : pastDeclaration? nesting none chars = some rest) :
    ∃ body others, chars = body ++ '>' :: others ∧ Groups body ∧
      pastDeclaration? nesting none ('>' :: others) = some rest := by
  -- Behind a group the search goes on at a place that is not the tail, so the induction is on
  -- the number of characters.
  induction hlength : chars.length using Nat.strongRecOn generalizing nesting chars with
  | ind length ih =>
      cases chars with
      | nil => simp [pastDeclaration?] at h
      | cons c tail =>
          rw [List.length_cons] at hlength
          by_cases hgreater : c = '>'
          · subst hgreater
            exact ⟨[], tail, rfl, .nil, h⟩
          · by_cases hless : c = '<'
            · subst hless
              rw [pastDeclaration?_less] at h
              obtain ⟨inner, between, rfl, hinner, hbetween⟩ := ih tail.length (by omega) h rfl
              rw [pastDeclaration?_succ] at hbetween
              rw [List.length_append, List.length_cons] at hlength
              obtain ⟨body, others, rfl, hbody, hothers⟩ :=
                ih between.length (by omega) hbetween rfl
              exact ⟨'<' :: (inner ++ '>' :: body), others, by simp, .group hinner hbody, hothers⟩
            · by_cases hquote : isQuote c = true
              · rw [pastDeclaration?_quote hquote] at h
                obtain ⟨inside, between, rfl, hinside, hbetween⟩ := exists_of_quoted h
                rw [List.length_append, List.length_cons] at hlength
                obtain ⟨body, others, rfl, hbody, hothers⟩ :=
                  ih between.length (by omega) hbetween rfl
                exact ⟨c :: (inside ++ c :: body), others, by simp, .quoted hquote hinside hbody,
                  hothers⟩
              · have hplain : isPlain c = true := by simp [isPlain, hgreater, hless, hquote]
                rw [pastDeclaration?_plain hplain] at h
                obtain ⟨body, others, rfl, hbody, hothers⟩ := ih tail.length (by omega) h rfl
                exact ⟨c :: body, others, rfl, .plain hplain hbody, hothers⟩

/-- A declaration ends at a `>` if and only if groups stand in front of it. -/
theorem pastDeclaration?_eq_iff {body rest : List Char} :
    pastDeclaration? 0 none (body ++ '>' :: rest) = some rest ↔ Groups body := by
  constructor
  · intro h
    obtain ⟨found, others, hsplit, hfound, hothers⟩ := exists_groups h
    rw [pastDeclaration?_zero] at hothers
    obtain rfl := Option.some.inj hothers
    rw [List.append_cancel_right hsplit]
    exact hfound
  · intro h
    rw [pastDeclaration?_groups h, pastDeclaration?_zero]

/-! ## Reading a declaration -/

/-- Whether a character can begin a declaration: with a hyphen a comment may begin, and with a
bracket a section.  Every letter can. -/
def BeginsDeclaration (c : Char) : Prop := c ≠ '-' ∧ c ≠ '['

instance (c : Char) : Decidable (BeginsDeclaration c) := inferInstanceAs (Decidable (_ ∧ _))

namespace Scan

variable {enclosing : Option String} {cursor stop : Cursor} {first : Char} {rest : List Char}

/-- Where neither a comment nor a section begins, a declaration does. -/
theorem markupSort_otherwise (hcomment : ∀ rest, cursor.rest ≠ '-' :: '-' :: rest)
    (hbracketed : ∀ rest, cursor.rest ≠ '[' :: rest) :
    markupSort cursor = .ok .declaration (cursor.skip 1) := by
  unfold markupSort
  split
  · next rest hrest => exact absurd hrest (hcomment rest)
  · next rest hrest => exact absurd hrest (hbracketed rest)
  · rfl

theorem markupSort_declaration (hfirst : BeginsDeclaration first)
    (hrest : cursor.rest = first :: rest) :
    markupSort cursor = .ok .declaration (cursor.skip 1) := by
  refine markupSort_otherwise (fun others h => ?_) fun others h => ?_
  · rw [hrest] at h
    exact hfirst.1 (List.cons.inj h).1
  · rw [hrest] at h
    exact hfirst.2 (List.cons.inj h).1

theorem exclamation_declaration {between : Cursor}
    (hsort : markupSort cursor = .ok .declaration between)
    (hend : declarationEnd 0 between = .ok () stop) :
    exclamation cursor = .ok .declaration stop := by
  refine (bind_apply markupSort _ cursor).trans ?_
  rw [hsort]
  refine (bind_apply (declarationEnd 0) (fun _ => pure Event.declaration) between).trans ?_
  rw [hend]
  rfl

/-- A declaration is read up to the `>` behind its groups. -/
theorem markupReading_declaration {body : List Char} (hfirst : BeginsDeclaration first)
    (hbody : Groups body) (hrest : cursor.rest = '!' :: first :: (body ++ '>' :: rest)) :
    ∃ position stop, markupReading enclosing cursor = .ok ⟨.declaration, position, none⟩ stop ∧
      stop.rest = rest := by
  obtain ⟨position, between, htoken, hbetween⟩ :=
    @nextToken_marker _ '!' _ .bang rfl (by decide) (by decide) (.of_rest hrest)
  have hsort := markupSort_declaration hfirst hbetween
  have hinside : (between.skip 1).rest = body ++ '>' :: rest := by
    rw [Cursor.skip, hbetween]
    rfl
  have hpast : pastDeclaration? 0 none (between.skip 1).rest = some rest := by
    rw [hinside]
    exact pastDeclaration?_eq_iff.2 hbody
  obtain ⟨stop, hend, hstop⟩ := exists_declarationEnd hpast
  refine ⟨position, stop, markupReading_of_token htoken ?_, hstop⟩
  rw [markupEvent_bang rfl, exclamation_declaration hsort hend]

/-- A declaration that is read ends behind its groups. -/
theorem pastDeclaration?_of_markupReading {reading : Reading} (hfirst : BeginsDeclaration first)
    (hrest : cursor.rest = '!' :: first :: rest)
    (hread : markupReading enclosing cursor = .ok reading stop) :
    pastDeclaration? 0 none rest = some stop.rest := by
  obtain ⟨token, between, event, htoken, hevent, -⟩ := ok_of_markupReading hread
  obtain ⟨position, behind, hbang, hbehind⟩ :=
    @nextToken_marker _ '!' _ .bang rfl (by decide) (by decide) (.of_rest hrest)
  obtain ⟨rfl, rfl⟩ := EStateM.Result.ok.inj (hbang.symm.trans htoken)
  rw [markupEvent_bang rfl] at hevent
  obtain ⟨sort, started, hsort, hevent⟩ := ok_of_bind hevent
  obtain ⟨rfl, rfl⟩ :=
    EStateM.Result.ok.inj ((markupSort_declaration hfirst hbehind).symm.trans hsort)
  obtain ⟨found, last, hend, hpure⟩ := ok_of_bind hevent
  obtain ⟨-, rfl⟩ := ok_of_pure hpure
  have hpast := ok_of_declarationEnd hend
  rw [Cursor.skip, hbehind] at hpast
  exact hpast

end Scan

end XmlToJson

import XmlToJson.Proofs.Concatenation

/-!
# The end of a declaration

A declaration should end at the first `>` with which one more `>` than `<` has come, where the
tokens are counted from its first character on.  `Scan.EndsAt` says this without a scan: there are
tokens that lead from a cursor to a place (`Fragments`), and they close something with the last of
them and not before (`Closes`).  But the count begins one character too late, since the character
that tells a declaration from a comment and a section is gone by then.

## Strategy

* `declarationEnd_eq_ok_iff` and `endsAt_iff` turn reading token by token into the relation, so that
  only counts are left.  The two ways of looking at the end are tied together by `rest_of_endsAt`:
  what is left behind the end token by token is what `pastDeclaration?` leaves character by
  character.  In particular there is only one end (`EndsAt.unique`).
* `ReadsFrom` says that the next declaration is the one that begins at some place, whatever is
  really read.  `declaration_otherwise` says that the program reads it from the second character, so
  the question is when the first one makes no difference (`ReadsFrom.iff`).
* A first character without a meaning makes none (`endsAt_skip_iff`).  One with a meaning does:
  - a `<` or a `>` shifts the count by one from then on;
  - behind a quote the two counts disagree for good about what is quoted (`quoteBehind_ne`), so no
    `>` can end both (`pastDeclaration?_ne`).

So a declaration ends where its tokens say if its first character means nothing in it, and at
another place if it is a `<`, a `>` or a quote, unless there is no end at either place
(`declaration_balanced_iff`).  The empty declaration is the shortest one for which that is wrong
(`empty_declaration_not_ended`).
-/

namespace XmlToJson

/-! ## Places by counting -/

namespace Cursor

variable {cursor stop : Cursor} {count : Nat}

/-- Whether a cursor stands at the other one or behind it, in the same text. -/
def Reaches (cursor stop : Cursor) : Prop :=
  ∃ count, stop.skip 0 = cursor.skip count

theorem reaches_self (cursor : Cursor) : cursor.Reaches cursor :=
  ⟨0, rfl⟩

theorem reaches_skip (cursor : Cursor) (count : Nat) : cursor.Reaches (cursor.skip count) :=
  ⟨count, skip_skip cursor count 0⟩

theorem reaches_skipAndStep (cursor : Cursor) (count : Nat) :
    cursor.Reaches (cursor.skipAndStep count) :=
  ⟨_, skipAndStep_skip cursor count 0⟩

theorem Reaches.exists_skip (h : cursor.Reaches stop) (count : Nat) :
    ∃ more, stop.skip count = cursor.skip more := by
  obtain ⟨more, hmore⟩ := h
  refine ⟨more + count, ?_⟩
  rw [← skip_skip, ← hmore, skip_skip, Nat.zero_add]

/-- Whether a cursor stands right behind a character that follows the other one. -/
def StepsTo (cursor stop : Cursor) : Prop :=
  ∃ count < cursor.remaining, stop = cursor.skipAndStep count

theorem Reaches.stepsTo {between : Cursor} (h : cursor.Reaches between)
    (hstop : between.StepsTo stop) : cursor.StepsTo stop := by
  obtain ⟨count, hcount, rfl⟩ := hstop
  obtain ⟨more, hmore⟩ := h.exists_skip count
  have hremaining := congrArg Cursor.remaining hmore
  rw [remaining_skip, remaining_skip] at hremaining
  exact ⟨more, by omega, by rw [skipAndStep, hmore, skipAndStep]⟩

/-- Two steps that leave the same text come to the same place. -/
theorem StepsTo.eq_of_rest {other : Cursor} (hstop : cursor.StepsTo stop)
    (hother : cursor.StepsTo other) (hrest : stop.rest = other.rest) : stop = other := by
  obtain ⟨first, hfirst, rfl⟩ := hstop
  obtain ⟨second, hsecond, rfl⟩ := hother
  have hremaining : (cursor.skipAndStep first).remaining = (cursor.skipAndStep second).remaining :=
    congrArg List.length hrest
  rw [remaining_skipAndStep, remaining_skipAndStep] at hremaining
  rw [show first = second by omega]

end Cursor

/-! ## Counting tokens -/

/-- Whether tokens have `count` more `>` than `<`, and those in front of the last of them have
not. -/
structure Closes (count : Nat) (tokens : List Token) : Prop where
  closed : tokens.countP (Token.isThe .greater) = tokens.countP (Token.isThe .less) + count
  first : ∀ front behind, tokens = front ++ behind → behind ≠ [] →
    front.countP (Token.isThe .greater) < front.countP (Token.isThe .less) + count

namespace Closes

variable {outer : Nat} {token : Token} {tokens : List Token}

theorem not_nil : ¬ Closes (outer + 1) [] :=
  fun h => absurd h.closed (by simp)

/-- The first of several tokens is counted with the others. -/
theorem cons_iff : Closes (outer + 1) (token :: tokens) ↔
    (token :: tokens).countP (Token.isThe .greater) =
        (token :: tokens).countP (Token.isThe .less) + (outer + 1) ∧
      ∀ front behind, tokens = front ++ behind → behind ≠ [] →
        (token :: front).countP (Token.isThe .greater) <
          (token :: front).countP (Token.isThe .less) + (outer + 1) := by
  constructor
  · intro h
    refine ⟨h.closed, fun front behind hsplit hbehind => h.first (token :: front) behind ?_ hbehind⟩
    rw [hsplit, List.cons_append]
  · rintro ⟨hclosed, hfirst⟩
    refine ⟨hclosed, fun front behind hsplit hbehind => ?_⟩
    cases front with
    | nil => simp
    | cons first front =>
        rw [List.cons_append] at hsplit
        obtain ⟨hsame, htokens⟩ := List.cons.inj hsplit
        rw [← hsame]
        exact hfirst front behind htokens hbehind

theorem less_iff (hless : token.isThe .less = true) :
    Closes (outer + 1) (token :: tokens) ↔ Closes (outer + 2) tokens := by
  have hgreater : token.isThe .greater = false := by
    rw [Token.isThe, beq_iff_eq] at hless
    simp [Token.isThe, hless]
  rw [cons_iff]
  simp only [List.countP_cons, hless, hgreater, if_true, Bool.false_eq_true, if_false]
  constructor
  · rintro ⟨hclosed, hfirst⟩
    refine ⟨by omega, fun front behind hsplit hbehind => ?_⟩
    have hfront := hfirst front behind hsplit hbehind
    omega
  · rintro ⟨hclosed, hfirst⟩
    refine ⟨by omega, fun front behind hsplit hbehind => ?_⟩
    have hfront := hfirst front behind hsplit hbehind
    omega

theorem greater_iff (hgreater : token.isThe .greater = true) :
    Closes (outer + 1) (token :: tokens) ↔
      (outer = 0 ∧ tokens = []) ∨ ∃ inner, outer = inner + 1 ∧ Closes outer tokens := by
  have hless : token.isThe .less = false := by
    rw [Token.isThe, beq_iff_eq] at hgreater
    simp [Token.isThe, hgreater]
  rw [cons_iff]
  simp only [List.countP_cons, hless, hgreater, if_true, Bool.false_eq_true, if_false]
  constructor
  · rintro ⟨hclosed, hfirst⟩
    cases outer with
    | zero =>
        refine .inl ⟨rfl, ?_⟩
        by_contra hne
        have hfront := hfirst [] tokens rfl hne
        simp at hfront
    | succ inner =>
        refine .inr ⟨inner, rfl, by omega, fun front behind hsplit hbehind => ?_⟩
        have hfront := hfirst front behind hsplit hbehind
        omega
  · rintro (⟨rfl, rfl⟩ | ⟨inner, rfl, hclosed, hfirst⟩)
    · refine ⟨rfl, fun front behind hsplit hbehind => ?_⟩
      exact absurd (List.append_eq_nil_iff.1 hsplit.symm).2 hbehind
    · refine ⟨by omega, fun front behind hsplit hbehind => ?_⟩
      have hfront := hfirst front behind hsplit hbehind
      omega

theorem other_iff (hless : token.isThe .less = false) (hgreater : token.isThe .greater = false) :
    Closes (outer + 1) (token :: tokens) ↔ Closes (outer + 1) tokens := by
  rw [cons_iff]
  simp only [List.countP_cons, hless, hgreater, Bool.false_eq_true, if_false, Nat.add_zero]
  exact ⟨fun ⟨hclosed, hfirst⟩ => ⟨hclosed, hfirst⟩, fun h => ⟨h.closed, h.first⟩⟩

end Closes

namespace Scan

variable {cursor stop : Cursor} {nesting : Nat}

/-- Whether the tokens of a declaration from one cursor up to another are the given ones. -/
inductive Fragments : Cursor → List Token → Cursor → Prop where
  | nil {cursor : Cursor} : Fragments cursor [] cursor
  | cons {cursor between stop : Cursor} {token : Token} {tokens : List Token} :
      nextFragment cursor = .ok (some token) between → Fragments between tokens stop →
      Fragments cursor (token :: tokens) stop

/-- Whether `stop` is the place behind the first `>` with which one more `>` than `<` has come
since `cursor`. -/
def EndsAt (cursor stop : Cursor) : Prop :=
  ∃ tokens, Fragments cursor tokens stop ∧ Closes 1 tokens

theorem nextFragment_of_declarationToken {token : Token} {between : Cursor}
    (h : declarationToken cursor = .ok token between) :
    nextFragment cursor = .ok (some token) between := by
  unfold declarationToken at h
  split at h
  · next hfragment =>
      obtain ⟨rfl, rfl⟩ := EStateM.Result.ok.inj h
      exact hfragment
  · simp [fail] at h
  · contradiction

theorem declarationToken_of_nextFragment {token : Token} {between : Cursor}
    (h : nextFragment cursor = .ok (some token) between) :
    declarationToken cursor = .ok token between := by
  simp only [declarationToken, h]

/-- The tokens that close something begin with the next one. -/
theorem exists_closing_iff {token : Token} {between : Cursor}
    (h : nextFragment cursor = .ok (some token) between) :
    (∃ tokens, Fragments cursor tokens stop ∧ Closes (nesting + 1) tokens) ↔
      ∃ tokens, Fragments between tokens stop ∧ Closes (nesting + 1) (token :: tokens) := by
  constructor
  · rintro ⟨tokens, hfragments, hcloses⟩
    cases hfragments with
    | nil => exact absurd hcloses Closes.not_nil
    | @cons _ other _ first tokens hfirst hrest =>
        obtain ⟨hsame, rfl⟩ := EStateM.Result.ok.inj (hfirst.symm.trans h)
        obtain rfl := Option.some.inj hsame
        exact ⟨tokens, hrest, hcloses⟩
  · rintro ⟨tokens, hfragments, hcloses⟩
    exact ⟨token :: tokens, .cons h hfragments, hcloses⟩

/-- Token by token a declaration is read up to where its groups are closed. -/
theorem declarationEnd_eq_ok_iff : declarationEnd nesting cursor = .ok () stop ↔
    ∃ tokens, Fragments cursor tokens stop ∧ Closes (nesting + 1) tokens := by
  fun_induction declarationEnd nesting cursor with
  | case1 nesting cursor error behind hrun =>
      refine iff_of_false (by simp) ?_
      rintro ⟨tokens, hfragments, hcloses⟩
      cases hfragments with
      | nil => exact Closes.not_nil hcloses
      | cons hfirst _ =>
          have htoken := declarationToken_of_nextFragment hfirst
          rw [Onward.error_of_run hrun] at htoken
          contradiction
  | case2 nesting cursor token between shorter hrun hless ih =>
      have hfirst := nextFragment_of_declarationToken (Onward.ok_of_run hrun)
      simp only [exists_closing_iff hfirst, Closes.less_iff hless]
      exact ih
  | case3 cursor token between shorter hrun hless hgreater =>
      have hfirst := nextFragment_of_declarationToken (Onward.ok_of_run hrun)
      simp only [exists_closing_iff hfirst, Closes.greater_iff hgreater]
      constructor
      · intro h
        obtain ⟨-, rfl⟩ := EStateM.Result.ok.inj h
        exact ⟨[], .nil, .inl ⟨trivial, rfl⟩⟩
      · rintro ⟨tokens, hfragments, ⟨-, rfl⟩ | ⟨inner, hinner, -⟩⟩
        · cases hfragments
          rfl
        · exact absurd hinner.symm (Nat.succ_ne_zero inner)
  | case4 cursor token between shorter hrun hless hgreater outer ih =>
      have hfirst := nextFragment_of_declarationToken (Onward.ok_of_run hrun)
      simp only [exists_closing_iff hfirst, Closes.greater_iff hgreater]
      simp only [Nat.add_one_ne_zero, false_and, false_or, Nat.add_right_cancel_iff,
        exists_eq_left']
      exact ih
  | case5 nesting cursor token between shorter hrun hless hgreater ih =>
      have hfirst := nextFragment_of_declarationToken (Onward.ok_of_run hrun)
      simp only [exists_closing_iff hfirst,
        Closes.other_iff (Bool.eq_false_iff.2 hless) (Bool.eq_false_iff.2 hgreater)]
      exact ih

theorem endsAt_iff : EndsAt cursor stop ↔ declarationEnd 0 cursor = .ok () stop :=
  declarationEnd_eq_ok_iff.symm

/-- A declaration that is not closed is refused where its tokens come to an end. -/
theorem error_of_declarationEnd {error : MarkupError}
    (h : declarationEnd nesting cursor = .error error stop) :
    error = ⟨.unclosedDeclaration, some stop.position⟩ := by
  fun_induction declarationEnd nesting cursor with
  | case1 nesting cursor problem behind hrun =>
      obtain ⟨rfl, rfl⟩ := EStateM.Result.error.inj h
      have htoken := Onward.error_of_run hrun
      rcases nextFragment_spec nesting cursor with
        ⟨last, hfragment, -⟩ | ⟨token, last, hfragment, -⟩
      · simp only [declarationToken, hfragment] at htoken
        obtain ⟨rfl, rfl⟩ := EStateM.Result.error.inj htoken
        rfl
      · simp [declarationToken, hfragment] at htoken
  | case2 _ _ _ _ _ _ _ ih => exact ih h
  | case3 => contradiction
  | case4 _ _ _ _ _ _ _ _ ih => exact ih h
  | case5 _ _ _ _ _ _ _ _ ih => exact ih h

/-- What is left behind the place where a declaration ends is what is left of it character by
character, and there is only one such place. -/
theorem rest_of_endsAt (h : EndsAt cursor stop) :
    pastDeclaration? 0 none cursor.rest = some stop.rest :=
  ok_of_declarationEnd (endsAt_iff.1 h)

theorem exists_endsAt {rest : List Char} (h : pastDeclaration? 0 none cursor.rest = some rest) :
    ∃ stop, EndsAt cursor stop ∧ stop.rest = rest := by
  obtain ⟨stop, hend, hrest⟩ := exists_declarationEnd h
  exact ⟨stop, endsAt_iff.2 hend, hrest⟩

/-! ## The place of the end -/

/-- Behind a marker there is one step. -/
theorem stepsTo_of_marker {token : Token} {marker : Marker}
    (h : nextFragment cursor = .ok (some token) stop) (hmarker : token.kind = .marker marker) :
    cursor.StepsTo stop := by
  simp only [nextFragment] at h
  split at h
  · simp at h
  · next c rest hrest =>
      split at h
      · obtain ⟨-, rfl⟩ := EStateM.Result.ok.inj h
        refine ⟨(cursor.rest.takeWhile Text.isBlank).length, ?_, rfl⟩
        have hlength := congrArg List.length hrest
        rw [skipBlanks, Cursor.skip, List.length_drop, List.length_cons] at hlength
        rw [Cursor.remaining]
        omega
      · split at h
        · split at h
          · simp at h
          · obtain ⟨hsame, -⟩ := EStateM.Result.ok.inj h
            obtain rfl := Option.some.inj hsame
            contradiction
        · split at h
          · obtain ⟨hsame, -⟩ := EStateM.Result.ok.inj h
            obtain rfl := Option.some.inj hsame
            contradiction
          · obtain ⟨hsame, -⟩ := EStateM.Result.ok.inj h
            obtain rfl := Option.some.inj hsame
            contradiction

theorem reaches_of_nextFragment {token? : Option Token}
    (h : nextFragment cursor = .ok token? stop) : cursor.Reaches stop := by
  have hskip : ∀ count, cursor.Reaches ((skipBlanks cursor).skip count) := fun count => by
    rw [skipBlanks, Cursor.skip_skip]
    exact cursor.reaches_skip _
  have hstep : ∀ count, cursor.Reaches ((skipBlanks cursor).skipAndStep count) := fun count => by
    rw [Cursor.skipAndStep, skipBlanks, Cursor.skip_skip]
    exact cursor.reaches_skipAndStep _
  simp only [nextFragment] at h
  split at h
  · obtain ⟨-, rfl⟩ := EStateM.Result.ok.inj h
    exact cursor.reaches_skip _
  · split at h
    · obtain ⟨-, rfl⟩ := EStateM.Result.ok.inj h
      have hnext := hstep 0
      rwa [Cursor.skipAndStep, skipBlanks, Cursor.skip_skip] at hnext
    · split at h
      · split at h
        · obtain ⟨-, rfl⟩ := EStateM.Result.ok.inj h
          exact hskip _
        · obtain ⟨-, rfl⟩ := EStateM.Result.ok.inj h
          exact hskip _
      · split at h
        · obtain ⟨-, rfl⟩ := EStateM.Result.ok.inj h
          exact hskip _
        · obtain ⟨-, rfl⟩ := EStateM.Result.ok.inj h
          split
          · exact hstep _
          · exact hskip _

/-- A declaration ends behind a `>`. -/
theorem stepsTo_of_declarationEnd (h : declarationEnd nesting cursor = .ok () stop) :
    cursor.StepsTo stop := by
  fun_induction declarationEnd nesting cursor with
  | case1 => contradiction
  | case2 _ _ _ _ _ hrun _ ih | case4 _ _ _ _ hrun _ _ _ ih | case5 _ _ _ _ _ hrun _ _ ih =>
      have hfirst := nextFragment_of_declarationToken (Onward.ok_of_run hrun)
      exact (reaches_of_nextFragment hfirst).stepsTo (ih h)
  | case3 cursor token between shorter hrun hless hgreater =>
      obtain ⟨-, rfl⟩ := EStateM.Result.ok.inj h
      have hfirst := nextFragment_of_declarationToken (Onward.ok_of_run hrun)
      exact stepsTo_of_marker hfirst (by simpa [Token.isThe] using hgreater)

theorem EndsAt.stepsTo (h : EndsAt cursor stop) : cursor.StepsTo stop :=
  stepsTo_of_declarationEnd (endsAt_iff.1 h)

/-- A declaration has only one end. -/
theorem EndsAt.unique {other : Cursor} (h : EndsAt cursor stop) (hother : EndsAt cursor other) :
    stop = other :=
  h.stepsTo.eq_of_rest hother.stepsTo
    (Option.some.inj ((rest_of_endsAt h).symm.trans (rest_of_endsAt hother)))

/-! ## A declaration without its first character -/

/-- The quote that has still to come, behind one more character. -/
def quoteBehind (open? : Option Char) (c : Char) : Option Char :=
  match open? with
  | some quote => if c = quote then none else some quote
  | none => if isQuote c then some c else none

/-- A declaration ends at its next character or behind it. -/
theorem pastDeclaration?_cons {nesting : Nat} {open? : Option Char} {c : Char}
    {chars rest : List Char} (h : pastDeclaration? nesting open? (c :: chars) = some rest) :
    (open? = none ∧ rest = chars) ∨
      ∃ inner, pastDeclaration? inner (quoteBehind open? c) chars = some rest := by
  cases open? with
  | some quote => exact .inr ⟨nesting, h⟩
  | none =>
      by_cases hless : c = '<'
      · subst hless
        exact .inr ⟨nesting + 1, by rwa [pastDeclaration?_less] at h⟩
      · by_cases hgreater : c = '>'
        · subst hgreater
          cases nesting with
          | zero =>
              rw [pastDeclaration?_zero] at h
              exact .inl ⟨rfl, (Option.some.inj h).symm⟩
          | succ outer => exact .inr ⟨outer, by rwa [pastDeclaration?_succ] at h⟩
        · simp only [pastDeclaration?, hless, hgreater, if_false] at h
          exact .inr ⟨nesting, h⟩

/-- Every character keeps apart what is quoted in two ways. -/
theorem quoteBehind_ne {open? other? : Option Char} (hopen : ∀ quote ∈ open?, isQuote quote = true)
    (hother : ∀ quote ∈ other?, isQuote quote = true) (hne : open? ≠ other?) (c : Char) :
    quoteBehind open? c ≠ quoteBehind other? c := by
  cases open? <;> cases other? <;> simp only [quoteBehind] <;> grind

theorem isQuote_quoteBehind {open? : Option Char} (hopen : ∀ quote ∈ open?, isQuote quote = true)
    (c : Char) : ∀ quote ∈ quoteBehind open? c, isQuote quote = true := by
  cases open? <;> simp only [quoteBehind] <;> grind

/-- No declaration leaves everything. -/
theorem pastDeclaration?_ne_self {nesting : Nat} {open? : Option Char} {chars : List Char} :
    pastDeclaration? nesting open? chars ≠ some chars := by
  intro h
  obtain ⟨body, hsplit, hbody, -⟩ := exists_of_pastDeclaration? h
  exact hbody (List.self_eq_append_left.1 hsplit)

/-- Two readings that do not agree about what is quoted never end at the same place. -/
theorem pastDeclaration?_ne {nesting other : Nat} {open? other? : Option Char}
    {chars rest : List Char} (hopen : ∀ quote ∈ open?, isQuote quote = true)
    (hother : ∀ quote ∈ other?, isQuote quote = true) (hne : open? ≠ other?)
    (h : pastDeclaration? nesting open? chars = some rest) :
    pastDeclaration? other other? chars ≠ some rest := by
  intro hagain
  induction chars generalizing nesting other open? other? with
  | nil => simp [pastDeclaration?] at h
  | cons c chars ih =>
      rcases pastDeclaration?_cons h, pastDeclaration?_cons hagain with
        ⟨⟨rfl, rfl⟩ | ⟨inner, hinner⟩, ⟨rfl, hrest⟩ | ⟨further, hfurther⟩⟩
      · exact hne rfl
      · exact pastDeclaration?_ne_self hfurther
      · subst hrest
        exact pastDeclaration?_ne_self hinner
      · exact ih (isQuote_quoteBehind hopen c) (isQuote_quoteBehind hother c)
          (quoteBehind_ne hopen hother hne c) hinner hfurther

/-- If the first character of a declaration means something in it, the declaration does not end
where it would without that. -/
theorem pastDeclaration?_tail_ne {c : Char} {chars rest : List Char} (hc : isPlain c = false)
    (h : pastDeclaration? 0 none (c :: chars) = some rest) :
    pastDeclaration? 0 none chars ≠ some rest := by
  by_cases hless : c = '<'
  · subst hless
    rw [pastDeclaration?_less] at h
    intro htail
    -- Both readings come to the same `>`, which ends only the one without the group.
    obtain ⟨body, others, rfl, hbody, hothers⟩ := exists_groups htail
    rw [pastDeclaration?_zero] at hothers
    obtain rfl := Option.some.inj hothers
    rw [pastDeclaration?_groups hbody, pastDeclaration?_succ] at h
    exact pastDeclaration?_ne_self h
  · by_cases hgreater : c = '>'
    · subst hgreater
      rw [pastDeclaration?_zero] at h
      obtain rfl := Option.some.inj h
      exact pastDeclaration?_ne_self
    · have hquote : isQuote c = true := by simpa [isPlain, hless, hgreater] using hc
      rw [pastDeclaration?_quote hquote] at h
      exact pastDeclaration?_ne (by simpa using hquote) (by simp) (by simp) h

section Behind

variable {c : Char} {tail : List Char}

theorem not_endsAt_of_nil (hrest : cursor.rest = []) : ¬ EndsAt cursor stop := by
  intro h
  have hpast := rest_of_endsAt h
  rw [hrest] at hpast
  simp [pastDeclaration?] at hpast

/-- Of the places behind `cursor` only what is left there matters. -/
theorem endsAt_iff_of_stepsTo {between : Cursor} (hbetween : cursor.Reaches between)
    (hstop : cursor.StepsTo stop) :
    EndsAt between stop ↔ pastDeclaration? 0 none between.rest = some stop.rest := by
  refine ⟨rest_of_endsAt, fun h => ?_⟩
  obtain ⟨found, hfound, hrest⟩ := exists_endsAt h
  rwa [← (hbetween.stepsTo hfound.stepsTo).eq_of_rest hstop hrest]

theorem endsAt_skip_iff (hrest : cursor.rest = c :: tail) (hc : isPlain c = true)
    (stop : Cursor) : EndsAt cursor stop ↔ EndsAt (cursor.skip 1) stop := by
  have hbehind := cursor.reaches_skip 1
  have htail : (cursor.skip 1).rest = tail := @rest_skip cursor [c] tail hrest
  have hsame : cursor.StepsTo stop → (EndsAt cursor stop ↔ EndsAt (cursor.skip 1) stop) := by
    intro hstop
    rw [endsAt_iff_of_stepsTo hbehind hstop, endsAt_iff_of_stepsTo cursor.reaches_self hstop,
      htail, hrest, pastDeclaration?_plain hc]
  exact ⟨fun h => (hsame h.stepsTo).1 h, fun h => (hsame (hbehind.stepsTo h.stepsTo)).2 h⟩

theorem not_endsAt_skip (hrest : cursor.rest = c :: tail) (hc : isPlain c = false)
    (h : EndsAt cursor stop) : ¬ EndsAt (cursor.skip 1) stop := by
  intro hbehind
  have hpast := rest_of_endsAt h
  have hpastTail := rest_of_endsAt hbehind
  have htail : (cursor.skip 1).rest = tail := @rest_skip cursor [c] tail hrest
  rw [hrest] at hpast
  rw [htail] at hpastTail
  exact pastDeclaration?_tail_ne hc hpast hpastTail

end Behind

end Scan

/-! ## Reading a declaration -/

namespace Converter

open Scan

variable {converter : Converter} {state : ConversionState} {body other : Cursor}

/-- Whether the declaration that comes next is the one that begins at `body`: it is skipped up to
where its tokens end it, one more declaration is counted and nothing else changes; and if there is
no end, it is refused as unclosed. -/
structure ReadsFrom (converter : Converter) (state : ConversionState) (body : Cursor) : Prop where
  ended : ∀ stop, EndsAt body stop → declaration converter state = .ok .skipped
    { cursor := stop
      metrics := state.metrics.countDeclaration
      log := state.log ++ [converter.logger.record .debug "Skipped markup declaration" []] }
  unended : (∀ stop, ¬ EndsAt body stop) → ∃ stop, declaration converter state =
    .error (.refused (.malformed ⟨.unclosedDeclaration, some stop.position⟩))
      { state with cursor := stop }

/-- Only where its tokens end a declaration matters. -/
theorem ReadsFrom.congr (h : ReadsFrom converter state body)
    (hends : ∀ stop, EndsAt other stop ↔ EndsAt body stop) : ReadsFrom converter state other where
  ended stop hstop := h.ended stop ((hends stop).1 hstop)
  unended hnone := h.unended fun stop hstop => hnone stop ((hends stop).2 hstop)

/-- Behind its first character a declaration is read up to its end. -/
theorem declaration_otherwise (hcomment : ∀ rest, state.cursor.rest ≠ '-' :: '-' :: rest)
    (hsection : ∀ rest, state.cursor.rest ≠ '[' :: rest) :
    declaration converter state = match declarationEnd 0 (state.cursor.skip 1) with
      | .ok _ stop => .ok .skipped
          { cursor := stop
            metrics := state.metrics.countDeclaration
            log := state.log ++ [converter.logger.record .debug "Skipped markup declaration" []] }
      | .error error stop =>
          .error (.refused (.malformed error)) { state with cursor := stop } := by
  unfold declaration
  simp only [bind_apply, Step.scan, markupSort_otherwise hcomment hsection]
  cases declarationEnd 0 (state.cursor.skip 1) <;> rfl

theorem readsFrom_tail (hcomment : ∀ rest, state.cursor.rest ≠ '-' :: '-' :: rest)
    (hsection : ∀ rest, state.cursor.rest ≠ '[' :: rest) :
    ReadsFrom converter state (state.cursor.skip 1) := by
  constructor
  · intro stop hstop
    rw [declaration_otherwise hcomment hsection, endsAt_iff.1 hstop]
  · intro hnone
    rw [declaration_otherwise hcomment hsection]
    cases hend : declarationEnd 0 (state.cursor.skip 1) with
    | ok found stop => exact absurd (endsAt_iff.2 hend) (hnone stop)
    | error error stop =>
        obtain rfl := error_of_declarationEnd hend
        exact ⟨stop, rfl⟩

/-- A declaration that is read from two places ends from both at the same place. -/
theorem ReadsFrom.endsAt (h : ReadsFrom converter state body)
    (hother : ReadsFrom converter state other) {stop : Cursor} (hstop : EndsAt other stop) :
    EndsAt body stop := by
  by_cases hends : ∃ found, EndsAt body found
  · obtain ⟨found, hfound⟩ := hends
    have hsame := (hother.ended stop hstop).symm.trans (h.ended found hfound)
    simp only [EStateM.Result.ok.injEq, true_and, ConversionState.mk.injEq, and_true] at hsame
    rwa [hsame]
  · obtain ⟨last, hlast⟩ := h.unended (not_exists.1 hends)
    exact absurd ((hother.ended stop hstop).symm.trans hlast) (by simp)

/-- A declaration is read from one place as from another if and only if it ends there at the same
place, if at all. -/
theorem ReadsFrom.iff (h : ReadsFrom converter state body) :
    ReadsFrom converter state other ↔ ∀ stop, EndsAt other stop ↔ EndsAt body stop :=
  ⟨fun hother _ => ⟨h.endsAt hother, hother.endsAt h⟩, h.congr⟩

/-- Behind `<!` a declaration is read up to the first `>` with which one more `>` than `<` has
come, without its first character.  It is read from that character on if and only if that is none
of `<`, `>` and the quotes, or the declaration is closed neither with it nor without it. -/
theorem declaration_balanced_iff (converter : Converter) (state : ConversionState)
    (hcomment : ∀ rest, state.cursor.rest ≠ '-' :: '-' :: rest)
    (hsection : ∀ rest, state.cursor.rest ≠ '[' :: rest) :
    ReadsFrom converter state (state.cursor.skip 1) ∧
      (ReadsFrom converter state state.cursor ↔
        (∀ first ∈ state.cursor.rest.head?, isPlain first = true) ∨
          ∀ stop, ¬ EndsAt state.cursor stop ∧ ¬ EndsAt (state.cursor.skip 1) stop) := by
  have htail : ReadsFrom converter state (state.cursor.skip 1) := readsFrom_tail hcomment hsection
  refine ⟨htail, htail.iff.trans ?_⟩
  cases hrest : state.cursor.rest with
  | nil =>
      have htail : (state.cursor.skip 1).rest = [] := by simp [Cursor.skip, hrest]
      refine iff_of_true (fun stop => ?_) (.inl (by simp))
      exact iff_of_false (not_endsAt_of_nil hrest) (not_endsAt_of_nil htail)
  | cons c tail =>
      cases hplain : isPlain c with
      | true => exact iff_of_true (endsAt_skip_iff hrest hplain) (.inl (by simpa using hplain))
      | false =>
          have hapart : ∀ stop, EndsAt state.cursor stop → ¬ EndsAt (state.cursor.skip 1) stop :=
            fun stop => not_endsAt_skip hrest hplain
          constructor
          · exact fun hsame => .inr fun stop =>
              ⟨fun hstop => hapart stop hstop ((hsame stop).1 hstop),
                fun hstop => hapart stop ((hsame stop).2 hstop) hstop⟩
          · rintro (hfirst | hnone) stop
            · simp [hplain] at hfirst
            · exact iff_of_false (hnone stop).1 (hnone stop).2

/-- The place behind the `<!` with which a text begins, where nothing has been counted. -/
def behindBang (text : String) : ConversionState where
  cursor := (Cursor.ofText text).skip 2
  metrics := {}
  log := []

/-- A quoted `>` and a nested declaration are skipped with the declaration that they stand in. -/
theorem declaration_balanced_entity : ∃ stop,
    EndsAt (behindBang "<!DOCTYPE a [<!ENTITY b '>'>]><a/>").cursor stop ∧
      stop.rest = "<a/>".toList ∧
      declaration {} (behindBang "<!DOCTYPE a [<!ENTITY b '>'>]><a/>") = .ok .skipped
        { cursor := stop
          metrics := { declarations := 1 }
          log := [({} : Converter).logger.record .debug "Skipped markup declaration" []] } := by
  have hfirst : (behindBang "<!DOCTYPE a [<!ENTITY b '>'>]><a/>").cursor.rest.head? = some 'D' := by
    decide +kernel
  obtain ⟨stop, hstop, hrest⟩ := @exists_endsAt
    (behindBang "<!DOCTYPE a [<!ENTITY b '>'>]><a/>").cursor "<a/>".toList (by decide +kernel)
  obtain ⟨-, hread⟩ := declaration_balanced_iff {} (behindBang "<!DOCTYPE a [<!ENTITY b '>'>]><a/>")
    (fun rest h => by simp [h] at hfirst) (fun rest h => by simp [h] at hfirst)
  have hplain : ∀ first ∈ (behindBang "<!DOCTYPE a [<!ENTITY b '>'>]><a/>").cursor.rest.head?,
      isPlain first = true := by
    intro first hmem
    obtain rfl := Option.some.inj (hfirst.symm.trans hmem)
    decide
  exact ⟨stop, hstop, hrest, (hread.2 (.inl hplain)).ended stop hstop⟩

/-- The empty declaration has an end, but is not read up to it. -/
theorem empty_declaration_not_ended :
    (∃ stop, EndsAt (behindBang "<!><a/>").cursor stop ∧ stop.rest = "<a/>".toList) ∧
      ¬ ReadsFrom {} (behindBang "<!><a/>") (behindBang "<!><a/>").cursor ∧
      (({} : Converter).convert "<!><a/>").outcome.toOption.isSome = false := by
  have hfirst : (behindBang "<!><a/>").cursor.rest.head? = some '>' := by decide +kernel
  have hunclosed : pastDeclaration? 0 none ((behindBang "<!><a/>").cursor.skip 1).rest = none := by
    decide +kernel
  obtain ⟨stop, hstop, hrest⟩ :=
    @exists_endsAt (behindBang "<!><a/>").cursor "<a/>".toList (by decide +kernel)
  have htail : ReadsFrom {} (behindBang "<!><a/>") ((behindBang "<!><a/>").cursor.skip 1) :=
    readsFrom_tail (fun rest h => by simp [h] at hfirst) (fun rest h => by simp [h] at hfirst)
  refine ⟨⟨stop, hstop, hrest⟩, fun hread => ?_, by decide +kernel⟩
  have hpast := rest_of_endsAt ((htail.iff.1 hread stop).1 hstop)
  rw [hunclosed] at hpast
  simp at hpast

end Converter

end XmlToJson

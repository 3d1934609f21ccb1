import XmlToJson.Proofs.Concatenation

/-!
# A fault depends on what was read

A scan that fails stops behind the characters that it has looked at, or in front of the last of them
if that belongs to what follows.  So it fails in the same way wherever these characters stand, as
long as the one at which it stopped is the same.  For whole documents: a fault is decided by the
text up to the place that is reported and by one character behind it (`convert_of_same_start`).

## Strategy

`Scan.EchoesFaults` says of two scans that the second fails as the first does, in front of the same
characters up to where that stopped and the same character there.  It is kept by sequences of scans
(`EchoesFaults.bind`), where the first scan may succeed and the second fail; then the first has read
the same because what is read does not depend on what follows (`Locality.lean`).  So each scan and
each piece of markup has one lemma, and a document is an induction on its events
(`Advances.echoesFault`, `trace_of_same_start`).

Two sorts of faults are different, and the statement is not about them.

* One that is reported at the end of the text says that something was missing there, which more text
  can bring.  Fragments of a declaration and the declaration itself fail in no other way
  (`rest_of_nextFragment`, `rest_of_declarationToken`).
* A section without an end is reported where it begins, though the whole text behind it has been
  searched.

A fault is reported where reading stopped (`position_of_error`), so the place in the failure is the
one up to which the texts have to agree.
-/

namespace XmlToJson

/-- A sequence of two steps fails if one of them does. -/
theorem error_of_bind {ε σ α β : Type} {step : EStateM ε σ α} {next : α → EStateM ε σ β}
    {before after : σ} {failure : ε} (h : (step >>= next) before = .error failure after) :
    step before = .error failure after ∨ ∃ first between,
      step before = .ok first between ∧ next first between = .error failure after := by
  rw [bind_apply] at h
  split at h
  · next first between hfirst => exact .inr ⟨first, between, hfirst, h⟩
  · next found between hfirst =>
      obtain ⟨rfl, rfl⟩ := EStateM.Result.error.inj h
      exact .inl hfirst

namespace Scan

variable {α β γ : Type}

/-- Whether `second` fails as `first` does, at the characters at which that fails and in front of
the same character.  Nothing is said of a fault at the end of the text and of a section without an
end. -/
def EchoesFaults (first second : Scan α) : Prop :=
  ∀ ⦃cursor error stop⦄, first cursor = .error error stop → stop.rest ≠ [] →
    error.fault ≠ .unclosedCdata →
    ∃ used, cursor.rest = used ++ stop.rest ∧
      ∀ ⦃other : Cursor⦄ ⦃tail⦄, other.rest = used ++ tail → tail.head? = stop.rest.head? →
        ∃ found behind, second other = .error found behind ∧ found.fault = error.fault ∧
          behind.rest = tail

/-- A scan that fails has a fault and a place where it stopped. -/
theorem exists_of_fail {scan : Scan α} {other behind : Cursor} {fault : MarkupFault}
    {tail : List Char} (h : scan other = fail fault behind) (hrest : behind.rest = tail) :
    ∃ found stop, scan other = .error found stop ∧ found.fault = fault ∧ stop.rest = tail :=
  ⟨⟨fault, some behind.position⟩, behind, h, rfl, hrest⟩

section Sequences

variable {plain : α → β} {settled : α → Prop} {first second : Scan α} {next onward : α → Scan γ}

theorem EchoesFaults.of_end
    (h : ∀ ⦃cursor error stop⦄, first cursor = .error error stop →
      stop.rest = [] ∨ error.fault = .unclosedCdata) : EchoesFaults first second := by
  intro cursor error stop herror hstop hfault
  rcases h herror with hend | hcdata
  · exact absurd hend hstop
  · exact absurd hcdata hfault

theorem EchoesFaults.pure {value found : α} : EchoesFaults (pure value) (pure found) :=
  .of_end fun _ _ _ h => by simp [Pure.pure, EStateM.pure] at h

theorem EchoesFaults.refuse (fault : MarkupFault) :
    EchoesFaults (refuse fault : Scan α) (refuse fault) := by
  intro cursor error stop h _ _
  obtain ⟨rfl, rfl⟩ := EStateM.Result.error.inj h
  exact ⟨[], rfl, fun other tail hother _ => exists_of_fail rfl hother⟩

theorem echoesFaults_demand (condition : Bool) (fault : MarkupFault) :
    EchoesFaults (demand condition fault) (demand condition fault) := by
  unfold demand
  split
  · exact .pure
  · exact .refuse fault

/-- A sequence of two scans fails where the first does, or else where the second does.  In front of
the fault of the second the first reads what it reads, whatever it needs to come behind. -/
theorem EchoesFaults.bind (hfirst : EchoesFaults first second)
    (hecho : Echoes plain settled first second)
    (hnext : ∀ ⦃value found⦄, plain found = plain value →
      EchoesFaults (next value) (onward found)) :
    EchoesFaults (first >>= next) (second >>= onward) := by
  intro cursor error stop h hstop hfault
  rcases error_of_bind h with herror | ⟨value, between, hvalue, herror⟩
  · obtain ⟨used, hused, hagain⟩ := hfirst herror hstop hfault
    refine ⟨used, hused, fun other tail hother htail => ?_⟩
    obtain ⟨found, behind, hfound, hsame⟩ := hagain hother htail
    refine ⟨found, behind, ?_, hsame⟩
    rw [bind_apply, hfound]
  · obtain ⟨front, hfront, hread⟩ := hecho hvalue
    obtain ⟨back, hback, -⟩ := hnext rfl herror hstop hfault
    refine ⟨front ++ back, by rw [hfront, hback, List.append_assoc], ?_⟩
    intro other tail hother htail
    rw [List.append_assoc] at hother
    have hahead : (back ++ tail).head? = between.rest.head? := by
      rw [hback]
      cases back with
      | nil => exact htail
      | cons c others => rfl
    obtain ⟨found, middle, hfound, hplain, hmiddle⟩ := hread hother (.inr hahead)
    obtain ⟨again, hagain, hfails⟩ := hnext hplain herror hstop hfault
    obtain rfl : again = back := List.append_cancel_right (hagain.symm.trans hback)
    obtain ⟨problem, behind, hproblem, hsame⟩ := hfails hmiddle htail
    refine ⟨problem, behind, ?_, hsame⟩
    rw [bind_apply, hfound]
    exact hproblem

theorem EchoesFaults.map {change other : α → γ} (h : EchoesFaults first second)
    (hecho : Echoes plain settled first second) :
    EchoesFaults (change <$> first) (other <$> second) := by
  rw [← bind_pure_comp, ← bind_pure_comp]
  exact h.bind hecho fun _ _ _ => .pure

end Sequences

/-! ## Single scans -/

/-- A broken reference is seen at the character that stands where its semicolon should. -/
theorem echoesFaults_quotedValue (quote : Char) :
    EchoesFaults (quotedValue quote) (quotedValue quote) := by
  intro cursor error stop h hstop _
  obtain ⟨inside, behind, hrest, hlength, -, hends, hlocal⟩ :=
    CharacterData.exists_of_read quote cursor.rest
  have hskipped : (cursor.skip inside.length).rest = behind := rest_skip hrest
  simp only [quotedValue, ← hlength] at h
  cases behind with
  | nil =>
      -- Nothing is left behind the run, so the fault is reported at the end.
      have hend : (cursor.skipAndStep inside.length).rest = [] := by
        simp [Cursor.skipAndStep, Cursor.next, hskipped]
      split at h
      · simp at h
      · obtain ⟨-, rfl⟩ := EStateM.Result.error.inj h
        exact absurd hend hstop
      · obtain ⟨-, rfl⟩ := EStateM.Result.error.inj h
        exact absurd hend hstop
  | cons c others =>
      have hstep : ∀ {other : Cursor} {tail : List Char}, other.rest = inside ++ c :: tail →
          (other.skipAndStep inside.length).rest = tail := fun hother =>
        rest_next (rest_skip hother)
      split at h
      · simp at h
      · next hending => exact absurd (hends hending) (by simp)
      · next name hending =>
          obtain ⟨rfl, rfl⟩ := EStateM.Result.error.inj h
          refine ⟨inside ++ [c], by rw [hstep hrest]; simp [hrest], ?_⟩
          intro other tail hother _
          rw [List.append_assoc] at hother
          have hread := hlocal (c :: tail) rfl
          refine exists_of_fail ?_ (hstep hother)
          simp only [quotedValue, hother, List.singleton_append, hread, hending, ← hlength]

/-- A bad character in a name is seen when it is read. -/
theorem echoesFaults_bareName {cursor stop : Cursor} {c : Char} {rest : List Char}
    {error : MarkupError} (hcursor : cursor.rest = c :: rest)
    (h : bareName cursor = .error error stop) :
    ∃ used, rest = used ++ stop.rest ∧ ∀ {other : Cursor} {tail : List Char},
      other.rest = c :: (used ++ tail) →
      ∃ found behind, bareName other = .error found behind ∧ found.fault = error.fault ∧
        behind.rest = tail := by
  have hbehind := rest_skip_name hcursor
  simp only [bareName, hcursor, List.take_succ_cons, List.take_zero, List.drop_succ_cons,
    List.drop_zero, List.singleton_append] at h
  split at h
  · simp at h
  · next d others hcons =>
      split at h
      · simp at h
      · next hblank =>
          split at h
          · simp at h
          · next hends =>
              obtain ⟨rfl, rfl⟩ := EStateM.Result.error.inj h
              have hrest : rest = rest.takeWhile isNameChar ++ d :: others := by
                rw [← hcons, hbehind, List.takeWhile_append_dropWhile]
              have hname : ∀ e ∈ rest.takeWhile isNameChar, isNameChar e = true :=
                List.all_eq_true.1 List.all_takeWhile
              have hd : isNameChar d = false :=
                @Text.head?_dropWhile isNameChar rest d (by rw [← hbehind, hcons]; rfl)
              generalize rest.takeWhile isNameChar = run at hcons hrest hname
              refine ⟨run ++ [d], by rw [Cursor.skipAndStep, rest_next hcons]; simp [hrest], ?_⟩
              intro other tail hother
              rw [List.append_assoc] at hother
              have hrun : (run ++ d :: tail).takeWhile isNameChar = run :=
                Text.takeWhile_append_of_head? hname (by simp [hd])
              have hskip := @rest_skip _ (c :: run) (d :: tail) hother
              refine exists_of_fail ?_ (rest_next hskip)
              simp only [bareName, hother, List.take_succ_cons, List.take_zero,
                List.drop_succ_cons, List.drop_zero, List.singleton_append, hrun, hskip,
                if_neg hblank, if_neg hends]
              rfl

theorem echoesFaults_nextToken : EchoesFaults nextToken nextToken := by
  intro cursor error stop h hstop hfault
  simp only [nextToken] at h
  split at h
  · next hstart =>
      obtain ⟨-, rfl⟩ := EStateM.Result.error.inj h
      exact absurd hstart hstop
  · next c rest hstart =>
      obtain ⟨blanks, hcursor, hblanks⟩ := exists_skipBlanks hstart
      split at h
      · next hless =>
          obtain ⟨rfl, rfl⟩ := EStateM.Result.error.inj h
          refine ⟨blanks ++ [c], by rw [rest_next hstart]; simp [hcursor], ?_⟩
          intro other tail hother _
          have hskip := hblanks other tail (by simp [hother])
          refine exists_of_fail ?_ (rest_next hskip)
          simp only [nextToken, hskip, if_pos hless]
      · next hless =>
          split at h
          · simp at h
          · next hmarker =>
              split at h
              · next hquote =>
                  split at h
                  · simp at h
                  · next problem last hvalue =>
                      obtain ⟨rfl, rfl⟩ := EStateM.Result.error.inj h
                      obtain ⟨used, hused, hecho⟩ :=
                        echoesFaults_quotedValue c hvalue hstop hfault
                      rw [rest_next hstart] at hused
                      refine ⟨blanks ++ c :: used, by simp [hcursor, hused], ?_⟩
                      intro other tail hother htail
                      have hskip := hblanks other (used ++ tail) (by simp [hother])
                      obtain ⟨found, behind, hfound, hsame⟩ := hecho (rest_next hskip) htail
                      refine ⟨found, behind, ?_, hsame⟩
                      simp only [nextToken, hskip, if_neg hless, hmarker, if_pos hquote, hfound]
              · next hquote =>
                  split at h
                  · simp at h
                  · next problem last hvalue =>
                      obtain ⟨rfl, rfl⟩ := EStateM.Result.error.inj h
                      obtain ⟨used, hused, hecho⟩ := echoesFaults_bareName hstart hvalue
                      refine ⟨blanks ++ c :: used, by simp [hcursor, hused], ?_⟩
                      intro other tail hother _
                      have hskip := hblanks other (used ++ tail) (by simp [hother])
                      obtain ⟨found, behind, hfound, hsame⟩ := hecho hskip
                      refine ⟨found, behind, ?_, hsame⟩
                      simp only [nextToken, hskip, if_neg hless, hmarker, if_neg hquote, hfound]

theorem echoesFaults_nextContent : EchoesFaults nextContent nextContent := by
  intro cursor error stop h hstop _
  simp only [nextContent] at h
  split at h
  · simp at h
  · next c rest hstart =>
      obtain ⟨blanks, hcursor, hblanks⟩ := exists_skipBlanks hstart
      split at h
      · simp at h
      · next hless =>
          rw [hstart] at h
          split at h
          · next name hending =>
              obtain ⟨rfl, rfl⟩ := EStateM.Result.error.inj h
              obtain ⟨run, behind, rfl, hlength, hlocal⟩ :=
                CharacterData.exists_of_read_cons rest hless
              rw [← hlength] at hstop ⊢
              have hskipped : ((skipBlanks cursor).skip (c :: run).length).rest = behind :=
                rest_skip hstart
              cases behind with
              | nil =>
                  rw [List.append_nil] at hstart
                  have hend : ((skipBlanks cursor).skipAndStep (c :: run).length).rest = [] := by
                    simp [Cursor.skipAndStep, Cursor.next, Cursor.skip, hstart]
                  exact absurd hend hstop
              | cons d others =>
                  rw [Cursor.skipAndStep, rest_next hskipped]
                  refine ⟨blanks ++ c :: (run ++ [d]), by simp [hcursor], ?_⟩
                  intro other tail hother _
                  have hskip := hblanks other (run ++ d :: tail) (by simp [hother])
                  have hread := hlocal (d :: tail) rfl
                  refine exists_of_fail ?_ (rest_next (@rest_skip _ (c :: run) _ hskip))
                  simp only [nextContent, hskip, if_neg hless, hread, hending, ← hlength]
                  rfl
          · simp at h

theorem echoesFaults_textUntil (literal : String) (fault : MarkupFault) {second : Scan String} :
    EchoesFaults (textUntil literal fault) second := by
  refine .of_end fun cursor error stop h => ?_
  unfold textUntil at h
  split at h
  · simp at h
  · obtain ⟨-, rfl⟩ := EStateM.Result.error.inj h
    exact .inl (by simp [Cursor.skipAll, Cursor.skip, Cursor.remaining])

theorem echoesFaults_cdataText {second : Scan String} : EchoesFaults cdataText second := by
  refine .of_end fun cursor error stop h => ?_
  unfold cdataText at h
  split at h
  · obtain ⟨rfl, -⟩ := EStateM.Result.error.inj h
    exact .inr rfl
  · simp at h

theorem echoesFaults_cdataBracket : EchoesFaults cdataBracket cdataBracket := by
  intro cursor error stop h hstop _
  cases hrest : cursor.rest with
  | nil =>
      simp only [cdataBracket, Cursor.next, hrest] at h
      obtain ⟨-, rfl⟩ := EStateM.Result.error.inj h
      exact absurd rfl hstop
  | cons c rest =>
      by_cases hc : c = '['
      · subst hc
        simp [cdataBracket, Cursor.next, hrest] at h
      · have hfails : ∀ {other : Cursor} {tail : List Char}, other.rest = c :: tail →
            cdataBracket other = fail .notCdata other.next.2 := by
          intro other tail hother
          simp only [cdataBracket, Cursor.next, hother]
          split
          · next heq => exact absurd (Option.some.inj (Prod.mk.inj heq).1) hc
          · next heq => rw [← (Prod.mk.inj heq).2]
        obtain ⟨rfl, rfl⟩ := EStateM.Result.error.inj ((hfails hrest).symm.trans h)
        rw [rest_next hrest]
        exact ⟨[c], rfl, fun other tail hother _ =>
          exists_of_fail (hfails hother) (rest_next hother)⟩

theorem echoesFaults_markupSort {second : Scan MarkupSort} : EchoesFaults markupSort second := by
  refine .of_end fun cursor error stop h => ?_
  unfold markupSort at h
  split at h <;> simp at h

/-- No fragment of a declaration comes where the text ends, or has ended in a quoted run. -/
theorem rest_of_nextFragment {cursor stop : Cursor} (h : nextFragment cursor = .ok none stop) :
    stop.rest = [] := by
  simp only [nextFragment] at h
  split at h
  · next hstart =>
      obtain ⟨-, rfl⟩ := EStateM.Result.ok.inj h
      exact hstart
  · split at h
    · simp at h
    · split at h
      · split at h
        · obtain ⟨-, rfl⟩ := EStateM.Result.ok.inj h
          simp [Cursor.skipAll, Cursor.skip, Cursor.remaining]
        · simp at h
      · split at h
        · simp at h
        · simp at h

theorem not_error_of_nextFragment {cursor stop : Cursor} {error : MarkupError} :
    nextFragment cursor ≠ .error error stop := by
  simp only [nextFragment]
  repeat' split
  all_goals simp

/-- A declaration fails only where the text ends. -/
theorem rest_of_declarationToken {cursor stop : Cursor} {error : MarkupError}
    (h : declarationToken cursor = .error error stop) : stop.rest = [] := by
  unfold declarationToken at h
  split at h
  · simp at h
  · next last hfragment =>
      obtain ⟨-, rfl⟩ := EStateM.Result.error.inj h
      exact rest_of_nextFragment hfragment
  · next problem last hfragment => exact absurd hfragment not_error_of_nextFragment

theorem echoesFaults_declarationEnd (nesting : Nat) {second : Scan Unit} :
    EchoesFaults (declarationEnd nesting) second := by
  refine .of_end fun cursor error stop h => .inl ?_
  fun_induction declarationEnd nesting cursor with
  | case1 nesting cursor problem last hrun =>
      obtain ⟨rfl, rfl⟩ := EStateM.Result.error.inj h
      exact rest_of_declarationToken (Onward.error_of_run hrun)
  | case2 nesting cursor token between shorter hrun hless ih => exact ih h
  | case3 cursor token between shorter => simp at h
  | case4 cursor token between shorter hrun hless hgreater outer ih => exact ih h
  | case5 nesting cursor token between shorter hrun hless hgreater ih => exact ih h

/-! ## Pieces of markup -/

theorem echoesFaults_exclamation : EchoesFaults exclamation exclamation := by
  refine echoesFaults_markupSort.bind echoes_markupSort fun sort found hsort => ?_
  obtain rfl : found = sort := hsort
  cases found with
  | comment =>
      exact (echoesFaults_textUntil _ _).bind (echoes_textUntil _ _) fun _ _ _ => .pure
  | bracketed =>
      refine echoesFaults_nextToken.bind echoes_nextToken fun name found hname => ?_
      rw [Token.isIdentifier_of_plain hname, Token.value_of_plain hname]
      refine (echoesFaults_demand _ _).bind echoes_demand fun _ _ _ => ?_
      refine echoesFaults_cdataBracket.bind echoes_cdataBracket fun _ _ _ => ?_
      exact echoesFaults_cdataText.bind echoes_cdataText fun _ _ _ => .pure
  | declaration =>
      exact (echoesFaults_declarationEnd 0).bind (echoes_declarationEnd 0) fun _ _ _ => .pure

theorem echoesFaults_closeTag (enclosing : Option String) :
    EchoesFaults (closeTag enclosing) (closeTag enclosing) := by
  refine echoesFaults_nextToken.bind echoes_nextToken fun name found hname => ?_
  rw [Token.isIdentifier_of_plain hname, Token.value_of_plain hname]
  cases enclosing with
  | none => exact .refuse _
  | some tag =>
      refine (echoesFaults_demand _ _).bind echoes_demand fun _ _ _ => ?_
      refine echoesFaults_nextToken.bind echoes_nextToken fun last found hlast => ?_
      rw [Token.isThe_of_plain hlast]
      exact (echoesFaults_demand _ _).bind echoes_demand fun _ _ _ => .pure

theorem echoesFaults_markupEvent (enclosing : Option String) {token found : Token}
    (h : found.plain = token.plain) :
    EchoesFaults (markupEvent enclosing token) (markupEvent enclosing found) := by
  unfold markupEvent
  rw [Token.isThe_of_plain h, Token.isThe_of_plain h, Token.isThe_of_plain h,
    Token.isIdentifier_of_plain h, Token.value_of_plain h]
  split
  · exact echoesFaults_exclamation
  · split
    · exact (echoesFaults_textUntil _ _).map (echoes_textUntil _ _)
    · split
      · exact echoesFaults_closeTag enclosing
      · split
        · exact .pure
        · exact .refuse _

theorem echoesFaults_markupReading (enclosing : Option String) :
    EchoesFaults (markupReading enclosing) (markupReading enclosing) :=
  echoesFaults_nextToken.bind echoes_nextToken fun _ _ htoken =>
    (echoesFaults_markupEvent enclosing htoken).bind (echoes_markupEvent enclosing htoken)
      fun _ _ _ => .pure

theorem echoesFaults_contentReading (tag : String) :
    EchoesFaults (contentReading tag) (contentReading tag) := by
  refine echoesFaults_nextContent.bind echoes_nextContent fun token? found? htoken => ?_
  cases token? with
  | none =>
      obtain rfl : found? = none := Option.map_eq_none_iff.1 htoken
      exact .refuse _
  | some token =>
      obtain ⟨found, rfl, hplain⟩ := Option.map_eq_some_iff.1 htoken
      dsimp only
      rw [(Prod.mk.inj hplain).1]
      split
      · exact .pure
      · exact echoesFaults_markupReading (some tag)

theorem echoesFaults_tagReading {token found : Token} (h : found.plain = token.plain) :
    EchoesFaults (tagReading token) (tagReading found) := by
  unfold tagReading
  rw [Token.isIdentifier_of_plain h, Token.isThe_of_plain h, Token.isThe_of_plain h]
  split
  · refine echoesFaults_nextToken.bind echoes_nextToken fun second found hsecond => ?_
    rw [Token.isThe_of_plain hsecond]
    split
    · refine echoesFaults_nextToken.bind echoes_nextToken fun value found hvalue => ?_
      rw [Token.isIdentifier_of_plain hvalue]
      exact (echoesFaults_demand _ _).bind echoes_demand fun _ _ _ => .pure
    · exact .pure
  · split
    · refine echoesFaults_nextToken.bind echoes_nextToken fun last found hlast => ?_
      rw [Token.isThe_of_plain hlast]
      exact (echoesFaults_demand _ _).bind echoes_demand fun _ _ _ => .pure
    · exact (echoesFaults_demand _ _).bind echoes_demand fun _ _ _ => .pure

theorem echoesFaults_nextReading_document :
    EchoesFaults (nextReading .document) (nextReading .document) := by
  intro cursor error stop h hstop hfault
  simp only [nextReading] at h
  split at h
  · simp at h
  · next index hindex =>
      obtain ⟨before, behind, hrest, rfl, hlocal⟩ := Text.exists_of_indexOf? hindex
      obtain ⟨used, hused, hecho⟩ :=
        (echoesFaults_markupReading none).map (echoes_markupReading none) h hstop hfault
      rw [rest_skip_less hrest] at hused
      refine ⟨before ++ (['<'] ++ used), by simp [hrest, hused], ?_⟩
      intro other tail hother htail
      rw [List.append_assoc, List.append_assoc] at hother
      obtain ⟨found, behind, hfound, hsame⟩ := hecho (rest_skip_less hother) htail
      refine ⟨found, behind, ?_, hsame⟩
      simp only [nextReading, hother, hlocal]
      exact hfound

/-- Where no event can be read, none can be read wherever the same characters stand. -/
theorem echoesFaults_nextReading (nest : Nest) {pending held : Option Token}
    (h : held.map Token.plain = pending.map Token.plain) :
    EchoesFaults (nextReading (nest.place pending)) (nextReading (nest.place held)) := by
  obtain ⟨openTags, tag⟩ := nest
  cases tag with
  | none =>
      cases openTags with
      | nil => exact echoesFaults_nextReading_document
      | cons tag outer =>
          exact (echoesFaults_contentReading tag).map (echoes_contentReading tag)
  | some name =>
      cases pending with
      | none =>
          obtain rfl : held = none := Option.map_eq_none_iff.1 h
          exact echoesFaults_nextToken.bind echoes_nextToken fun _ _ htoken =>
            (echoesFaults_tagReading htoken).map (echoes_tagReading htoken)
      | some token =>
          obtain ⟨found, rfl, hplain⟩ := Option.map_eq_some_iff.1 h
          exact (echoesFaults_tagReading hplain).map (echoes_tagReading hplain)

end Scan

/-! ## Texts -/

namespace Reader

variable {source : List Char} {reader : Reader} {error : MarkupError} {stop : Cursor}

/-- A fault is met behind the events of a text. -/
theorem exists_of_fault (h : reader.trace.fault = some error) :
    ∃ last stop, Advances reader reader.trace.entries last ∧
      nextReading last.place last.cursor = .error error stop := by
  fun_induction Reader.trace reader with
  | case1 reader problem stop hread =>
      obtain rfl := Option.some.inj h
      exact ⟨reader, stop, .refl reader, hread⟩
  | case2 reader stop hread => simp at h
  | case3 reader reading cursor hread rest ih =>
      obtain ⟨last, stop, hadvances, hfails⟩ := ih h
      exact ⟨last, stop, .step hread hadvances, hfails⟩

/-- A fault is reported where reading stopped. -/
theorem position_of_error (hcursor : reader.cursor.Tracks source)
    (hpending : Scan.AreIn source reader.pending)
    (h : nextReading reader.place reader.cursor = .error error stop) :
    stop.Tracks source ∧ error.position = some stop.position := by
  have hstays := Scan.keeps_nextReading reader.nest hpending hcursor
  rw [show reader.nest.place reader.pending = reader.place from rfl, h] at hstays
  exact ⟨hstays.1, hstays.2.1⟩

/-- A fault behind some events is met by every reader that stands in front of the same
characters. -/
theorem Advances.echoesFault {last : Reader} {entries : List Entry}
    (h : Advances reader entries last)
    (hfails : nextReading last.place last.cursor = .error error stop) (hstop : stop.rest ≠ [])
    (hfault : error.fault ≠ .unclosedCdata) :
    ∃ used, reader.cursor.rest = used ++ stop.rest ∧
      ∀ {other : Reader} {tail : List Char}, reader.Alike other →
        other.cursor.rest = used ++ tail → tail.head? = stop.rest.head? →
        ∃ met reached found finish, Advances other met reached ∧
          met.map (·.event) = entries.map (·.event) ∧
          nextReading reached.place reached.cursor = .error found finish ∧
          found.fault = error.fault ∧ finish.rest = tail := by
  obtain ⟨front, hfront, hevents⟩ := h.echoes
  obtain ⟨back, hback, -⟩ := Scan.echoesFaults_nextReading last.nest rfl hfails hstop hfault
  have hback : last.cursor.rest = back ++ stop.rest := hback
  refine ⟨front ++ back, by rw [hfront, hback, List.append_assoc], ?_⟩
  intro other tail halike hother htail
  rw [List.append_assoc] at hother
  have hahead : (back ++ tail).head? = last.cursor.rest.head? := by
    rw [hback]
    cases back with
    | nil => exact htail
    | cons c others => rfl
  obtain ⟨met, reached, hmet, hsame, hreachedAlike, hreached⟩ := hevents halike hother hahead
  obtain ⟨again, hagain, hecho⟩ :=
    Scan.echoesFaults_nextReading last.nest hreachedAlike.pending hfails hstop hfault
  obtain rfl : again = back := List.append_cancel_right (hagain.symm.trans hback)
  obtain ⟨found, finish, hfound, hfinish⟩ := hecho hreached htail
  refine ⟨met, reached, found, finish, hmet, hsame, ?_, hfinish⟩
  rw [place, hreachedAlike.nest]
  exact hfound

end Reader

/-- Two texts that are the same up to a place and at the next character go on with one character
there. -/
theorem exists_of_take_eq {read behind other : List Char} (hbehind : behind ≠ [])
    (h : other.take (read.length + 1) = (read ++ behind).take (read.length + 1)) :
    ∃ tail, other = read ++ tail ∧ tail.head? = behind.head? := by
  obtain ⟨c, rest, rfl⟩ := List.exists_cons_of_ne_nil hbehind
  have htake : (read ++ c :: rest).take (read.length + 1) = read ++ [c] := by
    rw [List.take_length_add_append]
    rfl
  rw [htake] at h
  refine ⟨c :: other.drop (read.length + 1), ?_, rfl⟩
  calc other
      = other.take (read.length + 1) ++ other.drop (read.length + 1) :=
        (List.take_append_drop _ _).symm
    _ = read ++ c :: other.drop (read.length + 1) := by rw [h, List.append_assoc]; rfl

/-- A text that agrees with another up to a fault of that, and at the character there, has the same
events and the same fault. -/
theorem trace_of_same_start {text other : String} {error : MarkupError} {position : Position}
    (hfault : (Trace.ofText text).fault = some error) (hcdata : error.fault ≠ .unclosedCdata)
    (hposition : error.position = some position) (hinside : position.offset < text.length)
    (hsame : other.toList.take (position.offset + 1) = text.toList.take (position.offset + 1)) :
    (Trace.ofText other).fault = some error ∧
      (Trace.ofText other).entries.map (·.event) = (Trace.ofText text).entries.map (·.event) := by
  obtain ⟨last, stop, hadvances, hfails⟩ := Reader.exists_of_fault hfault
  obtain ⟨htracks, hpending⟩ := hadvances.tracks (.ofText text) Scan.areIn_none
  obtain ⟨⟨⟨read, hread, hbehind⟩, -⟩, hplace⟩ := Reader.position_of_error htracks hpending hfails
  obtain rfl := Option.some.inj (hposition.symm.trans hplace)
  have hoffset : stop.position.offset = read.length := by
    rw [hbehind, Position.offset_advanceOver]
    exact Nat.zero_add _
  have hrest : stop.rest ≠ [] := by
    intro hend
    rw [hoffset, ← String.length_toList, hread, hend, List.append_nil] at hinside
    exact absurd hinside (Nat.lt_irrefl _)
  rw [hoffset, hread] at hsame
  obtain ⟨tail, hother, htail⟩ := exists_of_take_eq hrest hsame
  obtain ⟨used, hused, hecho⟩ := hadvances.echoesFault hfails hrest hcdata
  obtain rfl : used = read := (List.append_left_inj stop.rest).1 (hused.symm.trans hread)
  obtain ⟨met, reached, found, finish, hmet, hevents, hfound, hsameFault, hfinish⟩ :=
    hecho (alike_ofText text other) hother htail
  -- Both stop behind the same characters, so both report the same place.
  obtain ⟨htracks, hpending⟩ := hmet.tracks (.ofText other) Scan.areIn_none
  obtain ⟨⟨⟨again, hagain, hreached⟩, -⟩, hplaceOther⟩ :=
    Reader.position_of_error htracks hpending hfound
  obtain rfl : again = used := by
    refine (List.append_left_inj finish.rest).1 ?_
    rw [← hagain, hfinish]
    exact hother
  have hsamePlace : found.position = error.position := by
    rw [hplaceOther, hplace, hreached, hbehind]
  obtain rfl : found = error := congrArg₂ MarkupError.mk hsameFault hsamePlace
  rw [Trace.ofText, hmet.trace, Reader.trace_of_error hfound, List.append_nil]
  exact ⟨rfl, hevents⟩

/-! ## Conversions -/

namespace Builder

variable {converter : Converter} {ceiling : Option Nat} {builder built : Builder}
  {metrics : Metrics} {log : List LogRecord} {entries others : List Entry}

/-- What is built from the same events does not depend on the counters and the records. -/
theorem applyAll_recounted (hevents : others.map (·.event) = entries.map (·.event))
    (h : builder.applyAll converter ceiling entries = .ok built) :
    ∃ counted written, (builder.recounted metrics log).applyAll converter ceiling others =
      .ok (built.recounted counted written) := by
  induction entries generalizing builder others metrics log with
  | nil =>
      obtain rfl := List.map_eq_nil_iff.1 hevents
      obtain rfl := Except.ok.inj h
      exact ⟨metrics, log, rfl⟩
  | cons entry rest ih =>
      obtain ⟨other, more, rfl, hevent, hmore⟩ := List.map_eq_cons_iff.1 hevents
      obtain ⟨next, hnext, hrest⟩ := applyAll_cons_ok h
      obtain ⟨counted, written, hmade⟩ :=
        @apply_recounted converter ceiling builder next metrics log _ _ hevent hnext
      rw [applyAll, hmade]
      exact ih hmore hrest

/-- What is built never fails because of the markup. -/
theorem ne_malformed_of_applyAll {failure : Failure} {error : MarkupError}
    (h : builder.applyAll converter ceiling entries = .error failure) :
    failure ≠ .refused (.malformed error) := by
  induction entries generalizing builder with
  | nil => simp [applyAll] at h
  | cons entry rest ih =>
      rw [applyAll] at h
      cases happly : builder.apply converter ceiling entry with
      | ok next =>
          rw [happly] at h
          exact ih h
      | error found =>
          rw [happly] at h
          obtain rfl := Except.error.inj h
          rcases failure_of_apply happly with ⟨rfl, -⟩ | ⟨limit, tag, position, rfl⟩
          · simp
          · simp

end Builder

/-- A document that fails because of its markup has a fault behind events that could all be
applied. -/
theorem Converter.fault_of_convert {converter : Converter} {text : String} {error : MarkupError}
    (hlength : converter.exceededLimit? text = none)
    (h : (converter.convert text).outcome = .error (.refused (.malformed error))) :
    (Trace.ofText text).fault = some error ∧ ∃ built,
      (converter.machine text).builder.applyAll converter converter.ceiling
        (Trace.ofText text).entries = .ok built := by
  rw [convert_outcome hlength, Builder.outcome_follow] at h
  cases happly : (converter.machine text).builder.applyAll converter converter.ceiling
      (Trace.ofText text).entries with
  | error failure =>
      rw [happly] at h
      exact absurd (Except.error.inj h) (Builder.ne_malformed_of_applyAll happly)
  | ok built =>
      rw [happly] at h
      cases hfault : (Trace.ofText text).fault with
      | none => simp [hfault, Except.map] at h
      | some found =>
          rw [hfault] at h
          cases h
          exact ⟨rfl, built, rfl⟩

/-- Where a document fails because of its markup, the failure depends on what stands up to the place
that is reported and on the character there.  A text that agrees so far fails in the same way, with
the same message and at the same place.  Only a CDATA section without an end is reported where it
begins. -/
theorem convert_of_same_start {converter : Converter} {text other : String} {error : MarkupError}
    {position : Position} (hlimit : converter.settings.maxInputLength = none)
    (herror : (converter.convert text).outcome = .error (.refused (.malformed error)))
    (hcdata : error.fault ≠ .unclosedCdata) (hposition : error.position = some position)
    (hinside : position.offset < text.length)
    (hsame : other.toList.take (position.offset + 1) = text.toList.take (position.offset + 1)) :
    (converter.convert other).outcome = .error (.refused (.malformed error)) := by
  have hlength : ∀ text, converter.exceededLimit? text = none := by
    intro text
    rw [Converter.exceededLimit?, hlimit]
  obtain ⟨hfault, built, hbuilt⟩ := Converter.fault_of_convert (hlength text) herror
  obtain ⟨hagain, hevents⟩ := trace_of_same_start hfault hcdata hposition hinside hsame
  obtain ⟨counted, written, hmade⟩ :=
    @Builder.applyAll_recounted converter _ _ _ { characters := other.length }
      [converter.startedRecord other.length] _ _ hevents hbuilt
  have hother : (converter.machine other).builder.applyAll converter converter.ceiling
      (Trace.ofText other).entries = .ok (built.recounted counted written) := hmade
  rw [Converter.convert_outcome (hlength other), Builder.outcome_follow, hother, hagain]
  rfl

/-- What follows the character behind the `<` in the tag of `c` makes no difference. -/
theorem convert_of_same_start_misplaced :
    ∃ error, (({} : Converter).convert "<a>1</a><c <d/>").outcome =
        .error (.refused (.malformed error)) ∧
      (({} : Converter).convert "<a>1</a><c <d e='2").outcome =
        .error (.refused (.malformed error)) := by
  have hfails : (({} : Converter).convert "<a>1</a><c <d/>").outcome.map (fun _ => ()) =
      .error (.refused (.malformed ⟨.misplacedLess, some ⟨1, 13, 12, by decide, by decide⟩⟩)) := by
    decide +kernel
  cases herror : (({} : Converter).convert "<a>1</a><c <d/>").outcome with
  | ok found => simp [herror, Except.map] at hfails
  | error failure =>
      rw [herror] at hfails
      obtain rfl := Except.error.inj hfails
      exact ⟨_, rfl, convert_of_same_start rfl herror (by decide) rfl (by decide) (by decide)⟩

end XmlToJson

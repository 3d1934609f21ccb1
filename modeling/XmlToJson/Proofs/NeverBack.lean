import XmlToJson.Proofs.Places

/-!
# Reading never goes back

No scan leaves its cursor in front of the place where it began, not even one that fails or finds
nothing, and a scan that returns a token leaves it further on.

`Scan.NeverBack` says so of a scan, by the number of characters that remain behind it.  A step
leaves a state behind whether it succeeds or fails (`stateBehind`), so one inequality is enough for
both outcomes.  Skipping and stepping over characters keep it (`remaining_skip_le`,
`remaining_next_le`, `remaining_skipAndStep_le`), and so does a sequence of scans that keep it
(`NeverBack.bind`).

What is left is one lemma for each scan:

* a reference, a quoted value and a bare name read the characters that they are made of, and a text
  that is made into a token was read as far as it goes (`remaining_token_le`);
* the three ways to read a token differ in what they read it from (`neverBack_nextToken`,
  `neverBack_nextContent`, `neverBack_nextFragment`);
* a literal that is not found leaves nothing (`neverBack_skipPast`), and a declaration goes on token
  by token (`neverBack_declarationEnd`).

`neverBack_perform` puts them together for the operations of a tokenizer: only stepping back goes
back.  A token that is returned has at least one character (`remaining_of_token`).

Since a cursor tracks its text, what is left to read and the offset say the same
(`Cursor.Tracks.offset_add`), so `offset_le_after` and `offset_lt_of_token` hold wherever a run of
operations has come to.  In the same way a document has no more events than characters
(`Reader.length_trace_le`).
-/

namespace XmlToJson

/-- The state that a step leaves behind, whether it succeeds or fails. -/
def stateBehind {ε σ α : Type} : EStateM.Result ε σ α → σ
  | .ok _ after => after
  | .error _ after => after

/-! ## Scans never go back -/

namespace Cursor

variable (cursor : Cursor)

theorem remaining_skip_le (count : Nat) : (cursor.skip count).remaining ≤ cursor.remaining := by
  rw [remaining_skip]
  exact Nat.sub_le _ _

theorem remaining_next_le : cursor.next.2.remaining ≤ cursor.remaining := by
  rw [remaining_next]
  exact Nat.sub_le _ _

theorem remaining_skipAndStep_le (count : Nat) :
    (cursor.skipAndStep count).remaining ≤ cursor.remaining :=
  Nat.le_trans (remaining_next_le _) (cursor.remaining_skip_le count)

theorem remaining_skipPast_le (literal : String) :
    (cursor.skipPast literal).2.remaining ≤ cursor.remaining := by
  unfold skipPast
  split
  · exact cursor.remaining_skip_le _
  · exact cursor.remaining_skip_le _

end Cursor

namespace Scan

variable {α β : Type}

/-- Whether a scan leaves no more to read than there was, also if it fails. -/
def NeverBack (scan : Scan α) : Prop :=
  ∀ cursor, (stateBehind (scan cursor)).remaining ≤ cursor.remaining

theorem NeverBack.bind {step : Scan α} {next : α → Scan β} (hstep : NeverBack step)
    (hnext : ∀ value, NeverBack (next value)) : NeverBack (step >>= next) := by
  intro cursor
  have hfirst := hstep cursor
  rw [bind_apply]
  cases hresult : step cursor with
  | ok value between =>
      rw [hresult] at hfirst
      exact Nat.le_trans (hnext value between) hfirst
  | error error stop =>
      rw [hresult] at hfirst
      exact hfirst

theorem NeverBack.pure (value : α) : NeverBack (pure value) := fun _ => Nat.le_refl _

theorem NeverBack.map {step : Scan α} {change : α → β} (h : NeverBack step) :
    NeverBack (change <$> step) := by
  rw [← bind_pure_comp]
  exact h.bind fun _ => .pure _

theorem neverBack_reference (opening : String) : NeverBack (reference opening) := by
  intro cursor
  dsimp only [reference]
  split
  · exact cursor.remaining_skipAndStep_le _
  · exact cursor.remaining_skipAndStep_le _

theorem neverBack_quotedValue (quote : Char) : NeverBack (quotedValue quote) := by
  intro cursor
  dsimp only [quotedValue]
  split
  · exact cursor.remaining_skipAndStep_le _
  · exact cursor.remaining_skipAndStep_le _
  · exact cursor.remaining_skipAndStep_le _

theorem neverBack_bareName : NeverBack bareName := by
  intro cursor
  dsimp only [bareName]
  split
  · exact cursor.remaining_skip_le _
  · split
    · exact cursor.remaining_skipAndStep_le _
    · split
      · exact cursor.remaining_skip_le _
      · exact cursor.remaining_skipAndStep_le _

/-- A text that is made into a token is read as far as it was. -/
theorem remaining_token_le {bound : Nat} (token : String → Token)
    (result : EStateM.Result MarkupError Cursor String) :
    (stateBehind result).remaining ≤ bound → (stateBehind (match result with
      | .ok value stop => .ok (token value) stop
      | .error error stop => .error error stop)).remaining ≤ bound := by
  intro h
  cases result <;> exact h

theorem neverBack_nextToken : NeverBack nextToken := by
  intro cursor
  have hstart := remaining_skipBlanks_le cursor
  have hnext := Nat.le_trans (skipBlanks cursor).remaining_next_le hstart
  dsimp only [nextToken]
  split
  · exact hstart
  · next c rest hrest =>
      split
      · exact hnext
      · split
        · exact hnext
        · split
          · exact remaining_token_le _ _ (Nat.le_trans (neverBack_quotedValue c _) hnext)
          · exact remaining_token_le _ _ (Nat.le_trans (neverBack_bareName _) hstart)

theorem neverBack_nextContent : NeverBack nextContent := by
  intro cursor
  have hstart := remaining_skipBlanks_le cursor
  dsimp only [nextContent]
  split
  · exact hstart
  · split
    · exact Nat.le_trans (Cursor.remaining_next_le _) hstart
    · split
      · exact Nat.le_trans (Cursor.remaining_skipAndStep_le _ _) hstart
      · exact Nat.le_trans (Cursor.remaining_skip_le _ _) hstart

theorem neverBack_nextFragment : NeverBack nextFragment := by
  intro cursor
  have hstart := remaining_skipBlanks_le cursor
  dsimp only [nextFragment]
  split
  · exact hstart
  · split
    · exact Nat.le_trans (Cursor.remaining_next_le _) hstart
    · split
      · split
        · exact Nat.le_trans (Cursor.remaining_skip_le _ _) hstart
        · exact Nat.le_trans (Cursor.remaining_skip_le _ _) hstart
      · split
        · exact Nat.le_trans (Cursor.remaining_skip_le _ _) hstart
        · split
          · exact Nat.le_trans (Cursor.remaining_skipAndStep_le _ _) hstart
          · exact Nat.le_trans (Cursor.remaining_skip_le _ _) hstart

theorem neverBack_cdataText : NeverBack cdataText := by
  intro cursor
  dsimp only [cdataText]
  split
  · exact Nat.le_refl _
  · exact cursor.remaining_skip_le _

theorem neverBack_skipPast (literal : String) (fault : MarkupFault) :
    NeverBack (skipPast literal fault) := by
  intro cursor
  have hskip := cursor.remaining_skipPast_le literal
  unfold skipPast
  split
  · next stop hstop => rwa [hstop] at hskip
  · next stop hstop => rwa [hstop] at hskip

theorem neverBack_markupSort : NeverBack markupSort := by
  intro cursor
  dsimp only [markupSort]
  split
  · exact cursor.remaining_skip_le _
  · exact cursor.remaining_skip_le _
  · exact cursor.remaining_skip_le _

theorem neverBack_cdataBracket : NeverBack cdataBracket := by
  intro cursor
  have hnext := cursor.remaining_next_le
  dsimp only [cdataBracket]
  split
  · next stop hstop => rwa [hstop] at hnext
  · next stop _ hstop => rwa [hstop] at hnext

theorem neverBack_declarationToken : NeverBack declarationToken := by
  intro cursor
  have hfragment := neverBack_nextFragment cursor
  unfold declarationToken
  cases hresult : nextFragment cursor with
  | error error stop =>
      rw [hresult] at hfragment
      exact hfragment
  | ok token? stop =>
      rw [hresult] at hfragment
      cases token? <;> exact hfragment

theorem neverBack_declarationEnd (nesting : Nat) : NeverBack (declarationEnd nesting) := by
  intro cursor
  fun_induction declarationEnd nesting cursor with
  | case1 nesting cursor error stop hrun =>
      have htoken := neverBack_declarationToken cursor
      rwa [Onward.error_of_run hrun] at htoken
  | case2 nesting cursor token stop shorter hrun hless ih => exact Nat.le_trans ih (by omega)
  | case3 cursor token stop shorter hrun => exact Nat.le_of_lt shorter
  | case4 cursor token stop shorter hrun hless hgreater outer ih =>
      exact Nat.le_trans ih (by omega)
  | case5 nesting cursor token stop shorter hrun hless hgreater ih =>
      exact Nat.le_trans ih (by omega)

theorem keeps_skipPast {source : List Char} (literal : String) {fault : MarkupFault}
    (hfault : fault ≠ .pushedBackTwice) :
    Keeps source (fun _ => True) (skipPast literal fault) := by
  intro cursor h
  have hskip := h.skipPast literal
  unfold skipPast
  split
  · next stop hstop =>
      rw [hstop] at hskip
      exact ⟨hskip, trivial⟩
  · next stop hstop =>
      rw [hstop] at hskip
      exact stays_fail hskip hfault

end Scan

namespace Operation

theorem after_eq (cursor : Cursor) (operation : Operation) :
    after cursor operation = stateBehind (operation.perform cursor) := by
  unfold after
  cases operation.perform cursor <;> rfl

/-- Only stepping back goes back. -/
theorem neverBack_perform {operation : Operation} (h : operation ≠ .back) :
    Scan.NeverBack operation.perform := by
  cases operation with
  | back => exact absurd rfl h
  | next => exact Cursor.remaining_next_le
  | skipPast literal => exact fun cursor => cursor.remaining_skipPast_le literal
  | token => exact Scan.neverBack_nextToken.map
  | content => exact Scan.neverBack_nextContent.map
  | fragment => exact Scan.neverBack_nextFragment.map
  | cdata => exact Scan.neverBack_cdataText.map
  | reference opening => exact (Scan.neverBack_reference opening).map

/-- A token has at least one character. -/
theorem remaining_of_token {operation : Operation} {cursor stop : Cursor} {token : Token}
    (h : operation.perform cursor = .ok (.token (some token)) stop) :
    stop.remaining < cursor.remaining := by
  cases operation with
  | next | skipPast literal => simp [perform] at h
  | back | cdata | reference opening =>
      obtain ⟨found, -, heq⟩ := ok_of_map h
      simp at heq
  | token =>
      obtain ⟨found, hfound, -⟩ := ok_of_map h
      exact Scan.strictlyForward_nextToken hfound
  | content =>
      obtain ⟨found, hfound, heq⟩ := ok_of_map h
      obtain rfl : found = some token := by simpa using heq
      exact Scan.remaining_nextContent hfound
  | fragment =>
      obtain ⟨found, hfound, heq⟩ := ok_of_map h
      obtain rfl : found = some token := by simpa using heq
      exact Scan.remaining_nextFragment hfound

end Operation

/-- What is left of a text begins where the cursor stands. -/
theorem Cursor.Tracks.offset_add {source : List Char} {cursor : Cursor} (h : cursor.Tracks source) :
    cursor.position.offset + cursor.remaining = source.length := by
  obtain ⟨read, hsource, hposition⟩ := h.place
  rw [hposition, Position.offset_advanceOver, hsource, List.length_append]
  exact congrArg (· + _) (Nat.zero_add _)

section Offsets

variable {source : List Char} {cursor : Cursor} {operation : Operation}

theorem offset_le_after (h : cursor.Tracks source) (hoperation : operation ≠ .back) :
    cursor.position.offset ≤ (Operation.after cursor operation).position.offset := by
  have hle := Operation.neverBack_perform hoperation cursor
  have hbefore := h.offset_add
  have hafter := (Operation.tracks_after h operation).offset_add
  rw [← Operation.after_eq] at hle
  omega

theorem offset_lt_of_token (h : cursor.Tracks source) {token : Token} {stop : Cursor}
    (htoken : operation.perform cursor = .ok (.token (some token)) stop) :
    cursor.position.offset < stop.position.offset := by
  have hlt := Operation.remaining_of_token htoken
  have hbefore := h.offset_add
  have hstays := Operation.stays_perform h operation
  rw [htoken] at hstays
  have hafter := hstays.offset_add
  omega

end Offsets

/-- There are no more events than characters. -/
theorem Reader.length_trace_le (reader : Reader) : reader.trace.entries.length ≤ reader.unread := by
  fun_induction Reader.trace reader with
  | case1 | case2 => exact Nat.zero_le _
  | case3 reader reading cursor hread rest ih => exact Nat.lt_of_le_of_lt ih (unread_lt hread)

end XmlToJson

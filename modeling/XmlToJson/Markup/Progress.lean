import XmlToJson.Markup.Scan

/-!
# Reading moves forward

A scan that returns a token has read at least one character, and no scan that succeeds moves the
cursor back.  The loops that read tokens until something comes end for that reason.

`Onward` is the outcome of a step together with this fact, for the loops to recurse on.
-/

namespace XmlToJson

/-- A step never leaves more to read than there was. -/
def Forward {ε σ α : Type} (size : σ → Nat) (step : EStateM ε σ α) : Prop :=
  ∀ ⦃before value after⦄, step before = .ok value after → size after ≤ size before

/-- A step that succeeds leaves less to read than there was. -/
def StrictlyForward {ε σ α : Type} (size : σ → Nat) (step : EStateM ε σ α) : Prop :=
  ∀ ⦃before value after⦄, step before = .ok value after → size after < size before

/-- The outcome of a step that began with at most `bound` left to read, by the measure `size`: if it
succeeds, less than that is left. -/
inductive Onward (ε α : Type) {σ : Type} (size : σ → Nat) (bound : Nat) where
  | ok (value : α) (after : σ) (shorter : size after < bound)
  | error (failure : ε) (after : σ)

namespace Onward

variable {ε α σ : Type} {size : σ → Nat}

/-- The outcome of a step of which it is known that it moves on. -/
def run (step : EStateM ε σ α) (moves : StrictlyForward size step) (before : σ) :
    Onward ε α size (size before) :=
  match h : step before with
  | .ok value after => .ok value after (moves h)
  | .error failure after => .error failure after

/-- The outcome without the fact that it carries. -/
def toResult {bound : Nat} : Onward ε α size bound → EStateM.Result ε σ α
  | .ok value after _ => .ok value after
  | .error failure after => .error failure after

@[simp] theorem toResult_run (step : EStateM ε σ α) (moves : StrictlyForward size step)
    (before : σ) : (run step moves before).toResult = step before := by
  unfold run
  split <;> simp_all [toResult]

end Onward

/-- A sequence of two steps succeeds if both do. -/
theorem ok_of_bind {ε σ α β : Type} {step : EStateM ε σ α} {next : α → EStateM ε σ β}
    {before after : σ} {value : β} (h : (step >>= next) before = .ok value after) :
    ∃ first between, step before = .ok first between ∧ next first between = .ok value after := by
  change EStateM.bind step next before = _ at h
  unfold EStateM.bind at h
  split at h
  · next first between hfirst => exact ⟨first, between, hfirst, h⟩
  · simp at h

section Sequences

variable {ε σ α β : Type} {size : σ → Nat} {step : EStateM ε σ α} {next : α → EStateM ε σ β}

theorem StrictlyForward.forward (h : StrictlyForward size step) : Forward size step :=
  fun _ _ _ hstep => Nat.le_of_lt (h hstep)

theorem Forward.pure (value : α) : Forward size (pure value : EStateM ε σ α) := by
  intro before found after h
  obtain ⟨-, rfl⟩ := by simpa [Pure.pure, EStateM.pure] using h
  exact Nat.le_refl _

theorem StrictlyForward.throw (failure : ε) :
    StrictlyForward size (throw failure : EStateM ε σ α) := by
  intro before found after h
  change EStateM.Result.error failure before = .ok found after at h
  cases h

theorem Forward.bind (hstep : Forward size step) (hnext : ∀ value, Forward size (next value)) :
    Forward size (step >>= next) := by
  intro before found after h
  obtain ⟨first, between, hfirst, hlast⟩ := ok_of_bind h
  exact Nat.le_trans (hnext first hlast) (hstep hfirst)

theorem StrictlyForward.bind (hstep : StrictlyForward size step)
    (hnext : ∀ value, Forward size (next value)) : StrictlyForward size (step >>= next) := by
  intro before found after h
  obtain ⟨first, between, hfirst, hlast⟩ := ok_of_bind h
  exact Nat.lt_of_le_of_lt (hnext first hlast) (hstep hfirst)

end Sequences

namespace CharacterData

/-- Character data that does not begin with its stop character is not empty. -/
theorem length_pos_of_read {stop c : Char} {rest : List Char} (hc : c ≠ stop) :
    0 < (read stop (c :: rest)).length := by
  rw [read, if_neg hc]
  split
  · dsimp only
    split <;> (simp only [after]; omega)
  · simp only [after]
    omega

end CharacterData

namespace Scan

variable {cursor stop : Cursor}

theorem remaining_skipBlanks_le (cursor : Cursor) :
    (skipBlanks cursor).remaining ≤ cursor.remaining := by
  simp [skipBlanks]

theorem remaining_pos_of_rest {c : Char} {rest : List Char} (h : cursor.rest = c :: rest) :
    0 < cursor.remaining := by
  simp [Cursor.remaining, h]

theorem remaining_quotedValue {quote : Char} {value : String}
    (h : quotedValue quote cursor = .ok value stop) : stop.remaining ≤ cursor.remaining := by
  simp only [quotedValue] at h
  split at h
  · obtain ⟨-, rfl⟩ := by simpa using h
    simp; omega
  · simp [fail] at h
  · simp [fail] at h

theorem remaining_bareName {value : String} (hpos : 0 < cursor.remaining)
    (h : bareName cursor = .ok value stop) : stop.remaining < cursor.remaining := by
  obtain ⟨c, rest, hrest⟩ := List.exists_cons_of_length_pos hpos
  simp only [bareName, hrest, List.take_succ_cons, List.take_zero, List.drop_succ_cons,
    List.drop_zero] at h
  split at h
  · obtain ⟨-, rfl⟩ := by simpa using h
    simp; omega
  · split at h
    · obtain ⟨-, rfl⟩ := by simpa using h
      simp; omega
    · split at h
      · obtain ⟨-, rfl⟩ := by simpa using h
        simp; omega
      · simp [fail] at h

/-- Reading a token of a tag reads at least one character. -/
theorem strictlyForward_nextToken : StrictlyForward Cursor.remaining nextToken := by
  intro cursor token stop h
  have hblank := remaining_skipBlanks_le cursor
  simp only [nextToken] at h
  split at h
  · simp [fail] at h
  · next c rest hrest =>
      have hpos := remaining_pos_of_rest hrest
      split at h
      · simp [fail] at h
      · split at h
        · obtain ⟨-, rfl⟩ := by simpa using h
          simp; omega
        · split at h
          · split at h
            · next value after hvalue =>
                obtain ⟨-, rfl⟩ := by simpa using h
                have hle := remaining_quotedValue hvalue
                simp only [Cursor.remaining_next] at hle
                omega
            · simp at h
          · split at h
            · next value after hvalue =>
                obtain ⟨-, rfl⟩ := by simpa using h
                have hlt := remaining_bareName hpos hvalue
                omega
            · simp at h

/-- Reading content reads at least one character, unless the text has ended. -/
theorem remaining_nextContent {token : Token} (h : nextContent cursor = .ok (some token) stop) :
    stop.remaining < cursor.remaining := by
  have hblank := remaining_skipBlanks_le cursor
  simp only [nextContent] at h
  split at h
  · simp at h
  · next c rest hrest =>
      have hpos := remaining_pos_of_rest hrest
      split at h
      · obtain ⟨-, rfl⟩ := by simpa using h
        simp; omega
      · next hc =>
          have hdata : 0 < (CharacterData.read '<' (c :: rest)).length :=
            CharacterData.length_pos_of_read hc
          rw [← hrest] at hdata
          split at h
          · simp [fail] at h
          · obtain ⟨-, rfl⟩ := by simpa using h
            simp; omega

/-- Reading a fragment reads at least one character, unless the text has ended. -/
theorem remaining_nextFragment {token : Token}
    (h : nextFragment cursor = .ok (some token) stop) : stop.remaining < cursor.remaining := by
  have hblank := remaining_skipBlanks_le cursor
  simp only [nextFragment] at h
  split at h
  · simp at h
  · next c rest hrest =>
      have hpos := remaining_pos_of_rest hrest
      split at h
      · obtain ⟨-, rfl⟩ := by simpa using h
        simp; omega
      · split at h
        · split at h
          · simp at h
          · obtain ⟨-, rfl⟩ := by simpa using h
            simp; omega
        · split at h
          · obtain ⟨-, rfl⟩ := by simpa using h
            simp; omega
          · obtain ⟨-, rfl⟩ := by simpa using h
            split <;> simp <;> omega

theorem forward_cdataText : Forward Cursor.remaining cdataText := by
  intro cursor value stop h
  simp only [cdataText] at h
  split at h
  · simp [fail] at h
  · obtain ⟨-, rfl⟩ := by simpa using h
    simp

theorem forward_skipPast (literal : String) (fault : MarkupFault) :
    Forward Cursor.remaining (skipPast literal fault) := by
  intro cursor found stop h
  simp only [skipPast, Cursor.skipPast] at h
  split at h
  · next after heq =>
      split at heq
      · obtain ⟨-, rfl⟩ := by simpa using heq
        obtain rfl := by simpa using h
        simp
      · simp at heq
  · simp [fail] at h

end Scan

end XmlToJson

import XmlToJson.Proofs.NeverBack

/-!
# Every call is paid for by a `<`

The recursion of `Conversion/Tree.lean` calls `markup` behind every `<` that it comes to.  This file
bounds these calls by the `<` of the text and compares them with the counters of the conversion
(`progress_of_text`).

## Strategy

The calls are not recorded by the conversion, so `documentCalls` lists them along the recursion:
`elementCalls` follows `elementWithin`, and `contentCalls` is one step of it.  Two accounts are kept
of such a list.

* **Where the calls are.**  `InOrder` says that the `<` of the calls stand in the source one behind
  the other, between two offsets.  Such lists can be appended (`InOrder.append`), and no more of
  them fit than there are `<` (`InOrder.length_le`).
* **What the calls count.**  A call counts one piece of markup or reads one close tag, unless it
  fails.  `Settled` says so for a part of the recursion that has succeeded, and `Paid` for one that
  may have failed in its last call; `Accounted` is one or the other, by what came of the part.

The steps of a conversion are of two kinds, and each kind is kept by sequences of steps.  A `Quiet`
step stays in the source, never goes back and counts nothing: all scans are, and with them reading
the attributes of a tag (`quiet_attributes`).  A step that `CountsOne` does the same and counts one
piece, and there is one lemma for each sort of markup (`countsOne_declaration`,
`countsOne_openingTag` and so on), which together give `countsOne_markup` and the account of a
single call (`accounted_markup`).

From there on the proof follows the recursion: `accounted_content` for one piece of an element,
`accounted_elementWithin` by induction on the room that is left, and `accounted_document` by
induction on the text.
-/

namespace XmlToJson

/-! ## What a step counts -/

/-- The number of pieces of markup that have been counted. -/
def Metrics.markups (metrics : Metrics) : Nat :=
  metrics.elements + metrics.comments + metrics.instructions + metrics.declarations +
    metrics.cdataSections

/-- Whether a piece is a close tag. -/
def Piece.closes : Piece → Bool
  | .closed => true
  | _ => false

namespace ConversionState

/-- The offset of the next character. -/
def offset (state : ConversionState) : Nat := state.cursor.position.offset

/-- Whether a state stands in `source`, and not in front of an earlier one. -/
structure Follows (source : List Char) (before after : ConversionState) : Prop where
  tracks : after.cursor.Tracks source
  offset_le : before.offset ≤ after.offset

theorem Follows.trans {source : List Char} {first second third : ConversionState}
    (h : first.Follows source second) (hnext : second.Follows source third) :
    first.Follows source third :=
  ⟨hnext.tracks, Nat.le_trans h.offset_le hnext.offset_le⟩

end ConversionState

namespace Step

variable {α β : Type} {source : List Char} {good : α → Prop} {fine : β → Prop}

/-- Whether a step stays in `source`, never goes back, counts no markup, and only returns values
that are `good`. -/
def Quiet (source : List Char) (good : α → Prop) (step : Step α) : Prop :=
  ∀ ⦃state : ConversionState⦄, state.cursor.Tracks source →
    state.Follows source (stateBehind (step state)) ∧
      (stateBehind (step state)).metrics.markups = state.metrics.markups ∧
      ∀ value after, step state = .ok value after → good value

theorem Quiet.pure {value : α} (h : good value) : Quiet source good (pure value) := by
  intro state htracks
  refine ⟨⟨htracks, Nat.le_refl _⟩, rfl, fun found after hfound => ?_⟩
  obtain ⟨rfl, -⟩ := ok_of_pure hfound
  exact h

theorem Quiet.throw {failure : Failure} : Quiet source good (throw failure : Step α) := by
  intro state htracks
  refine ⟨⟨htracks, Nat.le_refl _⟩, rfl, fun found after hfound => ?_⟩
  cases (show EStateM.Result.error failure state = .ok found after from hfound)

theorem Quiet.bind {step : Step α} {next : α → Step β} (hstep : Quiet source good step)
    (hnext : ∀ value, good value → Quiet source fine (next value)) :
    Quiet source fine (step >>= next) := by
  intro state htracks
  obtain ⟨hfollows, hcounted, hgood⟩ := hstep htracks
  rw [bind_apply]
  cases hresult : step state with
  | error failure after =>
      rw [hresult] at hfollows hcounted
      exact ⟨hfollows, hcounted, by simp⟩
  | ok value between =>
      rw [hresult] at hfollows hcounted
      obtain ⟨hlast, hsame, hfine⟩ := hnext value (hgood value between hresult) hfollows.tracks
      exact ⟨hfollows.trans hlast, hsame.trans hcounted, hfine⟩

theorem quiet_scan {reading : Scan α} (hkeeps : Scan.Keeps source good reading)
    (hback : reading.NeverBack) : Quiet source good (scan reading) := by
  intro state htracks
  have hstays := hkeeps htracks
  have hle := hback state.cursor
  have hbefore := htracks.offset_add
  rw [scan_apply]
  cases hresult : reading state.cursor with
  | error error stop =>
      rw [hresult] at hstays hle
      have hafter := hstays.1.offset_add
      refine ⟨⟨hstays.1, ?_⟩, rfl, by simp⟩
      simp only [stateBehind, ConversionState.offset] at hle ⊢
      omega
  | ok value stop =>
      rw [hresult] at hstays hle
      have hafter := hstays.1.offset_add
      refine ⟨⟨hstays.1, ?_⟩, rfl, fun found after hfound => ?_⟩
      · simp only [stateBehind, ConversionState.offset] at hle ⊢
        omega
      · obtain ⟨rfl, -⟩ := EStateM.Result.ok.inj hfound
        exact hstays.2

theorem quiet_fault {problem : MarkupFault} : Quiet source good (fault problem : Step α) := by
  intro state htracks
  exact ⟨⟨htracks, Nat.le_refl _⟩, rfl, fun found after hfound => by cases hfound⟩

theorem quiet_require (condition : Bool) (problem : MarkupFault) :
    Quiet source (fun _ => True) (require condition problem) := by
  unfold require
  split
  · exact .pure trivial
  · exact quiet_fault

theorem quiet_countAttribute : Quiet source (fun _ => True) (count Metrics.countAttribute) := by
  intro state htracks
  exact ⟨⟨htracks, Nat.le_refl _⟩, rfl, fun _ _ _ => trivial⟩

theorem quiet_log (record : LogRecord) : Quiet source (fun _ => True) (log record) := by
  intro state htracks
  exact ⟨⟨htracks, Nat.le_refl _⟩, rfl, fun _ _ _ => trivial⟩

theorem quiet_get : Quiet source (fun _ => True) (get : Step ConversionState) := by
  intro state htracks
  exact ⟨⟨htracks, Nat.le_refl _⟩, rfl, fun _ _ _ => trivial⟩

theorem quiet_scalar (converter : Converter) (text : String) :
    Quiet source (fun _ => True) (scalar converter text) := by
  unfold scalar
  split
  · exact .pure trivial
  · split
    · exact .pure trivial
    · exact .throw

theorem quiet_token : Quiet source (fun _ => True) (scan Scan.nextToken) := by
  intro state htracks
  obtain ⟨hfollows, hcounted, -⟩ := quiet_scan Scan.keeps_nextToken Scan.neverBack_nextToken htracks
  exact ⟨hfollows, hcounted, fun _ _ _ => trivial⟩

end Step

open Step

section Quiet

variable {source : List Char} (converter : Converter)

theorem quiet_attributeRest : Quiet source (fun _ => True) (attributeRest converter) := by
  refine quiet_token.bind fun second _ => ?_
  split
  · exact quiet_token.bind fun value _ => (quiet_require _ _).bind fun _ _ =>
      (quiet_scalar _ _).bind fun _ _ => quiet_countAttribute.bind fun _ _ =>
        quiet_token.bind fun _ _ => .pure trivial
  · exact quiet_countAttribute.bind fun _ _ => .pure trivial

theorem quiet_tagEnd (token : Token) : Quiet source (fun _ => True) (tagEnd token) := by
  unfold tagEnd
  split
  · exact quiet_token.bind fun _ _ => (quiet_require _ _).bind fun _ _ => .pure trivial
  · exact (quiet_require _ _).bind fun _ _ => .pure trivial

theorem quiet_attributes (object : Object) (token : Token) :
    Quiet source (fun _ => True) (attributes converter object token) := by
  intro state htracks
  fun_induction attributes converter object token state with
  | case1 object token state hname failure after hrun =>
      have hrest := quiet_attributeRest converter htracks
      rw [Onward.error_of_run hrun] at hrest
      exact ⟨hrest.1, hrest.2.1, by simp⟩
  | case2 object token state hname value next between shorter hrun ih =>
      obtain ⟨hfollows, hcounted, -⟩ := quiet_attributeRest converter htracks
      rw [Onward.ok_of_run hrun] at hfollows hcounted
      obtain ⟨hlast, hsame, -⟩ := ih hfollows.tracks
      exact ⟨hfollows.trans hlast, hsame.trans hcounted, fun _ _ _ => trivial⟩
  | case3 object token state hname failure after hend =>
      have hending := quiet_tagEnd token htracks
      rw [hend] at hending
      exact ⟨hending.1, hending.2.1, by simp⟩
  | case4 object token state hname ending after hend =>
      have hending := quiet_tagEnd token htracks
      rw [hend] at hending
      exact ⟨hending.1, hending.2.1, fun _ _ _ => trivial⟩

theorem quiet_textPiece (text : String) :
    Quiet source (fun piece => piece.closes = false) (textPiece converter text) := by
  unfold textPiece
  split
  · exact .pure rfl
  · exact (quiet_scalar _ _).bind fun _ _ => .pure rfl

end Quiet

/-! ## One piece of markup -/

/-- Whether a step stays in `source`, never goes back, and counts one piece of markup unless it
reads a close tag or fails. -/
def Step.CountsOne (source : List Char) (step : Step Piece) : Prop :=
  ∀ ⦃state : ConversionState⦄, state.cursor.Tracks source →
    state.Follows source (stateBehind (step state)) ∧
      match step state with
      | .ok piece after =>
          after.metrics.markups + piece.closes.toNat = state.metrics.markups + 1
      | .error _ after => after.metrics.markups ≤ state.metrics.markups + 1

namespace Step

variable {α : Type} {source : List Char} {good : α → Prop}

theorem Quiet.then_one {step : Step α} {next : α → Step Piece} (hstep : Quiet source good step)
    (hnext : ∀ value, good value → CountsOne source (next value)) :
    CountsOne source (step >>= next) := by
  intro state htracks
  obtain ⟨hfollows, hcounted, hgood⟩ := hstep htracks
  rw [bind_apply]
  cases hresult : step state with
  | error failure after =>
      rw [hresult] at hfollows hcounted
      exact ⟨hfollows, Nat.le_succ_of_le (Nat.le_of_eq hcounted)⟩
  | ok value between =>
      rw [hresult] at hfollows hcounted
      dsimp only [stateBehind] at hfollows hcounted
      obtain ⟨hlast, hone⟩ := hnext value (hgood value between hresult) hfollows.tracks
      refine ⟨hfollows.trans hlast, ?_⟩
      rwa [hcounted] at hone

/-- A close tag is read and not counted. -/
theorem CountsOne.of_closes {step : Step Piece}
    (h : Quiet source (fun piece => piece.closes = true) step) : CountsOne source step := by
  intro state htracks
  obtain ⟨hfollows, hcounted, hcloses⟩ := h htracks
  refine ⟨hfollows, ?_⟩
  cases hresult : step state with
  | error failure after =>
      rw [hresult] at hcounted
      exact Nat.le_succ_of_le (Nat.le_of_eq hcounted)
  | ok piece after =>
      rw [hresult] at hcounted
      dsimp only [stateBehind] at hcounted ⊢
      rw [hcounted, hcloses piece after hresult]
      rfl

/-- Anything else is counted, even if it fails behind that. -/
theorem CountsOne.of_count {change : Metrics → Metrics} {next : Unit → Step Piece}
    (hchange : ∀ metrics, (change metrics).markups = metrics.markups + 1)
    (hnext : Quiet source (fun piece => piece.closes = false) (next ())) :
    CountsOne source (count change >>= next) := by
  intro state htracks
  obtain ⟨hfollows, hcounted, hcloses⟩ :=
    @hnext { state with metrics := change state.metrics } htracks
  rw [bind_apply, count_apply]
  dsimp only at hfollows hcounted hcloses ⊢
  rw [hchange] at hcounted
  refine ⟨⟨hfollows.tracks, hfollows.offset_le⟩, ?_⟩
  cases hresult : next () { state with metrics := change state.metrics } with
  | error failure after =>
      rw [hresult] at hcounted
      exact Nat.le_of_eq hcounted
  | ok piece after =>
      rw [hresult] at hcounted
      dsimp only [stateBehind] at hcounted ⊢
      rw [hcloses piece after hresult]
      exact hcounted

end Step

section OnePiece

variable {source : List Char} (converter : Converter)

theorem countsOne_processingInstruction : CountsOne source processingInstruction :=
  (quiet_scan (Scan.keeps_skipPast _ (by simp)) (Scan.neverBack_skipPast _ _)).then_one fun _ _ =>
    .of_count (fun _ => by simp [Metrics.markups, Metrics.countInstruction]; omega) (.pure rfl)

theorem countsOne_cdataSection : CountsOne source (cdataSection converter) :=
  quiet_token.then_one fun _ _ => (quiet_require _ _).then_one fun _ _ =>
    (quiet_scan Scan.keeps_cdataBracket Scan.neverBack_cdataBracket).then_one fun _ _ =>
      (quiet_scan Scan.keeps_cdataText Scan.neverBack_cdataText).then_one fun text _ =>
        .of_count (fun _ => rfl) (quiet_textPiece converter text)

theorem countsOne_declaration : CountsOne source (declaration converter) := by
  refine (quiet_scan Scan.keeps_markupSort Scan.neverBack_markupSort).then_one fun sort _ => ?_
  cases sort with
  | comment =>
      exact (quiet_scan (Scan.keeps_skipPast _ (by simp))
        (Scan.neverBack_skipPast _ _)).then_one fun _ _ =>
          .of_count (fun _ => by simp [Metrics.markups, Metrics.countComment]; omega) (.pure rfl)
  | bracketed => exact countsOne_cdataSection converter
  | declaration =>
      exact (quiet_scan (Scan.keeps_declarationEnd 0)
        (Scan.neverBack_declarationEnd 0)).then_one fun _ _ =>
          .of_count (fun _ => by simp [Metrics.markups, Metrics.countDeclaration]; omega)
            ((quiet_log _).bind fun _ _ => .pure rfl)

theorem countsOne_closingTag (enclosing : Option String) :
    CountsOne source (closingTag enclosing) := by
  refine .of_closes (quiet_token.bind fun name _ => ?_)
  cases enclosing with
  | none => exact quiet_fault
  | some tag =>
      exact (quiet_require _ _).bind fun _ _ => quiet_token.bind fun _ _ =>
        (quiet_require _ _).bind fun _ _ => .pure rfl

theorem countsOne_openingTag (depth : Nat) (name : Token) :
    CountsOne source (openingTag converter depth name) := by
  unfold openingTag
  dsimp only
  split
  · exact .of_closes .throw
  · split
    · exact .of_closes (quiet_get.bind fun _ _ => .throw)
    · refine .of_count (fun _ => by
        simp [Metrics.markups, Metrics.countElement, Metrics.recordDepth]; omega) ?_
      refine quiet_token.bind fun first _ => (quiet_attributes _ _ _).bind fun found _ => ?_
      rcases found with ⟨object, - | -⟩
      · exact .pure rfl
      · exact .pure rfl

theorem countsOne_markup (enclosing : Option String) (depth : Nat) :
    CountsOne source (markup converter enclosing depth) := by
  refine quiet_token.then_one fun token _ => ?_
  split
  · exact countsOne_declaration converter
  · split
    · exact countsOne_processingInstruction
    · split
      · exact countsOne_closingTag enclosing
      · split
        · exact countsOne_openingTag converter depth token
        · exact .of_closes quiet_fault

end OnePiece

/-! ## Calls -/

/-- A call that reads the markup behind a `<`. -/
structure Call where
  /-- The offset of the `<`. -/
  less : Nat
  /-- Whether a close tag is read. -/
  closes : Bool
  deriving DecidableEq, Repr

/-- The number of close tags that are read. -/
def closings (calls : List Call) : Nat := calls.countP (·.closes)

/-- Whether what comes of reading markup is a close tag. -/
def readsClose : EStateM.Result Failure ConversionState Piece → Bool
  | .ok piece _ => piece.closes
  | .error _ _ => false

/-- The calls for the next piece of an element: none if that is a text or does not come. -/
def contentCalls (converter : Converter) (tag : String) (depth : Nat) (state : ConversionState) :
    List Call :=
  match Scan.nextContent state.cursor with
  | .ok (some token) _ =>
      if token.kind == .text then []
      else [⟨token.position.offset, readsClose (content converter tag depth state)⟩]
  | _ => []

/-- The calls of `elementWithin`, those for the elements inside it included. -/
def elementCalls (converter : Converter) (tag : String) (depth : Nat) (state : ConversionState) :
    List Call :=
  contentCalls converter tag depth state ++
    match Onward.run (content converter tag depth) (strictlyForward_content converter tag depth)
        state with
    | .error .. => []
    | .ok .closed .. => []
    | .ok .skipped after _ => elementCalls converter tag depth after
    | .ok (.contribution ..) after _ => elementCalls converter tag depth after
    | .ok (.opened child attributes) after _ =>
        elementCalls converter child (depth + 1) after ++
          match element converter child (depth + 1) attributes after with
          | .error .. => []
          | .ok _ behind _ => elementCalls converter tag depth behind
  termination_by state.remaining

/-- The calls of `document`. -/
def documentCalls (converter : Converter) (state : ConversionState) : List Call :=
  match state.pastLess? with
  | none => []
  | some ⟨opened, _⟩ =>
      ⟨opened.offset - 1, readsClose (markup converter none 0 opened)⟩ ::
        match Onward.run (markup converter none 0) (strictlyForward_markup converter none 0)
            opened with
        | .error .. => []
        | .ok .closed after _ => documentCalls converter after
        | .ok .skipped after _ => documentCalls converter after
        | .ok (.contribution ..) after _ => documentCalls converter after
        | .ok (.opened tag attributes) after _ =>
            elementCalls converter tag 1 after ++
              match element converter tag 1 attributes after with
              | .error .. => []
              | .ok _ behind _ => documentCalls converter behind
  termination_by state.remaining

/-! ## Accounts -/

/-- Whether the `<` of calls stand in `source` one behind the other, from `first` on and in front of
`last`. -/
inductive InOrder (source : List Char) : Nat → List Call → Nat → Prop where
  | nil {first last : Nat} : first ≤ last → InOrder source first [] last
  | cons {first last : Nat} {call : Call} {calls : List Call} :
      first ≤ call.less → source[call.less]? = some '<' →
      InOrder source (call.less + 1) calls last → InOrder source first (call :: calls) last

namespace InOrder

variable {source : List Char} {first between last : Nat} {calls others : List Call}

theorem weaken (h : InOrder source between calls last) (hle : first ≤ between) :
    InOrder source first calls last := by
  cases h with
  | nil hlast => exact .nil (Nat.le_trans hle hlast)
  | cons hfirst hless hrest => exact .cons (Nat.le_trans hle hfirst) hless hrest

theorem append (h : InOrder source first calls between)
    (hothers : InOrder source between others last) :
    InOrder source first (calls ++ others) last := by
  induction h with
  | nil hle => exact hothers.weaken hle
  | cons hfirst hless _ ih => exact .cons hfirst hless (ih hothers)

theorem less_of_mem (h : InOrder source first calls last) :
    ∀ call ∈ calls, first ≤ call.less ∧ source[call.less]? = some '<' := by
  induction h with
  | nil hle => simp
  | cons hfirst hless _ ih =>
      rw [List.forall_mem_cons]
      refine ⟨⟨hfirst, hless⟩, fun call hcall => ?_⟩
      obtain ⟨hle, hcallLess⟩ := ih call hcall
      exact ⟨by omega, hcallLess⟩

theorem pairwise (h : InOrder source first calls last) :
    calls.Pairwise fun call other => call.less < other.less := by
  induction h with
  | nil hle => exact .nil
  | cons hfirst hless hrest ih =>
      exact .cons (fun call hcall => (hrest.less_of_mem call hcall).1) ih

/-- Calls in order are no more than the `<` that come. -/
theorem length_le (h : InOrder source first calls last) :
    calls.length ≤ (source.drop first).count '<' := by
  induction h with
  | nil hle => exact Nat.zero_le _
  | @cons first last call calls hfirst hless _ ih =>
      obtain ⟨hlt, hget⟩ := List.getElem?_eq_some_iff.1 hless
      have hsplit : source.drop call.less = '<' :: source.drop (call.less + 1) := by
        rw [List.drop_eq_getElem_cons hlt, hget]
      have hsublist : (source.drop call.less).Sublist (source.drop first) := by
        rw [← Nat.add_sub_of_le hfirst, ← List.drop_drop]
        exact List.drop_sublist _ _
      calc (call :: calls).length
          = calls.length + 1 := rfl
        _ ≤ (source.drop (call.less + 1)).count '<' + 1 := Nat.succ_le_succ ih
        _ = (source.drop call.less).count '<' := by rw [hsplit, List.count_cons_self]
        _ ≤ (source.drop first).count '<' := hsublist.count_le _

end InOrder

/-- Whether calls have been paid for on the way from one state to another, also if the last of them
has failed. -/
structure Paid (source : List Char) (calls : List Call) (before after : ConversionState) :
    Prop where
  follows : before.Follows source after
  inOrder : InOrder source before.offset calls after.offset
  counted_le : after.metrics.markups + closings calls ≤ before.metrics.markups + calls.length

/-- Whether calls have been paid for, and every one has been counted or has read a close tag. -/
structure Settled (source : List Char) (calls : List Call) (before after : ConversionState) : Prop
    extends Paid source calls before after where
  counted : after.metrics.markups + closings calls = before.metrics.markups + calls.length

/-- Whether calls are those that a part of a conversion makes, which succeeds or fails. -/
def Accounted {α : Type} (source : List Char) (before : ConversionState) (calls : List Call) :
    EStateM.Result Failure ConversionState α → Prop
  | .ok _ after => Settled source calls before after
  | .error _ after => Paid source calls before after

section Accounts

variable {α : Type} {source : List Char} {before between after : ConversionState}
  {calls others : List Call}

theorem Paid.of_follows (h : before.Follows source after)
    (hmarkups : after.metrics.markups = before.metrics.markups) : Paid source [] before after where
  follows := h
  inOrder := .nil h.offset_le
  counted_le := Nat.le_of_eq hmarkups

theorem Settled.of_follows (h : before.Follows source after)
    (hmarkups : after.metrics.markups = before.metrics.markups) :
    Settled source [] before after where
  toPaid := .of_follows h hmarkups
  counted := hmarkups

theorem Settled.append_paid (h : Settled source calls before between)
    (hothers : Paid source others between after) : Paid source (calls ++ others) before after where
  follows := h.follows.trans hothers.follows
  inOrder := h.inOrder.append hothers.inOrder
  counted_le := by
    have hfirst := h.counted
    have hsecond := hothers.counted_le
    rw [closings, List.countP_append, List.length_append]
    rw [closings] at hfirst hsecond
    omega

theorem Settled.append {result : EStateM.Result Failure ConversionState α}
    (h : Settled source calls before between) (hothers : Accounted source between others result) :
    Accounted source before (calls ++ others) result := by
  cases result with
  | error failure after => exact h.append_paid hothers
  | ok value after =>
      refine ⟨h.append_paid hothers.toPaid, ?_⟩
      have hfirst := h.counted
      have hsecond := hothers.counted
      rw [closings, List.countP_append, List.length_append]
      rw [closings] at hfirst hsecond
      omega

theorem Accounted.paid {result : EStateM.Result Failure ConversionState α}
    (h : Accounted source before calls result) : Paid source calls before (stateBehind result) := by
  cases result with
  | error failure after => exact h
  | ok value after => exact h.toPaid

/-- A step that counts nothing needs no call. -/
theorem Step.Quiet.accounted {good : α → Prop} {step : Step α} (h : Quiet source good step)
    (hfollows : before.Follows source between)
    (hmarkups : between.metrics.markups = before.metrics.markups) :
    Accounted source before [] (step between) := by
  obtain ⟨hlast, hcounted, -⟩ := h hfollows.tracks
  cases hresult : step between with
  | error failure after =>
      rw [hresult] at hlast hcounted
      exact .of_follows (hfollows.trans hlast) (hcounted.trans hmarkups)
  | ok value after =>
      rw [hresult] at hlast hcounted
      exact .of_follows (hfollows.trans hlast) (hcounted.trans hmarkups)

/-- A call is paid for by the `<` behind which it begins. -/
theorem accounted_markup {converter : Converter} {enclosing : Option String} {depth less : Nat}
    (hfollows : before.Follows source between) (hle : before.offset ≤ less)
    (hless : source[less]? = some '<') (hbetween : between.offset = less + 1)
    (hmarkups : between.metrics.markups = before.metrics.markups) :
    Accounted source before [⟨less, readsClose (markup converter enclosing depth between)⟩]
      (markup converter enclosing depth between) := by
  obtain ⟨hlast, hone⟩ := countsOne_markup converter enclosing depth hfollows.tracks
  have horder : ∀ closes,
      InOrder source before.offset [⟨less, closes⟩]
        (stateBehind (markup converter enclosing depth between)).offset := by
    intro closes
    refine .cons hle hless (.nil ?_)
    rw [← hbetween]
    exact hlast.offset_le
  rw [hmarkups] at hone
  cases hresult : markup converter enclosing depth between with
  | error failure after =>
      rw [hresult] at hone hlast horder
      exact ⟨hfollows.trans hlast, horder false, hone⟩
  | ok piece after =>
      rw [hresult] at hone hlast horder
      have hcounted : after.metrics.markups + closings [⟨less, piece.closes⟩] =
          before.metrics.markups + 1 := by
        refine Eq.trans ?_ hone
        cases hcloses : piece.closes <;> simp [closings]
      exact ⟨⟨hfollows.trans hlast, horder piece.closes, Nat.le_of_eq hcounted⟩, hcounted⟩

end Accounts

/-! ## Runs -/

/-- Where the next character of a text stands. -/
theorem Cursor.Tracks.getElem?_of_rest {source rest : List Char} {cursor : Cursor} {c : Char}
    (h : cursor.Tracks source) (hrest : cursor.rest = c :: rest) :
    source[cursor.position.offset]? = some c := by
  rw [← List.head?_drop, ← h.countedIn.2, hrest]
  rfl

/-- A piece between two tags that is no text begins with a `<`. -/
theorem less_of_nextContent {source : List Char} {cursor stop : Cursor} {token : Token}
    (htracks : cursor.Tracks source) (h : Scan.nextContent cursor = .ok (some token) stop)
    (hkind : ¬ (token.kind == .text) = true) :
    cursor.position.offset ≤ token.position.offset ∧
      source[token.position.offset]? = some '<' ∧
      stop.position.offset = token.position.offset + 1 := by
  have hstart := htracks.skipBlanks
  have hblanks := Scan.remaining_skipBlanks_le cursor
  simp only [Scan.nextContent] at h
  split at h
  · simp at h
  · next c rest hrest =>
      split at h
      · next hless =>
          subst hless
          obtain ⟨hsome, rfl⟩ := EStateM.Result.ok.inj h
          obtain rfl := Option.some.inj hsome
          have hremaining : (Scan.skipBlanks cursor).remaining = rest.length + 1 := by
            rw [Cursor.remaining, hrest, List.length_cons]
          have hnext := Cursor.remaining_next (Scan.skipBlanks cursor)
          have hbefore := htracks.offset_add
          have hbetween := hstart.offset_add
          have hafter := hstart.next.offset_add
          refine ⟨?_, hstart.getElem?_of_rest hrest, ?_⟩
          · show _ ≤ (Scan.skipBlanks cursor).position.offset
            omega
          · show _ = (Scan.skipBlanks cursor).position.offset + 1
            omega
      · split at h
        · simp [Scan.fail] at h
        · obtain ⟨hsome, -⟩ := EStateM.Result.ok.inj h
          obtain rfl := Option.some.inj hsome
          exact absurd rfl hkind

/-- Outside every element the next `<` is looked for. -/
theorem less_of_pastLess? {source : List Char} {state opened : ConversionState}
    (htracks : state.cursor.Tracks source) {shorter : opened.remaining < state.remaining}
    (h : state.pastLess? = some ⟨opened, shorter⟩) :
    state.Follows source opened ∧ opened.metrics = state.metrics ∧
      ∃ less, state.offset ≤ less ∧ source[less]? = some '<' ∧ opened.offset = less + 1 := by
  unfold ConversionState.pastLess? at h
  split at h
  · simp at h
  · next index hindex =>
      obtain rfl := congrArg Subtype.val (Option.some.inj h)
      obtain ⟨before, behind, hrest, rfl, -⟩ := Text.exists_of_indexOf? hindex
      have hless : (state.cursor.skip before.length).rest = '<' :: behind := rest_skip hrest
      have hlength : state.cursor.remaining = before.length + (behind.length + 1) := by
        rw [Cursor.remaining, hrest, List.length_append]
        rfl
      have hbefore := htracks.offset_add
      have hat := (htracks.skip before.length).offset_add
      have hbehind := (htracks.skip (before.length + 1)).offset_add
      rw [Cursor.remaining_skip] at hat hbehind
      refine ⟨⟨htracks.skip _, ?_⟩, rfl, (state.cursor.skip before.length).position.offset, ?_,
        (htracks.skip _).getElem?_of_rest hless, ?_⟩
      · simp only [ConversionState.offset]
        omega
      · simp only [ConversionState.offset]
        omega
      · simp only [ConversionState.offset]
        omega

section Runs

variable {source : List Char} {converter : Converter} {state : ConversionState} {tag : String}
  {depth : Nat}

theorem accounted_content (htracks : state.cursor.Tracks source) :
    Accounted source state (contentCalls converter tag depth state)
      (content converter tag depth state) := by
  obtain ⟨hfollows, -, -⟩ := quiet_scan Scan.keeps_nextContent Scan.neverBack_nextContent htracks
  have hcontent : content converter tag depth state = _ :=
    bind_apply (scan Scan.nextContent) _ state
  rw [scan_apply] at hfollows hcontent
  unfold contentCalls
  rw [hcontent]
  cases hnext : Scan.nextContent state.cursor with
  | error error stop =>
      rw [hnext] at hfollows
      exact .of_follows hfollows rfl
  | ok token? stop =>
      rw [hnext] at hfollows
      cases token? with
      | none => exact .of_follows hfollows rfl
      | some token =>
          dsimp only
          by_cases hkind : (token.kind == .text) = true
          · rw [if_pos hkind, if_pos hkind]
            exact (quiet_textPiece converter token.value).accounted hfollows rfl
          · rw [if_neg hkind, if_neg hkind]
            obtain ⟨hle, hless, hstop⟩ := less_of_nextContent htracks hnext hkind
            exact accounted_markup hfollows hle hless hstop rfl

theorem accounted_elementWithin {object : Object} {bound : Nat} (inside : state.remaining ≤ bound)
    (htracks : state.cursor.Tracks source) :
    Accounted source state (elementCalls converter tag depth state)
      (elementWithin converter tag depth object bound state inside).toResult := by
  -- Every case begins with the calls for one piece of the element.
  have hcontent : ∀ {tag : String} {depth : Nat} {state : ConversionState} {outcome},
      state.cursor.Tracks source →
      Onward.run (content converter tag depth) (strictlyForward_content converter tag depth) state =
        outcome →
      Accounted source state (contentCalls converter tag depth state) outcome.toResult := by
    rintro tag depth state outcome htracks rfl
    rw [Onward.toResult_run]
    exact accounted_content htracks
  fun_induction elementWithin converter tag depth object bound state inside with
  | case1 tag depth object bound state inside failure after hrun =>
      rw [elementCalls, hrun, List.append_nil]
      exact hcontent htracks hrun
  | case2 tag depth object bound state inside after shorter hrun =>
      rw [elementCalls, hrun, List.append_nil]
      exact hcontent htracks hrun
  | case3 tag depth object bound state inside after shorter hrun ih =>
      have hpiece := hcontent htracks hrun
      rw [elementCalls, hrun]
      exact hpiece.append (ih hpiece.follows.tracks)
  | case4 tag depth object bound state inside key value after shorter hrun ih =>
      have hpiece := hcontent htracks hrun
      rw [elementCalls, hrun]
      exact hpiece.append (ih hpiece.follows.tracks)
  | case5 tag depth object bound state inside child attributes after shorter hrun failure behind
      hinner ih =>
      have hpiece := hcontent htracks hrun
      have hchild := ih hpiece.follows.tracks
      rw [hinner] at hchild
      rw [elementCalls, hrun]
      dsimp only
      rw [element, hinner, List.append_nil]
      exact hpiece.append_paid hchild
  | case6 tag depth object bound state inside child attributes after shorter hrun inner behind
      further hinner ih ihbehind =>
      have hpiece := hcontent htracks hrun
      have hchild := ih hpiece.follows.tracks
      rw [hinner] at hchild
      rw [elementCalls, hrun]
      dsimp only
      rw [element, hinner]
      exact hpiece.append (hchild.append (ihbehind hchild.follows.tracks))

theorem accounted_element {object : Object} (htracks : state.cursor.Tracks source) :
    Accounted source state (elementCalls converter tag depth state)
      (element converter tag depth object state).toResult :=
  accounted_elementWithin (Nat.le_refl _) htracks

theorem follows_atEnd (htracks : state.cursor.Tracks source) :
    state.Follows source state.atEnd := by
  have hle := state.cursor.remaining_skip_le state.cursor.remaining
  have hbefore := htracks.offset_add
  have hafter := htracks.skipAll.offset_add
  refine ⟨htracks.skipAll, ?_⟩
  simp only [ConversionState.offset, ConversionState.atEnd, Cursor.skipAll] at hafter ⊢
  omega

theorem accounted_document {root : Object} (htracks : state.cursor.Tracks source) :
    Accounted source state (documentCalls converter state) (document converter root state) := by
  -- Every case but the first begins with the call behind the next `<`.
  have hmarkup : ∀ {state opened : ConversionState} {shorter : opened.remaining < state.remaining}
      {outcome}, state.cursor.Tracks source → state.pastLess? = some ⟨opened, shorter⟩ →
      Onward.run (markup converter none 0) (strictlyForward_markup converter none 0) opened =
        outcome →
      Accounted source state [⟨opened.offset - 1, readsClose (markup converter none 0 opened)⟩]
        outcome.toResult := by
    rintro state opened shorter outcome htracks hpast rfl
    obtain ⟨hfollows, hmetrics, less, hle, hless, hopened⟩ := less_of_pastLess? htracks hpast
    rw [Onward.toResult_run, hopened, Nat.add_sub_cancel]
    exact accounted_markup hfollows hle hless hopened (by rw [hmetrics])
  fun_induction document converter root state with
  | case1 root state hnone =>
      rw [documentCalls, hnone]
      exact .of_follows (follows_atEnd htracks) rfl
  | case2 root state opened shorter hpast failure after hrun =>
      rw [documentCalls, hpast]
      dsimp only
      rw [hrun]
      exact hmarkup htracks hpast hrun
  | case3 root state opened shorter hpast after further hrun ih =>
      have hcall := hmarkup htracks hpast hrun
      rw [documentCalls, hpast]
      dsimp only
      rw [hrun]
      exact hcall.append (ih hcall.follows.tracks)
  | case4 root state opened shorter hpast after further hrun ih =>
      have hcall := hmarkup htracks hpast hrun
      rw [documentCalls, hpast]
      dsimp only
      rw [hrun]
      exact hcall.append (ih hcall.follows.tracks)
  | case5 root state opened shorter hpast key value after further hrun ih =>
      have hcall := hmarkup htracks hpast hrun
      rw [documentCalls, hpast]
      dsimp only
      rw [hrun]
      exact hcall.append (ih hcall.follows.tracks)
  | case6 root state opened shorter hpast tag attributes after further hrun failure behind hinner =>
      have hcall := hmarkup htracks hpast hrun
      have hchild : Accounted source after (elementCalls converter tag 1 after)
          (element converter tag 1 attributes after).toResult :=
        accounted_element hcall.follows.tracks
      rw [hinner] at hchild
      rw [documentCalls, hpast]
      dsimp only
      rw [hrun]
      dsimp only
      rw [hinner, List.append_nil]
      exact hcall.append_paid hchild
  | case7 root state opened shorter hpast tag attributes after further hrun inner behind shortest
      hinner ih =>
      have hcall := hmarkup htracks hpast hrun
      have hchild : Accounted source after (elementCalls converter tag 1 after)
          (element converter tag 1 attributes after).toResult :=
        accounted_element hcall.follows.tracks
      rw [hinner] at hchild
      rw [documentCalls, hpast]
      dsimp only
      rw [hrun]
      dsimp only
      rw [hinner]
      exact hcall.append (hchild.append (ih hchild.follows.tracks))

end Runs

namespace Converter

variable (converter : Converter) (text : String)

/-- The calls of a conversion: none if the text is too long. -/
def calls : List Call :=
  match converter.exceededLimit? text with
  | some _ => []
  | none => documentCalls converter (converter.initialState text)

/-- The counters when a conversion ends, also if it fails. -/
def countersAtEnd : Metrics :=
  match converter.exceededLimit? text with
  | some _ => {}
  | none => (stateBehind (document converter .empty (converter.initialState text))).metrics

variable {converter : Converter} {text : String}

theorem accounted_calls (converter : Converter) (text : String) :
    Accounted text.toList (converter.initialState text)
      (documentCalls converter (converter.initialState text))
      (document converter .empty (converter.initialState text)) :=
  accounted_document (.ofText text)

theorem inOrder_calls (converter : Converter) (text : String) :
    ∃ last, InOrder text.toList 0 (converter.calls text) last := by
  unfold calls
  cases converter.exceededLimit? text with
  | some limit => exact ⟨0, .nil (Nat.le_refl _)⟩
  | none => exact ⟨_, (accounted_calls converter text).paid.inOrder⟩

theorem counters_le :
    (converter.countersAtEnd text).markups + closings (converter.calls text) ≤
      (converter.calls text).length := by
  unfold countersAtEnd calls
  cases converter.exceededLimit? text with
  | some limit => exact Nat.le_refl _
  | none =>
      -- Nothing has been counted at the start.
      exact Nat.le_trans (accounted_calls converter text).paid.counted_le
        (Nat.le_of_eq (Nat.zero_add _))

/-- A conversion that succeeds has counted every call or read a close tag with it. -/
theorem counters_of_convert {found : Conversion}
    (h : (converter.convert text).outcome = .ok found) :
    found.metrics = converter.countersAtEnd text ∧
      found.metrics.markups + closings (converter.calls text) =
        (converter.calls text).length := by
  unfold convert at h
  unfold countersAtEnd calls
  cases hlength : converter.exceededLimit? text with
  | some limit => simp [hlength] at h
  | none =>
      have hrun := accounted_calls converter text
      rw [hlength] at h
      cases hresult : document converter .empty (converter.initialState text) with
      | error failure after => cases failure <;> simp [hresult] at h
      | ok root after =>
          rw [hresult] at hrun
          simp only [hresult] at h
          obtain rfl := Except.ok.inj h
          exact ⟨rfl, hrun.counted.trans (Nat.zero_add _)⟩

end Converter

/-- Reading a text makes progress, wherever it has come to: no operation but stepping back goes
back, whatever comes of it, and a token is further on.  There are no more events than characters.

The calls of a conversion begin behind different `<` of the text, one behind the other.  What is
counted, and the close tags that are read, are no more than the calls, also if the conversion fails;
and if it does not, they are exactly the calls. -/
theorem progress_of_text (text : String) :
    (∀ operations : List Operation, ∀ operation : Operation,
      let cursor := Operation.run operations (.ofText text)
      (operation ≠ .back →
        cursor.position.offset ≤ (Operation.after cursor operation).position.offset) ∧
      ∀ token stop, operation.perform cursor = .ok (.token (some token)) stop →
        cursor.position.offset < stop.position.offset) ∧
    (Trace.ofText text).entries.length ≤ text.length ∧
    ∀ converter : Converter,
      let calls := converter.calls text
      (calls.Pairwise fun call other => call.less < other.less) ∧
      (∀ call ∈ calls, text.toList[call.less]? = some '<') ∧
      calls.length ≤ text.toList.count '<' ∧
      (converter.countersAtEnd text).markups + closings calls ≤ calls.length ∧
      ∀ found, (converter.convert text).outcome = .ok found →
        found.metrics = converter.countersAtEnd text ∧
        found.metrics.markups + closings calls = calls.length := by
  refine ⟨fun operations operation => ?_, ?_, fun converter => ?_⟩
  · have htracks := Operation.tracks_run (.ofText text) operations
    exact ⟨offset_le_after htracks, fun token stop htoken => offset_lt_of_token htracks htoken⟩
  · refine Nat.le_trans (Reader.length_trace_le _) (Nat.le_of_eq ?_)
    exact String.length_toList
  · obtain ⟨last, horder⟩ := converter.inOrder_calls text
    refine ⟨horder.pairwise, fun call hcall => (horder.less_of_mem call hcall).2, ?_,
      Converter.counters_le, fun found hfound => Converter.counters_of_convert hfound⟩
    exact horder.length_le

/-- The element that is not closed has been counted, and the call in front of the fault has not. -/
example : (({} : Converter).calls "<a><b/><c></a>").map (·.less) = [0, 3, 7, 10] ∧
    (({} : Converter).countersAtEnd "<a><b/><c></a>").markups = 3 := by
  decide +kernel

end XmlToJson

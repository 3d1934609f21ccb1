import XmlToJson.Proofs.Locality

/-!
# Texts that share a part

Two readers that stand in front of the same characters meet the same events there, wherever that is
and whatever was read before.  Where the shared part ends, the next character has to be the same, or
the last event ends with a character of its own.

* **One event.**  `Locality.lean` says of single scans that they echo each other.  Here they are put
  together to pieces of markup and to events (`echoes_markupReading`, `echoes_contentReading`,
  `echoes_tagReading`).  `Event.IsDelimited` says that the last character of an event shows that it
  ends there; the name of an element or an attribute and a text go on until something else comes.
  `echoes_nextReading` has both cases.
* **Several events.**  `Alike` says that two readers have the same open, and the same token read
  ahead.  One event keeps them alike (`Alike.step`), and `Advances.echoes` is the induction.
* **The end of a text.**  A reader that meets no fault up to the end of its text also meets the same
  events with more text behind that, and then stands outside every element
  (`Reader.advances_of_trace`).  What goes on to the end of a text without an end of its own would
  be a fault: a text that ends while something is open has one (`fault_of_open`), and an event that
  is not delimited leaves something open (`open_of_not_delimited`).  So the last event in front of
  the end is delimited, and anything may follow.

Only an attribute without a value leaves a token that has been read ahead
(`pending_of_nextReading`).  Between two tags there is none, which is why two readers there are the
same as soon as the same is open (`Alike.eq_between`).
-/

namespace XmlToJson

/-! ## Pieces of markup -/

namespace Token

variable {token found : Token}

theorem isThe_of_plain (h : found.plain = token.plain) (marker : Marker) :
    found.isThe marker = token.isThe marker := by
  simp only [isThe, (Prod.mk.inj h).1]

theorem isIdentifier_of_plain (h : found.plain = token.plain) :
    found.isIdentifier = token.isIdentifier := by
  simp only [isIdentifier, (Prod.mk.inj h).1]

theorem value_of_plain (h : found.plain = token.plain) : found.value = token.value :=
  (Prod.mk.inj h).2

/-- A marker is no name. -/
theorem kind_ne_name {marker : Marker} (h : token.isThe marker = true) : token.kind ≠ .name := by
  intro hname
  simp [isThe, hname] at h

end Token

/-- A reading without its places. -/
def Reading.plain (reading : Reading) : Event × Option (TokenKind × String) :=
  (reading.event, reading.pending.map Token.plain)

/-- Whether the last character of an event says that it ends there.  The name of an element or
an attribute and a text go on until something else comes. -/
def Event.IsDelimited : Event → Prop
  | .opened _ | .attr .. | .text _ => False
  | _ => True

/-- A step that moves on does so behind one that does not move back. -/
theorem Forward.bind_strictly {ε σ α β : Type} {size : σ → Nat} {step : EStateM ε σ α}
    {next : α → EStateM ε σ β} (hstep : Forward size step)
    (hnext : ∀ value, StrictlyForward size (next value)) :
    StrictlyForward size (step >>= next) := by
  intro before found after h
  obtain ⟨first, between, hfirst, hlast⟩ := ok_of_bind h
  exact Nat.lt_of_lt_of_le (hnext first hlast) (hstep hfirst)

namespace Scan

variable {α β : Type} {plain : α → β} {settled weaker : α → Prop} {first second : Scan α}

/-- Fewer values may count as settled. -/
theorem Echoes.mono (h : Echoes plain settled first second)
    (hsettled : ∀ ⦃cursor value stop⦄, first cursor = .ok value stop → weaker value →
      settled value) : Echoes plain weaker first second := by
  intro cursor value stop hfirst
  obtain ⟨used, hused, hecho⟩ := h hfirst
  exact ⟨used, hused, fun other tail hother htail =>
    hecho hother (htail.imp_left (hsettled hfirst))⟩

theorem strictlyForward_cdataText : StrictlyForward Cursor.remaining cdataText := by
  intro cursor value stop h
  unfold cdataText at h
  split at h
  · simp [fail] at h
  · next index hindex =>
      obtain ⟨-, rfl⟩ := EStateM.Result.ok.inj h
      have hle := Text.indexOf?_add_le hindex
      have hbrackets : "]]>".toList.length = 3 := rfl
      rw [Cursor.remaining_skip, Cursor.remaining]
      omega

theorem strictlyForward_declarationEnd (nesting : Nat) :
    StrictlyForward Cursor.remaining (declarationEnd nesting) := by
  intro cursor found stop h
  obtain ⟨body, hbody, hne, -⟩ := exists_of_pastDeclaration? (ok_of_declarationEnd h)
  have hlength := List.length_pos_iff.2 hne
  simp only [Cursor.remaining, hbody, List.length_append]
  omega

theorem echoes_exclamation : Echoes id (fun _ => True) exclamation exclamation := by
  refine echoes_markupSort.bind (fun sort found hsort => ?_) fun sort _ _ _ h _ => ?_
  · obtain rfl : found = sort := hsort
    cases found with
    | comment =>
        exact (echoes_textUntil _ _).bind (fun _ _ hbody => .pure (congrArg Event.comment hbody))
          fun _ _ _ _ _ _ => .inl trivial
    | bracketed =>
        -- The name may end anywhere, but its bracket has to follow.
        refine echoes_nextToken.bind (fun name found hname => ?_) fun name _ _ _ h _ => .inr ?_
        · rw [Token.isIdentifier_of_plain hname, Token.value_of_plain hname]
          refine echoes_demand.bind (fun _ _ _ => ?_) fun _ _ _ _ _ _ => .inl trivial
          refine echoes_cdataBracket.bind (fun _ _ _ => ?_) fun _ _ _ _ _ _ => .inl trivial
          exact echoes_cdataText.bind (fun _ _ htext => .pure (congrArg Event.cdata htext))
            fun _ _ _ _ _ _ => .inl trivial
        · exact (forward_demand _ _).bind_strictly (fun _ => forward_cdataBracket.bind_strictly
            fun _ => strictlyForward_cdataText.bind fun _ => .pure _) h
    | declaration =>
        exact (echoes_declarationEnd 0).bind (fun _ _ _ => .pure rfl)
          fun _ _ _ _ _ _ => .inl trivial
  · cases sort with
    | comment | bracketed => exact .inl (by simp)
    | declaration =>
        exact .inr ((strictlyForward_declarationEnd 0).bind (fun _ => .pure Event.declaration) h)

theorem echoes_closeTag (enclosing : Option String) :
    Echoes id (fun _ => True) (closeTag enclosing) (closeTag enclosing) := by
  refine echoes_nextToken.bind (fun name found hname => ?_) fun name _ _ _ h _ => ?_
  · cases enclosing with
    | none => exact .refuse
    | some tag =>
        dsimp only
        rw [Token.isIdentifier_of_plain hname, Token.value_of_plain hname]
        refine echoes_demand.bind (fun _ _ _ => ?_) fun _ _ _ _ _ _ => .inl trivial
        refine echoes_nextToken.bind (fun last found hlast => ?_) fun last _ _ _ h _ => .inl ?_
        · rw [Token.isThe_of_plain hlast]
          exact echoes_demand.bind (fun _ _ _ => .pure rfl) fun _ _ _ _ _ _ => .inl trivial
        · obtain ⟨_, _, hdemand, -⟩ := ok_of_bind h
          exact Token.kind_ne_name (ok_of_demand hdemand).1
  · cases enclosing with
    | none => simp [refuse, fail] at h
    | some tag =>
        exact .inr ((forward_demand _ _).bind_strictly (fun _ => strictlyForward_nextToken.bind
          fun _ => (forward_demand _ _).bind fun _ => .pure _) h)

theorem echoes_markupEvent (enclosing : Option String) {token found : Token}
    (h : found.plain = token.plain) :
    Echoes id Event.IsDelimited (markupEvent enclosing token) (markupEvent enclosing found) := by
  unfold markupEvent
  rw [Token.isThe_of_plain h, Token.isThe_of_plain h, Token.isThe_of_plain h,
    Token.isIdentifier_of_plain h, Token.value_of_plain h]
  split
  · exact echoes_exclamation.mono fun _ _ _ _ _ => trivial
  · split
    · exact (echoes_textUntil _ _).map (fun _ _ hbody => congrArg Event.instruction hbody)
        fun _ _ => trivial
    · split
      · exact (echoes_closeTag enclosing).mono fun _ _ _ _ _ => trivial
      · split
        · exact .pure rfl
        · exact .refuse

theorem markupEvent_name {enclosing : Option String} {token : Token} (h : token.kind = .name) :
    markupEvent enclosing token = pure (.opened token.value) := by
  simp [markupEvent, Token.isThe, Token.isIdentifier, h]

theorem echoes_markupReading (enclosing : Option String) :
    Echoes Reading.plain (fun reading => reading.event.IsDelimited) (markupReading enclosing)
      (markupReading enclosing) := by
  refine echoes_nextToken.bind (fun token found htoken => ?_) fun token _ _ _ h hdelimited => ?_
  · refine (echoes_markupEvent enclosing htoken).bind (fun event found hevent => .pure ?_) ?_
    · obtain rfl : found = event := hevent
      rfl
    · intro event cursor reading stop h hdelimited
      obtain ⟨rfl, -⟩ := ok_of_pure h
      exact .inl hdelimited
  · refine .inl fun hname => ?_
    obtain ⟨event, _, hevent, h⟩ := ok_of_bind h
    obtain ⟨rfl, -⟩ := ok_of_pure h
    -- A name begins an element, and its event goes on as far as the name does.
    rw [markupEvent_name hname] at hevent
    obtain ⟨rfl, -⟩ := ok_of_pure hevent
    exact hdelimited

theorem echoes_contentReading (tag : String) :
    Echoes Reading.plain (fun reading => reading.event.IsDelimited) (contentReading tag)
      (contentReading tag) := by
  refine echoes_nextContent.bind (fun token? found? htoken => ?_) ?_
  · cases token? with
    | none =>
        obtain rfl : found? = none := Option.map_eq_none_iff.1 htoken
        exact .refuse
    | some token =>
        obtain ⟨found, rfl, hplain⟩ := Option.map_eq_some_iff.1 htoken
        dsimp only
        rw [(Prod.mk.inj hplain).1]
        split
        · refine .pure ?_
          rw [Token.value_of_plain hplain]
          rfl
        · exact echoes_markupReading (some tag)
  · intro token? _ _ _ h hdelimited
    cases token? with
    | none => simp [refuse, fail] at h
    | some token =>
        refine .inl ⟨token, rfl, fun htext => ?_⟩
        dsimp only at h
        rw [htext, if_pos (beq_self_eq_true _)] at h
        obtain ⟨rfl, -⟩ := ok_of_pure h
        exact hdelimited

/-- An attribute goes on as far as a name or the token behind it does. -/
theorem echoes_attribute {token found : Token} (h : found.plain = token.plain)
    (hname : token.isIdentifier = true) :
    Echoes Reading.plain (fun _ => False) (tagReading token) (tagReading found) := by
  unfold tagReading
  rw [Token.isIdentifier_of_plain h, Token.value_of_plain h, if_pos hname, if_pos hname]
  refine (echoes_nextToken.mono fun _ _ _ _ => False.elim).bind (fun second found hsecond => ?_)
    fun _ _ _ _ _ => False.elim
  rw [Token.isThe_of_plain hsecond]
  split
  · refine (echoes_nextToken.mono fun _ _ _ _ => False.elim).bind (fun value found hvalue => ?_)
      fun _ _ _ _ _ => False.elim
    rw [Token.isIdentifier_of_plain hvalue, Token.value_of_plain hvalue]
    exact echoes_demand.bind (fun _ _ _ => .pure rfl) fun _ _ _ _ _ _ => .inl trivial
  · refine .pure ?_
    simp only [Reading.plain, Option.map_some, hsecond]

theorem echoes_tagReading {token found : Token} (h : found.plain = token.plain) :
    Echoes Reading.plain (fun reading => reading.event.IsDelimited) (tagReading token)
      (tagReading found) := by
  by_cases hname : token.isIdentifier = true
  · refine (echoes_attribute h hname).mono fun cursor reading stop hreading hdelimited => ?_
    rcases ok_of_attribute hname hreading with ⟨value, rfl, -⟩ | ⟨second, rfl, -⟩
    · exact hdelimited
    · exact hdelimited
  · unfold tagReading
    rw [Token.isIdentifier_of_plain h, Token.isThe_of_plain h, Token.isThe_of_plain h,
      if_neg hname, if_neg hname]
    split
    · refine echoes_nextToken.bind (fun last found hlast => ?_) fun last _ _ _ h _ => .inl ?_
      · rw [Token.isThe_of_plain hlast]
        exact echoes_demand.bind (fun _ _ _ => .pure rfl) fun _ _ _ _ _ _ => .inl trivial
      · obtain ⟨_, _, hdemand, -⟩ := ok_of_bind h
        exact Token.kind_ne_name (ok_of_demand hdemand).1
    · exact echoes_demand.bind (fun _ _ _ => .pure rfl) fun _ _ _ _ _ _ => .inl trivial

end Scan

open Scan

/-- Whether an event has been read that ends with a character of its own. -/
def Reading.IsSettled (reading? : Option Reading) : Prop :=
  ∃ reading, reading? = some reading ∧ reading.event.IsDelimited

theorem echoes_some {first second : Scan Reading}
    (h : Echoes Reading.plain (fun reading => reading.event.IsDelimited) first second) :
    Echoes (Option.map Reading.plain) Reading.IsSettled (some <$> first) (some <$> second) := by
  refine h.map (fun _ _ hplain => congrArg some hplain) ?_
  rintro reading ⟨_, hsome, hdelimited⟩
  obtain rfl := Option.some.inj hsome
  exact hdelimited

theorem rest_skip_less {cursor : Cursor} {before rest : List Char}
    (h : cursor.rest = before ++ (['<'] ++ rest)) :
    (cursor.skip (before.length + 1)).rest = rest := by
  rw [← List.append_assoc] at h
  have hless := rest_skip h
  rwa [List.length_append] at hless

theorem echoes_nextReading_document :
    Echoes (Option.map Reading.plain) Reading.IsSettled (nextReading .document)
      (nextReading .document) := by
  intro cursor reading? stop h
  simp only [nextReading] at h
  split at h
  · next hnone =>
      obtain ⟨rfl, rfl⟩ := EStateM.Result.ok.inj h
      have hend : ∀ cursor : Cursor, cursor.skipAll.rest = [] := fun cursor => by
        simp [Cursor.skipAll, Cursor.skip, Cursor.remaining]
      rw [hend]
      refine ⟨cursor.rest, (List.append_nil _).symm, fun other tail hother hsettled => ?_⟩
      obtain rfl := List.head?_eq_none_iff.1 (hsettled.resolve_left (by simp [Reading.IsSettled]))
      rw [List.append_nil] at hother
      exact ⟨none, other.skipAll, by simp only [nextReading, hother, hnone], rfl, hend other⟩
  · next index hindex =>
      obtain ⟨before, behind, hrest, rfl, hlocal⟩ := Text.exists_of_indexOf? hindex
      obtain ⟨used, hused, hecho⟩ := echoes_some (echoes_markupReading none) h
      rw [rest_skip_less hrest] at hused
      refine ⟨before ++ (['<'] ++ used), by simp [hrest, hused], ?_⟩
      intro other tail hother hsettled
      rw [List.append_assoc, List.append_assoc] at hother
      obtain ⟨found, stop, hfound, hsame⟩ := hecho (rest_skip_less hother) hsettled
      refine ⟨found, stop, ?_, hsame⟩
      simp only [nextReading, hother, hlocal]
      exact hfound

/-- An event is the same wherever it is read, whatever follows it if it is delimited, and
otherwise in front of the same character. -/
theorem echoes_nextReading (nest : Nest) {pending held : Option Token}
    (h : held.map Token.plain = pending.map Token.plain) :
    Echoes (Option.map Reading.plain) Reading.IsSettled
      (nextReading (nest.place pending)) (nextReading (nest.place held)) := by
  obtain ⟨openTags, tag⟩ := nest
  cases tag with
  | none =>
      cases openTags with
      | nil => exact echoes_nextReading_document
      | cons tag outer => exact echoes_some (echoes_contentReading tag)
  | some name =>
      cases pending with
      | none =>
          obtain rfl : held = none := Option.map_eq_none_iff.1 h
          refine echoes_nextToken.bind (fun token found htoken =>
            echoes_some (echoes_tagReading htoken)) ?_
          rintro token cursor _ stop htag ⟨reading, rfl, hdelimited⟩
          obtain ⟨_, hreading, hsome⟩ := ok_of_map htag
          obtain rfl := Option.some.inj hsome
          refine .inl fun hkind => ?_
          -- A name begins an attribute.
          have hname : token.isIdentifier = true := by simp [Token.isIdentifier, hkind]
          rcases ok_of_attribute hname hreading with ⟨value, rfl, -⟩ | ⟨second, rfl, -⟩
          · exact hdelimited
          · exact hdelimited
      | some token =>
          obtain ⟨found, rfl, hplain⟩ := Option.map_eq_some_iff.1 h
          exact echoes_some (echoes_tagReading hplain)

/-! ## Readers -/

namespace Reader

/-- Whether two readers have the same elements and the same tag open, and the same token read
ahead. -/
structure Alike (first second : Reader) : Prop where
  nest : second.nest = first.nest
  pending : second.pending.map Token.plain = first.pending.map Token.plain

variable {reader other last : Reader} {entries : List Entry} {tags : List String} {cursor : Cursor}

theorem Alike.refl (reader : Reader) : reader.Alike reader := ⟨rfl, rfl⟩

/-- Between two tags no token has been read ahead. -/
theorem Alike.eq_between (h : (between tags cursor).Alike other) :
    other = between tags other.cursor := by
  obtain ⟨otherCursor, nest, pending⟩ := other
  obtain ⟨rfl, hpending⟩ := h
  obtain rfl := Option.map_eq_none_iff.1 hpending
  rfl

/-- One event is the same for two readers that are alike. -/
theorem Alike.step {reading : Reading} (halike : reader.Alike other)
    (hread : nextReading reader.place reader.cursor = .ok (some reading) cursor) :
    ∃ used, reader.cursor.rest = used ++ cursor.rest ∧ ∀ {tail : List Char},
      other.cursor.rest = used ++ tail →
      (reading.event.IsDelimited ∨ tail.head? = cursor.rest.head?) →
      ∃ found behind, nextReading other.place other.cursor = .ok (some found) behind ∧
        found.event = reading.event ∧ behind.rest = tail ∧
        (reader.after reading cursor).Alike (other.after found behind) := by
  obtain ⟨used, hused, hecho⟩ := echoes_nextReading reader.nest halike.pending hread
  refine ⟨used, hused, fun {tail} hother hsettled => ?_⟩
  obtain ⟨found?, behind, hfound, hplain, hbehind⟩ :=
    hecho hother (hsettled.imp_left fun hdelimited => ⟨reading, rfl, hdelimited⟩)
  obtain ⟨found, rfl, hsame⟩ := Option.map_eq_some_iff.1 hplain
  obtain ⟨hevent, hpending⟩ := Prod.mk.inj hsame
  refine ⟨found, behind, ?_, hevent, hbehind, ?_, hpending⟩
  · rw [place, halike.nest]
    exact hfound
  · rw [after, after, halike.nest, hevent]

/-- What a reader meets up to a place, another one meets that stands in front of the same
characters up to there, and in front of the same character behind them. -/
theorem Advances.echoes (h : Advances reader entries last) :
    ∃ used, reader.cursor.rest = used ++ last.cursor.rest ∧
      ∀ {other : Reader} {tail : List Char}, reader.Alike other →
        other.cursor.rest = used ++ tail → tail.head? = last.cursor.rest.head? →
        ∃ met stop, Advances other met stop ∧ met.map (·.event) = entries.map (·.event) ∧
          last.Alike stop ∧ stop.cursor.rest = tail := by
  induction h with
  | refl reader => exact ⟨[], rfl, fun {other tail} halike hother _ =>
      ⟨[], other, .refl other, rfl, halike, hother⟩⟩
  | @step reader last reading cursor entries hread _ ih =>
      obtain ⟨back, hback, hrest⟩ := ih
      obtain ⟨front, hfront, -⟩ := (Alike.refl reader).step hread
      have hback : cursor.rest = back ++ last.cursor.rest := hback
      refine ⟨front ++ back, by rw [hfront, hback, List.append_assoc], ?_⟩
      intro other tail halike hother hhead
      obtain ⟨used, hused, hecho⟩ := halike.step hread
      obtain rfl : used = front := List.append_cancel_right (hused.symm.trans hfront)
      rw [List.append_assoc] at hother
      have hnext : (back ++ tail).head? = cursor.rest.head? := by
        rw [hback]
        cases back with
        | nil => exact hhead
        | cons c others => rfl
      obtain ⟨found, behind, hfound, hevent, hbehind, hafter⟩ := hecho hother (.inr hnext)
      obtain ⟨met, stop, hadvances, hmet, hlast, hstop⟩ := hrest hafter hbehind hhead
      refine ⟨_, stop, .step hfound hadvances, ?_, hlast, hstop⟩
      rw [List.map_cons, List.map_cons, hmet]
      exact congrArg (· :: _) hevent

/-! ### The end of a text -/

theorem not_ok_of_end {token : Token} {stop : Cursor} (hrest : cursor.rest = []) :
    nextToken cursor ≠ .ok token stop := by
  intro h
  have hlt := strictlyForward_nextToken h
  simp [Cursor.remaining, hrest] at hlt

/-- At the end of the text only a tag that is already closed can end. -/
theorem entered_of_end {token : Token} {reading : Reading} {stop : Cursor}
    (hrest : cursor.rest = []) (h : tagReading token cursor = .ok reading stop) :
    reading.event = .entered ∧ stop = cursor := by
  unfold tagReading at h
  split at h
  · obtain ⟨second, between, hsecond, -⟩ := ok_of_bind h
    exact absurd hsecond (not_ok_of_end hrest)
  · split at h
    · obtain ⟨last, between, hlast, -⟩ := ok_of_bind h
      exact absurd hlast (not_ok_of_end hrest)
    · obtain ⟨_, between, hdemand, hpure⟩ := ok_of_bind h
      obtain ⟨-, rfl⟩ := ok_of_demand hdemand
      obtain ⟨rfl, rfl⟩ := ok_of_pure hpure
      exact ⟨rfl, rfl⟩

/-- A reader that goes on to a fault, or has one itself, meets a fault. -/
theorem fault_of_step (hplace : reader.place ≠ .document)
    (hstep : ∀ reading stop, nextReading reader.place reader.cursor = .ok (some reading) stop →
      (reader.after reading stop).trace.fault ≠ none) : reader.trace.fault ≠ none := by
  cases hread : nextReading reader.place reader.cursor with
  | error error stop =>
      rw [trace_of_error hread]
      simp
  | ok reading? stop =>
      cases reading? with
      | none => exact absurd (place_of_nextReading_none hread) hplace
      | some reading =>
          rw [trace_of_step hread]
          exact hstep reading stop hread

theorem fault_of_content {tag : String} (hrest : reader.cursor.rest = [])
    (hnest : reader.nest = ⟨tag :: tags, none⟩) : reader.trace.fault ≠ none := by
  have hplace : reader.place = .content tag := by rw [place, hnest, Nest.place_content]
  refine fault_of_step (by simp [hplace]) fun reading stop hread => ?_
  rw [hplace] at hread
  obtain ⟨found, hfound, -⟩ := ok_of_map hread
  have hlt := strictlyForward_contentReading tag hfound
  simp [Cursor.remaining, hrest] at hlt

/-- Where the text ends while something is open, there is a fault. -/
theorem fault_of_open (hrest : reader.cursor.rest = []) (hnest : reader.nest ≠ ⟨[], none⟩) :
    reader.trace.fault ≠ none := by
  obtain ⟨cursor, ⟨openTags, - | name⟩, pending⟩ := reader
  · cases openTags with
    | nil => exact absurd rfl hnest
    | cons tag outer => exact fault_of_content hrest rfl
  · refine fault_of_step (by simp [place]) fun reading stop hread => ?_
    cases pending with
    | none =>
        obtain ⟨token, between, htoken, -⟩ := ok_of_bind hread
        exact absurd htoken (not_ok_of_end hrest)
    | some token =>
        obtain ⟨found, hfound, hsome⟩ := ok_of_map hread
        obtain rfl := Option.some.inj hsome
        -- The tag ends and its element goes on.
        obtain ⟨hevent, rfl⟩ := entered_of_end hrest hfound
        exact fault_of_content hrest (by rw [after, hevent]; rfl)

/-- Where no event comes in a document, no `<` does. -/
theorem not_mem_of_end {stop : Cursor} (h : nextReading .document cursor = .ok none stop) :
    '<' ∉ cursor.rest := by
  simp only [nextReading] at h
  split at h
  · next hnone => exact Text.not_mem_of_indexOf? hnone
  · obtain ⟨found, -, hsome⟩ := ok_of_map h
    simp at hsome

/-- An event without an end of its own leaves something open. -/
theorem open_of_not_delimited {reading : Reading}
    (hread : nextReading reader.place reader.cursor = .ok (some reading) cursor)
    (hevent : ¬ reading.event.IsDelimited) : (reader.after reading cursor).nest ≠ ⟨[], none⟩ := by
  have hfits := fits_of_nextReading hread
  intro hnest
  -- An attribute and a text leave the nest as it is, and do not fit outside every element.
  have hinside : reader.nest = ⟨[], none⟩ → ¬ reading.event.Fits .document → False :=
    fun hreader hnot => hnot (by rwa [place, hreader, Nest.place_document] at hfits)
  cases hkind : reading.event with
  | opened tag => simp [after, Nest.after, hkind] at hnest
  | attr name value =>
      rw [after, hkind] at hnest
      exact hinside hnest (by simp [hkind, Event.Fits])
  | text value =>
      rw [after, hkind] at hnest
      exact hinside hnest (by simp [hkind, Event.Fits])
  | entered | selfClosed | cdata | comment | instruction | declaration | closed =>
      exact hevent (by rw [hkind]; trivial)

/-- Only an attribute without a value leaves a token that has been read ahead. -/
theorem pending_of_nextReading {place : Place} {stop : Cursor} {reading : Reading}
    (h : nextReading place cursor = .ok (some reading) stop) :
    reading.pending = none ∨ ∃ name, reading.event = .attr name none := by
  have htag : ∀ {token : Token} {start : Cursor}, tagReading token start = .ok reading stop →
      reading.pending = none ∨ ∃ name, reading.event = .attr name none := by
    intro token start htag
    by_cases hname : token.isIdentifier = true
    · rcases ok_of_attribute hname htag with ⟨value, rfl, -⟩ | ⟨second, rfl, -⟩
      · exact .inl rfl
      · exact .inr ⟨_, rfl⟩
    · obtain ⟨rfl | rfl, -⟩ := ok_of_tagEnd hname htag
      · exact .inl rfl
      · exact .inl rfl
  rcases place with - | tag | - | token
  · simp only [nextReading] at h
    split at h
    · simp at h
    · obtain ⟨found, hfound, hsome⟩ := ok_of_map h
      obtain rfl := Option.some.inj hsome
      exact .inl (pending_markupReading hfound)
  · obtain ⟨found, hfound, hsome⟩ := ok_of_map h
    obtain rfl := Option.some.inj hsome
    exact .inl (pending_contentReading hfound)
  · obtain ⟨token, between, -, h⟩ := ok_of_bind h
    obtain ⟨found, hfound, hsome⟩ := ok_of_map h
    obtain rfl := Option.some.inj hsome
    exact htag hfound
  · obtain ⟨found, hfound, hsome⟩ := ok_of_map h
    obtain rfl := Option.some.inj hsome
    exact htag hfound

/-- Whether a token has been read ahead only if the reader stands in a tag. -/
def HoldsInTag (reader : Reader) : Prop := reader.nest.tag = none → reader.pending = none

theorem holdsInTag_after {reading : Reading}
    (hread : nextReading reader.place reader.cursor = .ok (some reading) cursor) :
    (reader.after reading cursor).HoldsInTag := by
  intro htag
  rcases pending_of_nextReading hread with hpending | ⟨name, hattribute⟩
  · exact hpending
  · have hfits := fits_of_nextReading hread
    have htag : reader.nest.tag = none := by simpa [after, Nest.after, hattribute] using htag
    rw [hattribute] at hfits
    obtain ⟨start, ⟨openTags, tag⟩, pending⟩ := reader
    obtain rfl : tag = none := htag
    -- Between two tags there is no attribute.
    cases openTags with
    | nil => exact hfits.elim
    | cons tag outer => exact hfits.elim

/-- What a reader meets up to the end of its text, another one meets that has the same text in
front of it and more behind that.  It then stands outside every element, and what is left of
the text is ignored there. -/
theorem advances_of_trace (hfault : reader.trace.fault = none) (hheld : reader.HoldsInTag) :
    ∀ {other : Reader} {more : List Char}, reader.Alike other →
      other.cursor.rest = reader.cursor.rest ++ more →
      ∃ met stop ignored, Advances other met (between [] stop) ∧
        met.map (·.event) = reader.trace.entries.map (·.event) ∧
        stop.rest = ignored ++ more ∧ '<' ∉ ignored := by
  fun_induction Reader.trace reader with
  | case1 reader error cursor hread => simp at hfault
  | case2 reader stop hread =>
      intro other more halike hother
      have hnest := Nest.eq_of_place_document (place_of_nextReading_none hread)
      have hbetween : reader = between [] reader.cursor := by
        obtain ⟨cursor, nest, pending⟩ := reader
        obtain rfl : nest = ⟨[], none⟩ := hnest
        obtain rfl : pending = none := hheld rfl
        rfl
      rw [hbetween] at halike
      refine ⟨[], other.cursor, reader.cursor.rest, ?_, rfl, hother, ?_⟩
      · rw [← halike.eq_between]
        exact .refl other
      · rw [place_of_nextReading_none hread] at hread
        exact not_mem_of_end hread
  | case3 reader reading cursor hread rest ih =>
      intro other more halike hother
      obtain ⟨used, hused, hecho⟩ := halike.step hread
      rw [hused, List.append_assoc] at hother
      have hsettled : reading.event.IsDelimited ∨
          (cursor.rest ++ more).head? = cursor.rest.head? := by
        by_cases hdelimited : reading.event.IsDelimited
        · exact .inl hdelimited
        · refine .inr ?_
          cases hrest : cursor.rest with
          | cons c others => rfl
          | nil =>
              exact absurd hfault (fault_of_open hrest (open_of_not_delimited hread hdelimited))
      obtain ⟨found, behind, hfound, hevent, hbehind, hafter⟩ := hecho hother hsettled
      obtain ⟨met, stop, ignored, hadvances, hmet, hstop⟩ :=
        ih hfault (holdsInTag_after hread) hafter hbehind
      refine ⟨_, stop, ignored, .step hfound hadvances, ?_, hstop⟩
      rw [List.map_cons, List.map_cons, hmet]
      exact congrArg (· :: _) hevent

/-- A reader that has the same text in front of it meets the same events. -/
theorem trace_of_alike (hfault : reader.trace.fault = none) (hheld : reader.HoldsInTag)
    (halike : reader.Alike other) (hother : other.cursor.rest = reader.cursor.rest) :
    other.trace.fault = none ∧
      other.trace.entries.map (·.event) = reader.trace.entries.map (·.event) := by
  obtain ⟨met, stop, ignored, hadvances, hmet, hstop, hignored⟩ :=
    advances_of_trace hfault hheld halike (hother.trans (List.append_nil _).symm)
  have hend : (between [] stop).trace = ⟨[], none⟩ := by
    refine trace_of_end (nextReading_end ?_)
    exact (Faces.of_rest hstop).of_append (skips_document hignored)
  rw [hadvances.trace, hend, List.append_nil]
  exact ⟨rfl, hmet⟩

end Reader

end XmlToJson

import XmlToJson.Proofs.Declarations

/-!
# What is read does not depend on what follows

A scan that succeeds has read some characters, and it would have made the same of them wherever they
stand: at another place of the text, and with something else behind them.  `Scan.Echoes` says so for
two scans, of which the second makes of the characters what the first made of them, up to the places
of tokens (`Token.plain`).

## Strategy

For most scans anything may follow, since the last character says that the scan ends there.  A name
or a text goes on until something else comes, so behind these the next character has to be the same.
`Echoes` has a parameter for that, and there is one lemma for a sequence of two scans
(`Echoes.bind`): where anything may follow the whole, anything may follow the first of them, or the
second has read something.  What is left are the single scans.

* **Runs.**  A run of a class of characters ends where another character follows
  (`takeWhile_append_of_head?`), and a literal that is found makes its place known
  (`exists_of_indexOf?`).  Decoding a run is the same in front of the same character
  (`exists_of_read`), since no reference reaches beyond it.
* **Names.**  A bare name may leave a marker or a bracket behind it, or take a blank with it;
  `LeavesBehind` lists the cases, and `exists_bareName` reads the name in each of them.
* **Tokens.**  `ReadsToken` says what can be read as a token, with one constructor for each sort, so
  that `nextToken_eq_ok_iff` replaces a scan by its cases (`echoes_nextToken`).
* **Sections and declarations** read up to a literal or from token to token (`echoes_textUntil`,
  `echoes_declarationEnd`).
-/

namespace XmlToJson

/-! ## Characters -/

namespace Text

/-- A literal that is found makes its place known, whatever follows it. -/
theorem exists_of_indexOf? {literal text : List Char} {index : Nat}
    (h : indexOf? literal text = some index) :
    ∃ before behind, text = before ++ (literal ++ behind) ∧ before.length = index ∧
      ∀ tail, indexOf? literal (before ++ (literal ++ tail)) = some index := by
  induction text generalizing index with
  | nil =>
      cases literal with
      | nil =>
          obtain rfl : 0 = index := by simpa [indexOf?] using h
          refine ⟨[], [], rfl, rfl, fun tail => ?_⟩
          cases tail <;> simp [indexOf?]
      | cons c rest => simp [indexOf?] at h
  | cons c rest ih =>
      rw [indexOf?] at h
      split at h
      · next hfront =>
          obtain rfl : 0 = index := by simpa using h
          obtain ⟨behind, hbehind⟩ := List.isPrefixOf_iff_prefix.1 hfront
          refine ⟨[], behind, hbehind.symm, rfl, fun tail => ?_⟩
          have hprefix := List.isPrefixOf_iff_prefix.2 (List.prefix_append literal tail)
          rw [List.nil_append]
          cases hchars : literal ++ tail with
          | nil =>
              obtain ⟨rfl, -⟩ := List.append_eq_nil_iff.1 hchars
              rfl
          | cons d others =>
              rw [hchars] at hprefix
              rw [indexOf?, if_pos hprefix]
      · next hfront =>
          obtain ⟨inner, hinner, rfl⟩ := Option.map_eq_some_iff.1 h
          obtain ⟨before, behind, rfl, hlength, hlocal⟩ := ih hinner
          refine ⟨c :: before, behind, rfl, by rw [List.length_cons, hlength], fun tail => ?_⟩
          -- Whether the literal begins at `c` is seen before anything behind it.
          have hnone : ¬ literal.isPrefixOf (c :: (before ++ (literal ++ tail))) = true := by
            intro hprefix
            refine hfront (List.isPrefixOf_iff_prefix.2 ?_)
            have hinside : literal <+: c :: (before ++ literal) := by
              refine List.prefix_of_prefix_length_le (List.isPrefixOf_iff_prefix.1 hprefix)
                ⟨tail, by simp⟩ ?_
              simp only [List.length_cons, List.length_append]
              omega
            exact hinside.trans ⟨behind, by simp⟩
          rw [List.cons_append, indexOf?, if_neg hnone, hlocal]
          rfl

/-- A run of a class ends where another character follows. -/
theorem takeWhile_append_of_head? {p : Char → Bool} {run rest : List Char}
    (hrun : ∀ c ∈ run, p c = true) (hrest : ∀ c ∈ rest.head?, p c = false) :
    (run ++ rest).takeWhile p = run := by
  rw [List.takeWhile_append_of_pos hrun]
  cases rest with
  | nil => simp
  | cons c rest => rw [List.takeWhile_cons_of_neg (by simp [hrest c rfl]), List.append_nil]

theorem takeWhile_append_cons {p : Char → Bool} {run : List Char} {c : Char}
    (hrun : ∀ d ∈ run, p d = true) (hc : p c = false) (rest : List Char) :
    (run ++ c :: rest).takeWhile p = run := by
  refine takeWhile_append_of_head? hrun fun d hd => ?_
  obtain rfl := Option.some.inj hd
  exact hc

theorem head?_dropWhile {p : Char → Bool} {text : List Char} :
    ∀ c ∈ (text.dropWhile p).head?, p c = false := by
  intro c hc
  have hhead := List.head?_dropWhile_not p text
  rwa [Option.mem_def.1 hc] at hhead

end Text

namespace CharacterData

/-- A reference is replaced by what it stands for. -/
theorem read_expand {stop : Char} {name : List Char} (hstop : stop ≠ '&')
    (hname : ∀ c ∈ name, Reference.isNameChar c = true) (following : List Char) :
    read stop ('&' :: (name ++ ';' :: following)) =
      (read stop following).after (Reference.expand name) (name.length + 2) := by
  have hrun : (name ++ ';' :: following).takeWhile Reference.isNameChar = name :=
    Text.takeWhile_append_cons hname (by decide +kernel) following
  have hrest : (name ++ ';' :: following).drop (name.length + 1) = following := by
    rw [← List.drop_drop, List.drop_left]
    rfl
  rw [read, if_neg (Ne.symm hstop), if_pos rfl]
  simp only [hrun, List.drop_left, hrest]

/-- A reference that is ended is its name, the semicolon and what follows. -/
theorem ended_reference {rest name following : List Char}
    (h : rest.drop name.length = ';' :: following)
    (hname : rest.takeWhile Reference.isNameChar = name) :
    rest = name ++ ';' :: following ∧ (∀ c ∈ name, Reference.isNameChar c = true) ∧
      rest.drop (name.length + 1) = following := by
  subst hname
  refine ⟨?_, List.all_eq_true.1 List.all_takeWhile, ?_⟩
  · rw [← h, drop_takeWhile, List.takeWhile_append_dropWhile]
  · rw [← List.drop_drop, h]
    rfl

/-- A run is the same in front of the same character. -/
theorem exists_of_read (stop : Char) (chars : List Char) :
    ∃ inside behind, chars = inside ++ behind ∧ inside.length = (read stop chars).length ∧
      ((read stop chars).ending = .stopped → behind.head? = some stop) ∧
      ((read stop chars).ending = .exhausted → behind = []) ∧
      ∀ tail : List Char, tail.head? = behind.head? →
        read stop (inside ++ tail) = read stop chars := by
  fun_induction read stop chars with
  | case1 =>
      refine ⟨[], [], rfl, rfl, by simp, fun _ => rfl, fun tail htail => ?_⟩
      rw [List.head?_eq_none_iff.1 htail, List.nil_append, read]
  | case2 rest =>
      refine ⟨[], stop :: rest, rfl, rfl, fun _ => rfl, by simp, fun tail htail => ?_⟩
      obtain ⟨more, rfl⟩ := List.head?_eq_some_iff.1 htail
      rw [List.nil_append, read, if_pos rfl]
  | case3 rest name following hfollowing hstop ih =>
      obtain ⟨hrest, hname, hdrop⟩ := ended_reference hfollowing rfl
      rw [hdrop] at ih ⊢
      obtain ⟨inside, behind, rfl, hlength, hends, hnothing, hlocal⟩ := ih
      refine ⟨'&' :: (name ++ ';' :: inside), behind, by simp [hrest], ?_, hends, hnothing, ?_⟩
      · simp only [after, List.length_cons, List.length_append, hlength]
        omega
      · intro tail htail
        rw [List.cons_append, List.append_assoc, List.cons_append,
          read_expand (Ne.symm hstop) hname, hlocal tail htail]
  | case4 rest name hbroken hstop =>
      have hname : ∀ c ∈ name, Reference.isNameChar c = true :=
        List.all_eq_true.1 List.all_takeWhile
      refine ⟨'&' :: name, rest.drop name.length, ?_, rfl, by simp, by simp, fun tail htail => ?_⟩
      · rw [List.cons_append, drop_takeWhile, List.takeWhile_append_dropWhile]
      · have hends : ∀ c ∈ tail.head?, Reference.isNameChar c = false := by
          rw [htail, drop_takeWhile]
          exact Text.head?_dropWhile
        have hrun := Text.takeWhile_append_of_head? hname hends
        rw [List.cons_append, read, if_neg hstop, if_pos rfl]
        simp only [hrun, List.drop_left]
        -- What follows the name is no semicolon, since its first character is the same.
        split
        · obtain ⟨others, hothers⟩ := List.head?_eq_some_iff.1 (htail.symm.trans rfl)
          exact absurd hothers (hbroken others)
        · rfl
  | case5 c rest hstop hreference ih =>
      obtain ⟨inside, behind, rfl, hlength, hends, hnothing, hlocal⟩ := ih
      refine ⟨c :: inside, behind, rfl, ?_, hends, hnothing, fun tail htail => ?_⟩
      · rw [List.length_cons, hlength]
        exact Nat.add_comm _ 1
      · rw [List.cons_append, read_raw _ hstop hreference, hlocal tail htail]

/-- A run that does not stop at once has a first character. -/
theorem exists_of_read_cons {stop c : Char} (rest : List Char) (hc : c ≠ stop) :
    ∃ run behind, rest = run ++ behind ∧ (c :: run).length = (read stop (c :: rest)).length ∧
      ∀ tail : List Char, tail.head? = behind.head? →
        read stop (c :: (run ++ tail)) = read stop (c :: rest) := by
  have hpos := @length_pos_of_read _ _ rest hc
  obtain ⟨inside, behind, hsplit, hlength, -, -, hlocal⟩ := exists_of_read stop (c :: rest)
  rw [← hlength] at hpos
  obtain ⟨d, run, rfl⟩ := List.exists_cons_of_length_pos hpos
  obtain ⟨rfl, rfl⟩ := List.cons.inj hsplit
  exact ⟨run, behind, rfl, hlength, hlocal⟩

end CharacterData

/-! ## Scans -/

/-- A token without its place. -/
def Token.plain (token : Token) : TokenKind × String := (token.kind, token.value)

namespace Scan

variable {α β γ δ : Type}

/-- Whether `second` makes of the characters that `first` reads what `first` makes of them,
but for what `plain` takes away.  Anything may follow them if the value is `settled`, and
otherwise the character that follows has to be the same. -/
def Echoes (plain : α → β) (settled : α → Prop) (first second : Scan α) : Prop :=
  ∀ ⦃cursor value stop⦄, first cursor = .ok value stop →
    ∃ used, cursor.rest = used ++ stop.rest ∧
      ∀ ⦃other : Cursor⦄ ⦃tail⦄, other.rest = used ++ tail →
        (settled value ∨ tail.head? = stop.rest.head?) →
        ∃ found behind, second other = .ok found behind ∧ plain found = plain value ∧
          behind.rest = tail

section Sequences

variable {plain : α → β} {settled : α → Prop} {first second : Scan α} {plainNext : γ → δ}
  {settledNext : γ → Prop}

/-- A sequence of two scans is echoed if both are.  Where anything may follow the whole,
anything may follow the first of them, or the second has read something. -/
theorem Echoes.bind {next onward : α → Scan γ} (hfirst : Echoes plain settled first second)
    (hnext : ∀ ⦃value found⦄, plain found = plain value →
      Echoes plainNext settledNext (next value) (onward found))
    (hsettled : ∀ ⦃value cursor result stop⦄, next value cursor = .ok result stop →
      settledNext result → settled value ∨ stop.remaining < cursor.remaining) :
    Echoes plainNext settledNext (first >>= next) (second >>= onward) := by
  intro cursor result stop h
  obtain ⟨value, between, hvalue, hresult⟩ := ok_of_bind h
  obtain ⟨front, hfront, hfirstEcho⟩ := hfirst hvalue
  obtain ⟨back, hback, -⟩ := hnext rfl hresult
  refine ⟨front ++ back, by rw [hfront, hback, List.append_assoc], ?_⟩
  intro other tail hother htail
  rw [List.append_assoc] at hother
  have hahead : settled value ∨ (back ++ tail).head? = between.rest.head? := by
    cases back with
    | cons c others => exact .inr (by rw [hback]; rfl)
    | nil =>
        rcases htail with hresultSettled | hhead
        · refine (hsettled hresult hresultSettled).imp_right fun hlt => ?_
          simp [Cursor.remaining, hback] at hlt
        · exact .inr (by rw [hback]; exact hhead)
  obtain ⟨found, middle, hfound, hplain, hmiddle⟩ := hfirstEcho hother hahead
  obtain ⟨again, hagain, hnextEcho⟩ := hnext hplain hresult
  obtain rfl : again = back := List.append_cancel_right (hagain.symm.trans hback)
  obtain ⟨last, behind, hlast, hsame, hbehind⟩ := hnextEcho hmiddle htail
  refine ⟨last, behind, ?_, hsame, hbehind⟩
  rw [bind_apply, hfound]
  exact hlast

theorem Echoes.pure {value found : α} (h : plain found = plain value) :
    Echoes plain settled (pure value) (pure found) := by
  intro cursor result stop hpure
  obtain ⟨rfl, rfl⟩ := ok_of_pure hpure
  exact ⟨[], rfl, fun other tail hother _ => ⟨found, other, rfl, h, hother⟩⟩

theorem Echoes.refuse {fault other : MarkupFault} :
    Echoes plain settled (refuse fault) (refuse other) := by
  intro cursor value stop h
  simp [Scan.refuse, fail] at h

theorem echoes_demand {condition : Bool} {fault other : MarkupFault} :
    Echoes id (fun _ => True) (demand condition fault) (demand condition other) := by
  unfold demand
  split
  · exact .pure rfl
  · exact .refuse

theorem Echoes.map {change other : α → γ} (h : Echoes plain settled first second)
    (hchange : ∀ ⦃value found⦄, plain found = plain value →
      plainNext (other found) = plainNext (change value))
    (hsettled : ∀ ⦃value⦄, settledNext (change value) → settled value) :
    Echoes plainNext settledNext (change <$> first) (other <$> second) := by
  rw [← bind_pure_comp, ← bind_pure_comp]
  refine h.bind (fun _ _ hplain => .pure (hchange hplain)) ?_
  intro value cursor result stop hpure hresult
  obtain ⟨rfl, -⟩ := ok_of_pure hpure
  exact .inl (hsettled hresult)

end Sequences

/-! ### Single scans -/

theorem rest_skipBlanks_eq (cursor : Cursor) :
    (skipBlanks cursor).rest = cursor.rest.dropWhile Text.isBlank :=
  drop_takeWhile Text.isBlank cursor.rest

/-- The blanks in front of something that is read, and what stands behind them. -/
theorem exists_skipBlanks {cursor : Cursor} {c : Char} {rest : List Char}
    (hstart : (skipBlanks cursor).rest = c :: rest) :
    ∃ blanks, cursor.rest = blanks ++ c :: rest ∧ ∀ (other : Cursor) (more : List Char),
      other.rest = blanks ++ c :: more → (skipBlanks other).rest = c :: more := by
  have hdrop := (rest_skipBlanks_eq cursor).symm.trans hstart
  have hblank : Text.isBlank c = false :=
    @Text.head?_dropWhile Text.isBlank cursor.rest c (by rw [hdrop]; rfl)
  refine ⟨cursor.rest.takeWhile Text.isBlank, ?_, ?_⟩
  · rw [← hdrop, List.takeWhile_append_dropWhile]
  · intro other more hother
    have hall : ∀ d ∈ cursor.rest.takeWhile Text.isBlank, Text.isBlank d = true :=
      List.all_eq_true.1 List.all_takeWhile
    exact rest_skipBlanks ((Faces.of_rest hother).of_append hall) hblank

theorem echoes_quotedValue (quote : Char) :
    Echoes id (fun _ => True) (quotedValue quote) (quotedValue quote) := by
  intro cursor value stop h
  simp only [quotedValue] at h
  split at h
  · next hending =>
      obtain ⟨rfl, rfl⟩ := EStateM.Result.ok.inj h
      obtain ⟨inside, behind, hrest, hlength, hends, -, hlocal⟩ :=
        CharacterData.exists_of_read quote cursor.rest
      obtain ⟨behind, rfl⟩ := List.head?_eq_some_iff.1 (hends hending)
      have hstep : ∀ {other : Cursor} {tail : List Char}, other.rest = inside ++ quote :: tail →
          (other.skipAndStep inside.length).rest = tail := fun hother =>
        rest_next (rest_skip hother)
      refine ⟨inside ++ [quote], by rw [← hlength, hstep hrest]; simp [hrest], ?_⟩
      intro other tail hother _
      rw [List.append_assoc] at hother
      have hread := hlocal (quote :: tail) rfl
      refine ⟨_, other.skipAndStep inside.length, ?_, rfl, hstep hother⟩
      simp only [quotedValue, hother, List.singleton_append, hread, hending, hlength]
  · simp [fail] at h
  · simp [fail] at h

/-- Whether `left` is what a name leaves of what stands behind it.  A blank is read with the
name, and a marker or a bracket is left. -/
inductive LeavesBehind : List Char → List Char → Prop where
  | nothing : LeavesBehind [] []
  | blank {c : Char} {rest : List Char} : Text.isBlank c = true → LeavesBehind (c :: rest) rest
  | marker {c : Char} {rest : List Char} :
      Text.isBlank c = false → endsName c = true → LeavesBehind (c :: rest) (c :: rest)

theorem LeavesBehind.not_isNameChar {behind left : List Char} (h : LeavesBehind behind left) :
    ∀ c ∈ behind.head?, isNameChar c = false := by
  cases h with
  | nothing => simp
  | blank hblank => simp [isNameChar, hblank]
  | marker _ hends => simp [isNameChar, hends]

section BareNames

variable {cursor stop : Cursor} {c : Char} {run rest left : List Char} {value : String}

theorem rest_skip_name (hcursor : cursor.rest = c :: rest) :
    (cursor.skip (c :: rest.takeWhile isNameChar).length).rest = rest.dropWhile isNameChar := by
  rw [Cursor.skip, hcursor, List.length_cons, List.drop_succ_cons, drop_takeWhile]

theorem ok_of_bareName (hcursor : cursor.rest = c :: rest) (h : bareName cursor = .ok value stop) :
    value = String.ofList (c :: rest.takeWhile isNameChar) ∧
      LeavesBehind (rest.dropWhile isNameChar) stop.rest := by
  have hbehind := rest_skip_name hcursor
  simp only [bareName, hcursor, List.take_succ_cons, List.take_zero, List.drop_succ_cons,
    List.drop_zero, List.singleton_append] at h
  split at h
  · next hnil =>
      obtain ⟨rfl, rfl⟩ := EStateM.Result.ok.inj h
      rw [← hbehind, hnil]
      exact ⟨rfl, .nothing⟩
  · next d others hcons =>
      rw [← hbehind, hcons]
      split at h
      · next hblank =>
          obtain ⟨rfl, rfl⟩ := EStateM.Result.ok.inj h
          rw [Cursor.skipAndStep, rest_next hcons]
          exact ⟨rfl, .blank hblank⟩
      · next hblank =>
          split at h
          · next hends =>
              obtain ⟨rfl, rfl⟩ := EStateM.Result.ok.inj h
              rw [hcons]
              exact ⟨rfl, .marker (Bool.eq_false_iff.2 hblank) hends⟩
          · simp [fail] at h

theorem exists_bareName (hcursor : cursor.rest = c :: (run ++ rest))
    (hrun : ∀ d ∈ run, isNameChar d = true) (hrest : LeavesBehind rest left) :
    ∃ stop, bareName cursor = .ok (String.ofList (c :: run)) stop ∧ stop.rest = left := by
  have hname : (run ++ rest).takeWhile isNameChar = run :=
    Text.takeWhile_append_of_head? hrun hrest.not_isNameChar
  have hbehind := @rest_skip _ (c :: run) _ hcursor
  simp only [bareName, hcursor, List.take_succ_cons, List.take_zero, List.drop_succ_cons,
    List.drop_zero, List.singleton_append, hname, hbehind]
  cases hrest with
  | nothing => exact ⟨_, rfl, hbehind⟩
  | blank hblank => exact ⟨_, if_pos hblank, rest_next hbehind⟩
  | marker hblank hends =>
      exact ⟨_, (if_neg (by simp [hblank])).trans (if_pos hends), hbehind⟩

/-- A bare name is the same in front of the same character. -/
theorem echoes_bareName (hcursor : cursor.rest = c :: rest) (h : bareName cursor = .ok value stop) :
    ∃ used, rest = used ++ stop.rest ∧ ∀ {other : Cursor} {tail : List Char},
      other.rest = c :: (used ++ tail) → tail.head? = stop.rest.head? →
      ∃ behind, bareName other = .ok value behind ∧ behind.rest = tail := by
  obtain ⟨rfl, hleaves⟩ := ok_of_bareName hcursor h
  have hrun : ∀ d ∈ rest.takeWhile isNameChar, isNameChar d = true :=
    List.all_eq_true.1 List.all_takeWhile
  have hsplit := @List.takeWhile_append_dropWhile _ isNameChar rest
  generalize rest.takeWhile isNameChar = run at hrun hsplit
  generalize rest.dropWhile isNameChar = behind at hleaves hsplit
  generalize stop.rest = left at hleaves
  subst hsplit
  cases hleaves with
  | nothing =>
      refine ⟨run, rfl, fun {other tail} hother htail => ?_⟩
      obtain rfl := List.head?_eq_none_iff.1 htail
      exact exists_bareName hother hrun .nothing
  | @blank d _ hblank =>
      refine ⟨run ++ [d], by simp, fun {other tail} hother htail => ?_⟩
      rw [List.append_assoc] at hother
      exact exists_bareName hother hrun (.blank hblank)
  | @marker d others hblank hends =>
      refine ⟨run, rfl, fun {other tail} hother htail => ?_⟩
      obtain ⟨more, rfl⟩ := List.head?_eq_some_iff.1 htail
      exact exists_bareName hother hrun (.marker hblank hends)

end BareNames

/-- What is read as a token from a place behind the blanks. -/
inductive ReadsToken (start : Cursor) : Token → Cursor → Prop where
  | marker {c : Char} {rest : List Char} {marker : Marker} :
      start.rest = c :: rest → c ≠ '<' → Marker.ofChar? c = some marker →
      ReadsToken start ⟨.marker marker, c.toString, start.position⟩ start.next.2
  | quoted {c : Char} {rest : List Char} {value : String} {stop : Cursor} :
      start.rest = c :: rest → c ≠ '<' → Marker.ofChar? c = none → isQuote c = true →
      quotedValue c start.next.2 = .ok value stop →
      ReadsToken start ⟨.quoted, value, start.position⟩ stop
  | name {c : Char} {rest : List Char} {value : String} {stop : Cursor} :
      start.rest = c :: rest → c ≠ '<' → Marker.ofChar? c = none → ¬ isQuote c = true →
      bareName start = .ok value stop → ReadsToken start ⟨.name, value, start.position⟩ stop

theorem nextToken_eq_ok_iff {cursor stop : Cursor} {token : Token} :
    nextToken cursor = .ok token stop ↔ ReadsToken (skipBlanks cursor) token stop := by
  constructor
  · intro h
    simp only [nextToken] at h
    split at h
    · simp [fail] at h
    · next c rest hstart =>
        split at h
        · simp [fail] at h
        · next hless =>
            split at h
            · next marker hmarker =>
                obtain ⟨rfl, rfl⟩ := EStateM.Result.ok.inj h
                exact .marker hstart hless hmarker
            · next hmarker =>
                split at h
                · next hquote =>
                    split at h
                    · next value after hvalue =>
                        obtain ⟨rfl, rfl⟩ := EStateM.Result.ok.inj h
                        exact .quoted hstart hless hmarker hquote hvalue
                    · simp at h
                · next hquote =>
                    split at h
                    · next value after hvalue =>
                        obtain ⟨rfl, rfl⟩ := EStateM.Result.ok.inj h
                        exact .name hstart hless hmarker hquote hvalue
                    · simp at h
  · intro h
    cases h with
    | marker hstart hless hmarker => simp only [nextToken, hstart, hless, hmarker, if_false]
    | quoted hstart hless hmarker hquote hvalue =>
        simp only [nextToken, hstart, hless, hmarker, hquote, hvalue, if_false, if_true]
    | name hstart hless hmarker hquote hvalue =>
        simp only [nextToken, hstart, if_neg hless, hmarker, if_neg hquote, hvalue]

theorem echoes_nextToken :
    Echoes Token.plain (fun token => token.kind ≠ .name) nextToken nextToken := by
  intro cursor token stop h
  cases nextToken_eq_ok_iff.1 h with
  | @marker c rest marker hstart hless hmarker =>
      obtain ⟨blanks, hcursor, hblanks⟩ := exists_skipBlanks hstart
      refine ⟨blanks ++ [c], by rw [rest_next hstart]; simp [hcursor], ?_⟩
      intro other tail hother _
      have hskip := hblanks other tail (by simp [hother])
      exact ⟨_, _, nextToken_eq_ok_iff.2 (.marker hskip hless hmarker), rfl, rest_next hskip⟩
  | @quoted c rest value _ hstart hless hmarker hquote hvalue =>
      obtain ⟨blanks, hcursor, hblanks⟩ := exists_skipBlanks hstart
      obtain ⟨used, hused, hecho⟩ := echoes_quotedValue c hvalue
      rw [rest_next hstart] at hused
      refine ⟨blanks ++ c :: used, by simp [hcursor, hused], ?_⟩
      intro other tail hother _
      have hskip := hblanks other (used ++ tail) (by simp [hother])
      obtain ⟨found, behind, hfound, rfl, hbehind⟩ := hecho (rest_next hskip) (.inl trivial)
      exact ⟨_, behind, nextToken_eq_ok_iff.2 (.quoted hskip hless hmarker hquote hfound), rfl,
        hbehind⟩
  | @name c rest value _ hstart hless hmarker hquote hvalue =>
      obtain ⟨blanks, hcursor, hblanks⟩ := exists_skipBlanks hstart
      obtain ⟨used, hused, hecho⟩ := echoes_bareName hstart hvalue
      refine ⟨blanks ++ c :: used, by simp [hcursor, hused], ?_⟩
      intro other tail hother hsettled
      have htail : tail.head? = stop.rest.head? := hsettled.resolve_left fun hkind => hkind rfl
      have hskip := hblanks other (used ++ tail) (by simp [hother])
      obtain ⟨behind, hfound, hbehind⟩ := hecho hskip htail
      exact ⟨_, behind, nextToken_eq_ok_iff.2 (.name hskip hless hmarker hquote hfound), rfl,
        hbehind⟩

theorem echoes_nextContent :
    Echoes (Option.map Token.plain)
      (fun token? => ∃ token, token? = some token ∧ token.kind ≠ .text)
      nextContent nextContent := by
  intro cursor token? stop h
  simp only [nextContent] at h
  split at h
  · next hstart =>
      obtain ⟨rfl, rfl⟩ := EStateM.Result.ok.inj h
      refine ⟨cursor.rest, by simp [hstart], ?_⟩
      intro other tail hother hsettled
      rw [hstart] at hsettled
      obtain rfl := List.head?_eq_none_iff.1 (hsettled.resolve_left (by simp))
      have hblank : (skipBlanks other).rest = [] := by
        rw [rest_skipBlanks_eq, hother, List.append_nil, ← rest_skipBlanks_eq, hstart]
      exact ⟨none, skipBlanks other, by simp only [nextContent, hblank], rfl, hblank⟩
  · next c rest hstart =>
      obtain ⟨blanks, hcursor, hblanks⟩ := exists_skipBlanks hstart
      split at h
      · next hless =>
          subst hless
          obtain ⟨rfl, rfl⟩ := EStateM.Result.ok.inj h
          refine ⟨blanks ++ ['<'], by rw [rest_next hstart]; simp [hcursor], ?_⟩
          intro other tail hother _
          have hskip := hblanks other tail (by simp [hother])
          refine ⟨some ⟨.marker .less, "<", (skipBlanks other).position⟩, _, ?_, rfl,
            rest_next hskip⟩
          simp only [nextContent, hskip, if_true]
          rfl
      · next hless =>
          split at h
          · simp [fail] at h
          · next hending =>
              obtain ⟨rfl, rfl⟩ := EStateM.Result.ok.inj h
              rw [hstart] at hending ⊢
              obtain ⟨run, behind, rfl, hlength, hlocal⟩ :=
                CharacterData.exists_of_read_cons rest hless
              rw [← hlength]
              have hstop : ((skipBlanks cursor).skip (c :: run).length).rest = behind :=
                rest_skip hstart
              rw [hstop]
              refine ⟨blanks ++ c :: run, by simp [hcursor], ?_⟩
              intro other tail hother hsettled
              have htail : tail.head? = behind.head? := hsettled.resolve_left (by simp)
              have hskip := hblanks other (run ++ tail) (by simp [hother])
              refine ⟨some ⟨.text, _, (skipBlanks other).position⟩,
                (skipBlanks other).skip (c :: run).length, ?_, rfl, rest_skip hskip⟩
              simp only [nextContent, hskip, hless, if_false, hlocal tail htail, hlength]

/-- A hyphen that begins a declaration is told from a comment by the character behind it. -/
theorem echoes_markupSort : Echoes id (fun sort => sort ≠ .declaration) markupSort markupSort := by
  intro cursor sort stop h
  unfold markupSort at h
  split at h
  · next rest hrest =>
      obtain ⟨rfl, rfl⟩ := EStateM.Result.ok.inj h
      have hskip : ∀ {other : Cursor} {tail : List Char}, other.rest = '-' :: '-' :: tail →
          (other.skip 2).rest = tail := fun hother => @rest_skip _ ['-', '-'] _ hother
      refine ⟨['-', '-'], by rw [hskip hrest, hrest]; rfl, fun other tail hother _ => ?_⟩
      refine ⟨.comment, other.skip 2, ?_, rfl, hskip hother⟩
      simp only [markupSort, hother, List.cons_append]
  · next rest hrest =>
      obtain ⟨rfl, rfl⟩ := EStateM.Result.ok.inj h
      have hskip : ∀ {other : Cursor} {tail : List Char}, other.rest = '[' :: tail →
          (other.skip 1).rest = tail := fun hother => @rest_skip _ ['['] _ hother
      refine ⟨['['], by rw [hskip hrest, hrest]; rfl, fun other tail hother _ => ?_⟩
      refine ⟨.bracketed, other.skip 1, ?_, rfl, hskip hother⟩
      simp only [markupSort, hother, List.cons_append]
  · next hcomment hbracketed =>
      obtain ⟨rfl, rfl⟩ := EStateM.Result.ok.inj h
      cases hrest : cursor.rest with
      | nil =>
          have hnil : (cursor.skip 1).rest = [] := by rw [Cursor.skip, hrest]; rfl
          rw [hnil]
          refine ⟨[], rfl, fun other tail hother hsettled => ?_⟩
          obtain rfl := List.head?_eq_none_iff.1 (hsettled.resolve_left fun hne => hne rfl)
          exact ⟨.declaration, other.skip 1, markupSort_otherwise (by simp [hother])
            (by simp [hother]), rfl, by rw [Cursor.skip, hother]; rfl⟩
      | cons c rest =>
          have hskip : ∀ {other : Cursor} {tail : List Char}, other.rest = c :: tail →
              (other.skip 1).rest = tail := fun hother => @rest_skip _ [c] _ hother
          rw [hskip hrest]
          refine ⟨[c], rfl, fun other tail hother hsettled => ?_⟩
          have htail := hsettled.resolve_left fun hne => hne rfl
          refine ⟨.declaration, other.skip 1, markupSort_otherwise ?_ ?_, rfl, hskip hother⟩
          · intro more hmore
            obtain ⟨rfl, rfl⟩ := List.cons.inj (hother.symm.trans hmore)
            obtain ⟨others, rfl⟩ := List.head?_eq_some_iff.1 htail.symm
            exact hcomment others hrest
          · intro more hmore
            obtain ⟨rfl, -⟩ := List.cons.inj (hother.symm.trans hmore)
            exact hbracketed rest hrest

theorem echoes_cdataBracket : Echoes id (fun _ => True) cdataBracket cdataBracket := by
  intro cursor found stop h
  unfold cdataBracket at h
  split at h
  · next after hnext =>
      obtain ⟨-, rfl⟩ := EStateM.Result.ok.inj h
      have hrest : cursor.rest = '[' :: after.rest := by
        cases hcursor : cursor.rest with
        | nil => simp [Cursor.next, hcursor] at hnext
        | cons c rest =>
            obtain ⟨hc, rfl⟩ := by simpa [Cursor.next, hcursor] using hnext
            rw [hc]
      refine ⟨['['], hrest, fun other tail hother _ => ?_⟩
      refine ⟨(), other.next.2, ?_, rfl, rest_next hother⟩
      simp only [cdataBracket, Cursor.next, hother, List.cons_append]
  · simp [fail] at h

/-- Text up to a literal is the same, whatever follows the literal. -/
theorem echoes_textUntil (literal : String) (fault : MarkupFault) :
    Echoes id (fun _ => True) (textUntil literal fault) (textUntil literal fault) := by
  intro cursor value stop h
  unfold textUntil at h
  split at h
  · next index hindex =>
      obtain ⟨rfl, rfl⟩ := EStateM.Result.ok.inj h
      obtain ⟨before, behind, hrest, rfl, hlocal⟩ := Text.exists_of_indexOf? hindex
      have hskip : ∀ {other : Cursor} {tail : List Char},
          other.rest = before ++ (literal.toList ++ tail) →
          (other.skip (before.length + literal.length)).rest = tail := by
        intro other tail hother
        have hlength : before.length + literal.length = (before ++ literal.toList).length := by
          rw [List.length_append, String.length_toList]
        rw [hlength]
        exact rest_skip (by rw [hother, List.append_assoc])
      refine ⟨before ++ literal.toList, by rw [hskip hrest, hrest, List.append_assoc], ?_⟩
      intro other tail hother _
      rw [List.append_assoc] at hother
      refine ⟨String.ofList before, other.skip (before.length + literal.length), ?_, ?_,
        hskip hother⟩
      · simp only [textUntil, hother, hlocal, List.take_left]
      · rw [hrest, List.take_left]
  · simp [fail] at h

theorem ok_cdataText_iff {cursor stop : Cursor} {value : String} :
    cdataText cursor = .ok value stop ↔ textUntil "]]>" .unclosedCdata cursor = .ok value stop := by
  unfold cdataText textUntil
  cases Text.indexOf? "]]>".toList cursor.rest with
  | none => simp [fail]
  | some index => rfl

theorem echoes_cdataText : Echoes id (fun _ => True) cdataText cdataText := by
  intro cursor value stop h
  obtain ⟨used, hused, hecho⟩ := echoes_textUntil _ _ (ok_cdataText_iff.1 h)
  refine ⟨used, hused, fun other tail hother hsettled => ?_⟩
  obtain ⟨found, behind, hfound, hsame⟩ := hecho hother hsettled
  exact ⟨found, behind, ok_cdataText_iff.2 hfound, hsame⟩

theorem echoes_declarationEnd (nesting : Nat) :
    Echoes id (fun _ => True) (declarationEnd nesting) (declarationEnd nesting) := by
  intro cursor found stop h
  obtain ⟨body, hbody, -, hlocal⟩ := exists_of_pastDeclaration? (ok_of_declarationEnd h)
  refine ⟨body, hbody, fun other tail hother _ => ?_⟩
  obtain ⟨behind, hend, hbehind⟩ :=
    exists_declarationEnd ((congrArg _ hother).trans (hlocal tail))
  exact ⟨(), behind, hend, rfl, hbehind⟩

end Scan

end XmlToJson

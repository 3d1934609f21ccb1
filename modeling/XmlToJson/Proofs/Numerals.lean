import Mathlib.Data.List.Basic
import XmlToJson.Proofs.Escapes

/-!
# Whole numbers, plain and tolerated

The number of a character is written in plain digits.  The reading of whole numbers takes these, but
it takes more: blanks around the number, a sign, single underscores between digits, the digits of
every script and, in base sixteen, a mark of the base; and in base ten it takes no more than
`maxDigits` digits.  `PlainDigits` is the first grammar and `Tolerated` the second one, and a
positive number is read from exactly the texts of the second (`hexadecimal?_eq_some_iff`,
`decimal?_eq_some_iff`).

## Strategy

Reading takes off the blanks, the sign and the mark and then reads digits, so the proof goes from
the inside to the outside.

* **Digits.**  `Grouped` says that characters are digits with at most one underscore between two of
  them, and what number they stand for.  It is an induction from the last digit, and so is reading:
  `ofDigits?_append` says that reading goes on behind digits that have been read.  Together they
  give `ofDigits?_eq_some_iff`.  Which characters are digits at all is looked up among the first 128
  characters (`mem_digitChars_of_digit?`), since characters of other scripts are simplified to these
  first.
* **Around the digits.**  `exists_of_bodyOf`, `exists_of_signOf` and `exists_of_withoutMark` say
  what was taken off, and `bodyOf_eq`, `signOf_append` and `withoutMark_append` that it is taken off
  where it is there.  The second ones need that no character of the number is a blank, a sign or a
  mark (`Grouped.facts`), and that a number begins and ends with a digit (`Grouped.ends`).
* **The sign.**  A number that is not negative may have a plus; where a positive number is read
  there is no minus (`eq_some_of_map`).

Plain digits are tolerated, if there are not too many in base ten (`PlainDigits.tolerated`).
-/

namespace XmlToJson.Numeral

/-! ## Digits -/

/-- Whether characters are ASCII digits in a base, and the number that they stand for.  Zeros may
lead it. -/
inductive PlainDigits (base : Nat) : Nat → List Char → Prop where
  | single {digit : Nat} {c : Char} :
      digit < base → c ∈ digitChars digit → PlainDigits base digit [c]
  | snoc {value digit : Nat} {c : Char} {chars : List Char} :
      PlainDigits base value chars → digit < base → c ∈ digitChars digit →
      PlainDigits base (value * base + digit) (chars ++ [c])

/-- Whether characters are digits in a base, with at most one underscore between two of them, and
the number that they stand for. -/
inductive Grouped (base : Nat) : Nat → List Char → Prop where
  | single {digit : Nat} {c : Char} : digit < base → c ∈ digitChars digit → Grouped base digit [c]
  | snoc {value digit : Nat} {c : Char} {chars : List Char} :
      Grouped base value chars → digit < base → c ∈ digitChars digit →
      Grouped base (value * base + digit) (chars ++ [c])
  | group {value digit : Nat} {c : Char} {chars : List Char} :
      Grouped base value chars → digit < base → c ∈ digitChars digit →
      Grouped base (value * base + digit) (chars ++ ['_', c])

variable {base value digit : Nat} {c : Char} {chars rest text : List Char}

theorem PlainDigits.grouped (h : PlainDigits base value chars) : Grouped base value chars := by
  induction h with
  | single hlt hc => exact .single hlt hc
  | snoc _ hlt hc ih => exact .snoc ih hlt hc

/-- A property of the digits of a base holds of all characters of a number. -/
theorem PlainDigits.forall_mem (h : PlainDigits base value chars) {p : Char → Prop}
    (hp : ∀ digit < base, ∀ c ∈ digitChars digit, p c) : ∀ c ∈ chars, p c := by
  induction h with
  | single hlt hc => exact List.forall_mem_singleton.2 (hp _ hlt _ hc)
  | snoc _ hlt hc ih =>
      rw [List.forall_mem_append, List.forall_mem_singleton]
      exact ⟨ih, hp _ hlt _ hc⟩

theorem Grouped.forall_mem (h : Grouped base value chars) {p : Char → Prop} (hunderscore : p '_')
    (hp : ∀ digit < base, ∀ c ∈ digitChars digit, p c) : ∀ c ∈ chars, p c := by
  induction h with
  | single hlt hc => exact List.forall_mem_singleton.2 (hp _ hlt _ hc)
  | snoc _ hlt hc ih =>
      rw [List.forall_mem_append, List.forall_mem_singleton]
      exact ⟨ih, hp _ hlt _ hc⟩
  | group _ hlt hc ih =>
      rw [List.forall_mem_append, List.forall_mem_cons, List.forall_mem_singleton]
      exact ⟨ih, hunderscore, hp _ hlt _ hc⟩

/-- A number begins and ends with a digit. -/
theorem Grouped.ends (h : Grouped base value chars) {p : Char → Prop}
    (hp : ∀ digit < base, ∀ c ∈ digitChars digit, p c) :
    chars ≠ [] ∧ (∀ c ∈ chars.head?, p c) ∧ ∀ c ∈ chars.getLast?, p c := by
  induction h with
  | single hlt hc => exact ⟨List.cons_ne_nil _ _, by simpa using hp _ hlt _ hc,
      by simpa using hp _ hlt _ hc⟩
  | snoc _ hlt hc ih =>
      refine ⟨by simp, ?_, by simpa using hp _ hlt _ hc⟩
      rw [List.head?_append_of_ne_nil _ ih.1]
      exact ih.2.1
  | group _ hlt hc ih =>
      refine ⟨by simp, ?_, by simpa using hp _ hlt _ hc⟩
      rw [List.head?_append_of_ne_nil _ ih.1]
      exact ih.2.1

/-! ### Reading digits -/

theorem digit?_of_lt {other : Nat} (h : digit? other c = some digit) (hlt : digit < base) :
    digit? base c = some digit := by
  simp only [digit?] at h ⊢
  split at h
  · obtain ⟨-, rfl⟩ : _ ∧ c.toNat - 48 = digit := by simpa using h
    next hdigit => rw [if_pos hdigit, if_pos hlt]
  · next hdigit =>
      rw [if_neg hdigit]
      split at h
      · next hlower =>
          obtain ⟨-, rfl⟩ : _ ∧ c.toNat - 87 = digit := by simpa using h
          rw [if_pos hlower, if_pos hlt]
      · next hlower =>
          rw [if_neg hlower]
          split at h
          · next hupper =>
              obtain ⟨-, rfl⟩ : _ ∧ c.toNat - 55 = digit := by simpa using h
              rw [if_pos hupper, if_pos hlt]
          · simp at h

/-- Every digit is one of the first 128 characters, which can be looked through. -/
theorem mem_digitChars_of_digit? (h : digit? 16 c = some digit) : c ∈ digitChars digit := by
  have htable : ∀ n : Fin 128, ∀ found ∈ digit? 16 (Char.ofNat n),
      Char.ofNat n ∈ digitChars found := by
    decide +kernel
  have hsmall : c.toNat < 128 := by
    simp only [digit?, Char.isDigit, Bool.and_eq_true, decide_eq_true_eq] at h
    split at h
    · next hdigit => exact Nat.lt_of_le_of_lt hdigit.2 (by decide)
    · split at h
      · next hlower => exact Nat.lt_of_le_of_lt hlower.2 (by decide)
      · split at h
        · next hupper => exact Nat.lt_of_le_of_lt hupper.2 (by decide)
        · simp at h
  have hc := htable ⟨c.toNat, hsmall⟩ digit
  simp only [Char.ofNat_toNat] at hc
  exact hc h

theorem digit?_eq_some_iff (hbase : base ≤ 16) :
    digit? base c = some digit ↔ digit < base ∧ c ∈ digitChars digit := by
  constructor
  · intro h
    have hlt : digit < base := by
      have hvalue : ∀ found : Nat, (if found < base then some found else none) = some digit →
          digit < base := by
        intro found hfound
        split at hfound
        · next hlt => exact Option.some.inj hfound ▸ hlt
        · simp at hfound
      exact hvalue _ h
    exact ⟨hlt, mem_digitChars_of_digit? (digit?_of_lt h (Nat.lt_of_lt_of_le hlt hbase))⟩
  · rintro ⟨hlt, hc⟩
    have hfacts := digitChars_facts ⟨digit, Nat.lt_of_lt_of_le hlt hbase⟩ c hc
    exact digit?_of_lt hfacts.1 hlt

/-- Reading goes on behind digits that have been read. -/
theorem ofDigits?_append {found : Nat} {afterDigit : Bool}
    (h : ofDigits? base value afterDigit chars = some found) :
    ofDigits? base value afterDigit (chars ++ rest) = ofDigits? base found true rest := by
  induction chars generalizing value afterDigit with
  | nil =>
      cases afterDigit with
      | false => simp [ofDigits?] at h
      | true =>
          obtain rfl : value = found := by simpa [ofDigits?] using h
          rfl
  | cons first others ih =>
      rw [List.cons_append]
      rw [ofDigits?] at h ⊢
      split at h
      · next hunderscore =>
          rw [if_pos hunderscore]
          split at h
          · next hafter =>
              rw [if_pos hafter]
              exact ih h
          · simp at h
      · next hunderscore =>
          rw [if_neg hunderscore]
          split at h
          · exact ih h
          · simp at h

theorem ofDigits?_digit (hbase : base ≤ 16) (hlt : digit < base) (hc : c ∈ digitChars digit)
    (afterDigit : Bool) :
    ofDigits? base value afterDigit (c :: rest) =
      ofDigits? base (value * base + digit) true rest := by
  have hfacts := digitChars_facts ⟨digit, Nat.lt_of_lt_of_le hlt hbase⟩ c hc
  have hunderscore : c ≠ '_' := hfacts.2.2.2.2.1
  simp only [ofDigits?, if_neg hunderscore, (digit?_eq_some_iff hbase).2 ⟨hlt, hc⟩]

/-- What is read behind digits, and behind an underscore that follows them. -/
theorem Grouped.append {found : Nat} (hbase : base ≤ 16) (h : Grouped base value chars) :
    (ofDigits? base value true rest = some found → Grouped base found (chars ++ rest)) ∧
      (ofDigits? base value false rest = some found →
        Grouped base found (chars ++ '_' :: rest)) := by
  induction rest generalizing value chars with
  | nil =>
      refine ⟨fun hfound => ?_, fun hfound => by simp [ofDigits?] at hfound⟩
      obtain rfl : value = found := by simpa [ofDigits?] using hfound
      rwa [List.append_nil]
  | cons c rest ih =>
      by_cases hunderscore : c = '_'
      · subst hunderscore
        refine ⟨fun hfound => (ih h).2 (by simpa [ofDigits?] using hfound), fun hfound => ?_⟩
        simp [ofDigits?] at hfound
      · cases hdigit : digit? base c with
        | none => simp [ofDigits?, hunderscore, hdigit]
        | some digit =>
            obtain ⟨hlt, hc⟩ := (digit?_eq_some_iff hbase).1 hdigit
            rw [ofDigits?_digit hbase hlt hc, ofDigits?_digit hbase hlt hc]
            refine ⟨fun hfound => ?_, fun hfound => ?_⟩
            · have hgrouped := (ih (h.snoc hlt hc)).1 hfound
              rwa [List.append_assoc] at hgrouped
            · have hgrouped := (ih (h.group hlt hc)).1 hfound
              rwa [List.append_assoc] at hgrouped

/-- A number is read from digits that are grouped, and from nothing else. -/
theorem ofDigits?_eq_some_iff (hbase : base ≤ 16) :
    ofDigits? base 0 false chars = some value ↔ Grouped base value chars := by
  constructor
  · intro h
    cases chars with
    | nil => simp [ofDigits?] at h
    | cons c rest =>
        by_cases hunderscore : c = '_'
        · simp [ofDigits?, hunderscore] at h
        · cases hdigit : digit? base c with
          | none => simp [ofDigits?, hunderscore, hdigit] at h
          | some digit =>
              obtain ⟨hlt, hc⟩ := (digit?_eq_some_iff hbase).1 hdigit
              rw [ofDigits?_digit hbase hlt hc, Nat.zero_mul, Nat.zero_add] at h
              exact ((Grouped.single hlt hc).append hbase).1 h
  · intro h
    induction h with
    | single hlt hc =>
        rw [ofDigits?_digit hbase hlt hc, Nat.zero_mul, Nat.zero_add]
        rfl
    | snoc _ hlt hc ih =>
        rw [ofDigits?_append ih, ofDigits?_digit hbase hlt hc]
        rfl
    | @group value digit c chars _ hlt hc ih =>
        have hgap : ofDigits? base value true ('_' :: [c]) = ofDigits? base value false [c] := by
          simp [ofDigits?]
        rw [ofDigits?_append ih, hgap, ofDigits?_digit hbase hlt hc]
        rfl

/-! ## Around the digits -/

/-- The marks that may stand in front of the digits of a base. -/
def marks : Nat → List (List Char)
  | 16 => [[], ['0', 'x'], ['0', 'X'], ['0', 'x', '_'], ['0', 'X', '_']]
  | _ => [[]]

/-- Whether a text is read as a number that is not negative.  Of its characters only their kind
counts, as `simplify` gives it. -/
inductive Tolerated (base : Nat) (text : List Char) (value : Nat) : Prop where
  | intro {lead sign mark digits trail : List Char} :
      text.map simplify = lead ++ (sign ++ (mark ++ digits)) ++ trail →
      (∀ c ∈ lead ++ trail, isSpace c = true) → sign ∈ [[], ['+']] → mark ∈ marks base →
      Grouped base value digits → (base = 10 → digits.countP (· != '_') ≤ maxDigits) →
      Tolerated base text value

theorem exists_of_bodyOf (text : List Char) :
    ∃ lead trail, text.map simplify = lead ++ bodyOf text ++ trail ∧
      ∀ c ∈ lead ++ trail, isSpace c = true := by
  generalize hchars : text.map simplify = chars
  generalize hbehind : chars.dropWhile isSpace = behind
  refine ⟨chars.takeWhile isSpace, (behind.reverse.takeWhile isSpace).reverse, ?_, ?_⟩
  · have hback : behind = (behind.reverse.dropWhile isSpace).reverse ++
        (behind.reverse.takeWhile isSpace).reverse := by
      rw [← List.reverse_append, List.takeWhile_append_dropWhile, List.reverse_reverse]
    rw [bodyOf, hchars, hbehind, List.append_assoc, ← hback, ← hbehind,
      List.takeWhile_append_dropWhile]
  · intro c hc
    rcases List.mem_append.1 hc with hlead | htrail
    · exact List.all_eq_true.1 List.all_takeWhile c hlead
    · exact List.all_eq_true.1 List.all_takeWhile c (List.mem_reverse.1 htrail)

theorem bodyOf_eq {lead body trail : List Char} (h : text.map simplify = lead ++ body ++ trail)
    (hspaces : ∀ c ∈ lead ++ trail, isSpace c = true) (hne : body ≠ [])
    (hhead : ∀ c ∈ body.head?, isSpace c = false)
    (hlast : ∀ c ∈ body.getLast?, isSpace c = false) : bodyOf text = body := by
  obtain ⟨hlead, htrail⟩ := List.forall_mem_append.1 hspaces
  have htrail : ∀ c ∈ trail.reverse, isSpace c = true := fun c hc =>
    htrail c (List.mem_reverse.1 hc)
  have hfront : (body ++ trail).dropWhile isSpace = body ++ trail := by
    refine dropWhile_eq_self ?_
    rwa [List.head?_append_of_ne_nil _ hne]
  have hback : body.reverse.dropWhile isSpace = body.reverse := by
    refine dropWhile_eq_self ?_
    rwa [List.head?_reverse]
  rw [bodyOf, h, List.append_assoc, List.dropWhile_append_of_pos hlead, hfront,
    List.reverse_append, List.dropWhile_append_of_pos htrail, hback, List.reverse_reverse]

theorem exists_of_signOf {body digits : List Char} (h : signOf body = (false, digits)) :
    ∃ sign ∈ [[], ['+']], body = sign ++ digits := by
  unfold signOf at h
  split at h
  · simp at h
  · obtain rfl := (Prod.mk.inj h).2
    exact ⟨['+'], by simp, rfl⟩
  · obtain rfl := (Prod.mk.inj h).2
    exact ⟨[], by simp, rfl⟩

theorem signOf_append {sign : List Char} (hsign : sign ∈ [[], ['+']])
    (hminus : rest.head? ≠ some '-') (hplus : rest.head? ≠ some '+') :
    signOf (sign ++ rest) = (false, rest) := by
  rcases List.mem_cons.1 hsign with rfl | hsign
  · exact signOf_eq hminus hplus
  · obtain rfl := List.mem_singleton.1 hsign
    rfl

theorem exists_of_withoutMark (text : List Char) :
    ∃ mark ∈ marks 16, text = mark ++ withoutMark text := by
  unfold withoutMark
  split
  · next x rest =>
      split
      · next hx =>
          split
          · next after =>
              rcases hx with rfl | rfl
              · exact ⟨['0', 'x', '_'], by simp [marks], rfl⟩
              · exact ⟨['0', 'X', '_'], by simp [marks], rfl⟩
          · rcases hx with rfl | rfl
            · exact ⟨['0', 'x'], by simp [marks], rfl⟩
            · exact ⟨['0', 'X'], by simp [marks], rfl⟩
      · exact ⟨[], by simp [marks], rfl⟩
  · exact ⟨[], by simp [marks], rfl⟩

/-- The characters of digits are no spaces, signs or marks. -/
theorem Grouped.facts (hbase : base ≤ 16) (h : Grouped base value chars) :
    (∀ c ∈ chars, isSpace c = false ∧ c ≠ '-' ∧ c ≠ '+' ∧ c ≠ 'x' ∧ c ≠ 'X') ∧
      chars.head? ≠ some '_' := by
  have hfacts : ∀ digit < base, ∀ c ∈ digitChars digit,
      (isSpace c = false ∧ c ≠ '-' ∧ c ≠ '+' ∧ c ≠ 'x' ∧ c ≠ 'X') ∧ c ≠ '_' := by
    intro digit hlt c hc
    obtain ⟨-, -, -, hspace, hunderscore, hminus, hplus, hlower, hupper, -⟩ :=
      digitChars_facts ⟨digit, Nat.lt_of_lt_of_le hlt hbase⟩ c hc
    exact ⟨⟨hspace, hminus, hplus, hlower, hupper⟩, hunderscore⟩
  refine ⟨h.forall_mem (by decide) fun digit hlt c hc => (hfacts digit hlt c hc).1, ?_⟩
  intro hhead
  exact (h.ends fun digit hlt c hc => (hfacts digit hlt c hc).2).2.1 '_' hhead rfl

theorem withoutMark_append {mark digits : List Char} (hmark : mark ∈ marks 16)
    (h : Grouped 16 value digits) : withoutMark (mark ++ digits) = digits := by
  obtain ⟨hchars, hhead⟩ := h.facts (Nat.le_refl 16)
  have hmarks : mark = [] ∨ mark = ['0', 'x'] ∨ mark = ['0', 'X'] ∨ mark = ['0', 'x', '_'] ∨
      mark = ['0', 'X', '_'] := by
    simpa [marks] using hmark
  -- Behind a bare mark no underscore is left out.
  have hfree : ∀ after, digits = '_' :: after → False := by
    rintro after rfl
    exact hhead rfl
  rcases hmarks with rfl | rfl | rfl | rfl | rfl
  · -- Without a mark the second character is a digit or an underscore.
    rw [List.nil_append]
    unfold withoutMark
    split
    · next x rest =>
        have hx := hchars x (by simp)
        rw [if_neg]
        rintro (rfl | rfl)
        · exact hx.2.2.2.1 rfl
        · exact hx.2.2.2.2 rfl
    · rfl
  · simp only [List.cons_append, List.nil_append, withoutMark, true_or, if_true]
  · simp only [List.cons_append, List.nil_append, withoutMark, or_true, if_true]
  · rfl
  · rfl

/-- A sign, a mark and digits are found between the spaces. -/
theorem body_of_tolerated {lead sign mark digits trail : List Char} (hbase : base ≤ 16)
    (htext : text.map simplify = lead ++ (sign ++ (mark ++ digits)) ++ trail)
    (hspaces : ∀ c ∈ lead ++ trail, isSpace c = true) (hsign : sign ∈ [[], ['+']])
    (hmark : mark ∈ marks 16) (h : Grouped base value digits) :
    signOf (bodyOf text) = (false, mark ++ digits) := by
  obtain ⟨hchars, -⟩ := h.facts hbase
  obtain ⟨hne, -, -⟩ := @Grouped.ends _ _ _ h (fun _ => True) (by simp)
  obtain ⟨first, others, hdigits⟩ := List.exists_cons_of_ne_nil hne
  have hfirst := hchars first (by simp [hdigits])
  have hmarked : ∀ c ∈ (mark ++ digits).head?, isSpace c = false ∧ c ≠ '-' ∧ c ≠ '+' := by
    have hmarks : mark = [] ∨ mark.head? = some '0' := by
      simp only [marks, List.mem_cons, List.not_mem_nil, or_false] at hmark
      rcases hmark with rfl | rfl | rfl | rfl | rfl <;> simp
    intro c hc
    rcases hmarks with rfl | hzero
    · rw [List.nil_append, hdigits] at hc
      obtain rfl := Option.some.inj hc
      exact ⟨hfirst.1, hfirst.2.1, hfirst.2.2.1⟩
    · rw [List.head?_append, hzero] at hc
      obtain rfl : '0' = c := by simpa using hc
      decide
  have hbody : bodyOf text = sign ++ (mark ++ digits) := by
    refine bodyOf_eq htext hspaces (by simp [hne]) (fun c hc => ?_) (fun c hc => ?_)
    · rcases List.mem_cons.1 hsign with rfl | hplus
      · exact (hmarked c hc).1
      · obtain rfl := List.mem_singleton.1 hplus
        obtain rfl : '+' = c := by simpa using hc
        decide
    · have hmem : c ∈ digits := by
        rw [← List.append_assoc, List.getLast?_append_of_ne_nil _ hne] at hc
        exact List.mem_of_getLast? hc
      exact (hchars c hmem).1
  rw [hbody]
  refine signOf_append hsign (fun hhead => ?_) (fun hhead => ?_)
  · exact (hmarked '-' hhead).2.1 rfl
  · exact (hmarked '+' hhead).2.2 rfl

/-- Where a positive number is read there is no minus. -/
theorem eq_some_of_map {negative : Bool} {found : Option Nat} (hpos : 0 < value)
    (h : ((do let n ← found; pure (n : Int)).map fun n : Int => if negative then -n else n) =
      some (value : Int)) : negative = false ∧ found = some value := by
  cases found with
  | none => simp at h
  | some n =>
      have hn : (if negative then -(n : Int) else n) = value := Option.some.inj h
      cases negative with
      | true =>
          simp only [if_true] at hn
          omega
      | false =>
          simp only [Bool.false_eq_true, if_false] at hn
          exact ⟨rfl, congrArg some (by omega)⟩

/-- A positive number in base sixteen is read from exactly the texts that are tolerated. -/
theorem hexadecimal?_eq_some_iff (hpos : 0 < value) :
    hexadecimal? text = some (value : Int) ↔ Tolerated 16 text value := by
  constructor
  · intro h
    unfold hexadecimal? at h
    rcases hsigned : signOf (bodyOf text) with ⟨negative, digits⟩
    rw [hsigned] at h
    obtain ⟨rfl, hread⟩ := eq_some_of_map hpos h
    obtain ⟨lead, trail, htext, hspaces⟩ := exists_of_bodyOf text
    obtain ⟨sign, hsign, hbody⟩ := exists_of_signOf hsigned
    obtain ⟨mark, hmark, hdigits⟩ := exists_of_withoutMark digits
    rw [hbody, hdigits] at htext
    exact .intro htext hspaces hsign hmark ((ofDigits?_eq_some_iff (Nat.le_refl 16)).1 hread)
      (by simp)
  · rintro ⟨htext, hspaces, hsign, hmark, hgrouped, -⟩
    unfold hexadecimal?
    rw [body_of_tolerated (Nat.le_refl 16) htext hspaces hsign hmark hgrouped]
    simp only [withoutMark_append hmark hgrouped,
      (ofDigits?_eq_some_iff (Nat.le_refl 16)).2 hgrouped]
    rfl

/-- A positive number in base ten is read from exactly the texts that are tolerated. -/
theorem decimal?_eq_some_iff (hpos : 0 < value) :
    decimal? text = some (value : Int) ↔ Tolerated 10 text value := by
  constructor
  · intro h
    unfold decimal? at h
    rcases hsigned : signOf (bodyOf text) with ⟨negative, digits⟩
    rw [hsigned] at h
    dsimp only at h
    split at h
    · simp at h
    · next hcount =>
        obtain ⟨rfl, hread⟩ := eq_some_of_map hpos h
        obtain ⟨lead, trail, htext, hspaces⟩ := exists_of_bodyOf text
        obtain ⟨sign, hsign, hbody⟩ := exists_of_signOf hsigned
        rw [hbody] at htext
        exact @Tolerated.intro 10 text value lead sign [] digits trail htext hspaces hsign
          (by simp [marks]) ((ofDigits?_eq_some_iff (by decide)).1 hread)
          fun _ => Nat.le_of_not_lt hcount
  · rintro ⟨htext, hspaces, hsign, hmark, hgrouped, hcount⟩
    obtain rfl := List.mem_singleton.1 hmark
    unfold decimal?
    rw [body_of_tolerated (by decide) htext hspaces hsign (by simp [marks]) hgrouped]
    have hshort : ¬ maxDigits < _ := Nat.not_lt.2 (hcount rfl)
    simp only [List.nil_append, if_neg hshort, (ofDigits?_eq_some_iff (by decide)).2 hgrouped]
    rfl

/-- Plain digits are tolerated, if there are not too many in base ten. -/
theorem PlainDigits.tolerated (hbase : base ≤ 16) (hmark : [] ∈ marks base)
    (h : PlainDigits base value chars) (hlength : base = 10 → chars.length ≤ maxDigits) :
    Tolerated base chars value := by
  have hsame : chars.map simplify = chars := by
    have hchars : ∀ c ∈ chars, simplify c = id c := h.forall_mem fun digit hlt c hc =>
      (digitChars_facts ⟨digit, Nat.lt_of_lt_of_le hlt hbase⟩ c hc).2.2.1
    exact (List.map_congr_left hchars).trans (List.map_id chars)
  refine @Tolerated.intro base chars value [] [] [] chars [] ?_ (by simp) (by simp) hmark h.grouped
    fun hten => ?_
  · rw [hsame]
    simp
  · exact Nat.le_trans List.countP_le_length (hlength hten)

end XmlToJson.Numeral

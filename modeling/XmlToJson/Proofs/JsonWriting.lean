import XmlToJson.Json.Writer
import XmlToJson.Proofs.JsonGrammar
import XmlToJson.Proofs.Scalars

/-!
# What is written is allowed by the grammar

Every value is written as a text of the strict grammar, if its floating-point numbers are finite and
lines are indented with spaces (`Value.isJson_toJson`).  The text stands for the value itself, apart
from two things that the grammar does not know: both sorts of arrays are written alike, and a
floating-point number is written in decimal digits, which stand for whatever number they are read as
(`Binary64.reread`).

## Strategy

The writer puts what it writes in front of a text, so each lemma splits off a text of the grammar
from what follows.

* **Characters.**  A character is written as itself or by an escape that stands for it
  (`spellsChar_escape`); the digits of a code unit are padded to four, the last one behind the
  others (`paddedDigits_succ`).
* **Floating-point numbers** are written with a point or with an exponent.  In either layout they
  are literals (`isUnsigned_positional`, `isUnsigned_exponential`) if their digits do not begin with
  a zero that does not belong there.  They do not: the decimal number that is written is zero only
  if it is `0` itself (`Binary64.scale_shortest`), as zero does not read back as any other number.
* **Layouts.**  A layout may put spaces at the beginning of lines and behind commas, where the
  grammar allows them (`isSpaces_newLine`, `exists_separator`).
* **Values.**  `Value.exists_write` and the two lemmas with it are the induction on a value, its
  items and its members.

What a machine writes is the same text, or none: there has to be a layout
(`JsonLayout.ofInt_eq_ok_iff`), the machine goes into all the levels of the value, and the text is
not too long (`Value.IsWritable`, `Value.printWith_eq_ok_iff`).  `Value.IsUnwritable` says what is
in the way where it is none (`Value.isUnwritable_of_printWith`).
-/

namespace XmlToJson

open JsonGrammar Numeral

/-! ## Characters -/

section Characters

/-- The digits of a number in base sixteen, with zeros in front up to a length. -/
def paddedDigits (length n : Nat) : List Char :=
  List.replicate (length - (Nat.toDigits 16 n).length) '0' ++ Nat.toDigits 16 n

theorem paddedDigits_one {n : Nat} (hn : n < 16) : paddedDigits 1 n = [Nat.digitChar n] := by
  rw [paddedDigits, Nat.toDigits_of_lt_base hn]
  rfl

/-- The last digit stands behind the others. -/
theorem paddedDigits_succ {length : Nat} (hlength : 0 < length) (n : Nat) :
    paddedDigits (length + 1) n = paddedDigits length (n / 16) ++ [Nat.digitChar (n % 16)] := by
  obtain ⟨length, rfl⟩ := Nat.exists_eq_add_of_le' hlength
  unfold paddedDigits
  rw [@Nat.toDigits_eq_if 16 n (by decide)]
  split
  · next hsmall =>
      rw [Nat.div_eq_of_lt hsmall, Nat.mod_eq_of_lt hsmall, Nat.toDigits_zero,
        List.length_singleton, List.length_singleton, ← List.replicate_succ']
      rfl
  · rw [List.length_append, List.length_singleton, Nat.add_sub_add_right, List.append_assoc]

theorem spellsUnit_paddedDigits {code : Nat} (hcode : code < 0x10000) :
    SpellsUnit code (paddedDigits 4 code) := by
  have hdigits : paddedDigits 4 code = [Nat.digitChar (code / 16 / 16 / 16),
      Nat.digitChar (code / 16 / 16 % 16), Nat.digitChar (code / 16 % 16),
      Nat.digitChar (code % 16)] := by
    rw [paddedDigits_succ (by decide), paddedDigits_succ (by decide),
      paddedDigits_succ (by decide), paddedDigits_one (by omega)]
    rfl
  have hdigit : ∀ digit : Fin 16, Nat.digitChar digit.val ∈ digitChars digit.val :=
    fun digit => List.mem_cons_self
  have hspells := SpellsUnit.intro (hdigit ⟨code / 16 / 16 / 16, by omega⟩)
    (hdigit ⟨code / 16 / 16 % 16, by omega⟩) (hdigit ⟨code / 16 % 16, by omega⟩)
    (hdigit ⟨code % 16, by omega⟩)
  have hvalue : ((code / 16 / 16 / 16 * 16 + code / 16 / 16 % 16) * 16 + code / 16 % 16) * 16 +
      code % 16 = code := by
    omega
  rw [hdigits]
  rwa [hvalue] at hspells

theorem unitEscape_eq (code : Nat) :
    Value.unitEscape code = '\\' :: 'u' :: paddedDigits 4 code := rfl

theorem spellsChar_charEscape (c : Char) : SpellsChar c (Value.charEscape c.toNat) := by
  have hvalid : c.toNat.isValidChar := c.valid
  unfold Nat.isValidChar at hvalid
  unfold Value.charEscape
  split
  · next hsmall =>
      rw [unitEscape_eq]
      exact .unit (spellsUnit_paddedDigits hsmall)
  · next hgreat =>
      have hhigh : highUnit c.toNat < 0x10000 := by
        unfold highUnit
        omega
      have hlow : lowUnit c.toNat < 0x10000 := by
        unfold lowUnit
        omega
      rw [← highUnit, ← lowUnit, unitEscape_eq, unitEscape_eq, List.cons_append, List.cons_append]
      exact .pair (Nat.not_lt.1 hgreat) (spellsUnit_paddedDigits hhigh)
        (spellsUnit_paddedDigits hlow)

/-- A character is written as itself or by an escape that stands for it. -/
theorem spellsChar_escape (ascii : Bool) (c : Char) : SpellsChar c (Value.escape ascii c) := by
  have hshort : ∀ mark d : Char, (mark, d) ∈ shortEscapes → c = d → SpellsChar c ['\\', mark] := by
    rintro mark d hmem rfl
    exact .short hmem
  have hcode : ∀ d : Char, c.toNat = d.toNat → c = d := fun d h => Char.toNat_inj.1 h
  unfold Value.escape
  split
  · next h => exact hshort '"' '"' (by decide) h
  split
  · next h => exact hshort '\\' '\\' (by decide) h
  split
  · next h => exact hshort 'n' '\n' (by decide) h
  split
  · next h => exact hshort 'r' '\r' (by decide) h
  split
  · next h => exact hshort 't' '\t' (by decide) h
  split
  · next h => exact hshort 'b' '\x08' (by decide) (hcode '\x08' h)
  split
  · next h => exact hshort 'f' '\x0c' (by decide) (hcode '\x0c' h)
  split
  · exact spellsChar_charEscape c
  · next hquote hescape _ _ _ _ _ hplain =>
      rw [not_or] at hplain
      exact .raw (Nat.not_lt.1 hplain.1) hquote hescape

theorem spellsChars_flatMap (ascii : Bool) (text : List Char) :
    SpellsChars text (text.flatMap (Value.escape ascii)) := by
  induction text with
  | nil => exact .nil
  | cons c rest ih => exact .cons (spellsChar_escape ascii c) ih

theorem exists_writeText (ascii : Bool) (text : String) (following : List Char) :
    ∃ chars, SpellsString text chars ∧ Value.writeText ascii text following = chars ++ following :=
  ⟨_, ⟨_, spellsChars_flatMap ascii text.toList, rfl⟩, by simp [Value.writeText]⟩

end Characters

/-! ## Floating-point numbers -/

/-- Whether a text is a literal without its sign, and no whole number. -/
def IsUnsigned (text : List Char) : Prop :=
  ∃ whole fraction exponent, IsWhole whole ∧ (∀ c ∈ fraction, c.isDigit = true) ∧
    (exponent = [] ∨ Literal.IsExponent exponent) ∧ (fraction ≠ [] ∨ exponent ≠ []) ∧
    text = whole ++ ((if fraction.isEmpty then [] else '.' :: fraction) ++ exponent)

theorem IsUnsigned.exists_literal {text : List Char} (h : IsUnsigned text) (negative : Bool) :
    ∃ literal : Literal, literal.WellFormed ∧ literal.isInteger = false ∧
      literal.chars = (if negative then ['-'] else []) ++ text := by
  obtain ⟨whole, fraction, exponent, hwhole, hfraction, hexponent, hmore, rfl⟩ := h
  refine ⟨⟨negative, whole, fraction, exponent⟩, ⟨hwhole, hfraction, hexponent⟩, ?_, rfl⟩
  rcases hmore with hmore | hmore <;> simp [Literal.isInteger, hmore]

theorem isDigit_of_mem_zeros {count : Nat} : ∀ c ∈ List.replicate count '0', c.isDigit = true := by
  intro c hc
  obtain ⟨-, rfl⟩ := List.mem_replicate.1 hc
  rfl

/-- Zeros may stand behind digits that do not begin with one. -/
theorem isWhole_append_zeros {digits : List Char} (h : IsWhole digits) {count : Nat}
    (hzero : digits = ['0'] → count = 0) : IsWhole (digits ++ List.replicate count '0') := by
  rcases h with rfl | ⟨⟨hne, hall⟩, hhead⟩
  · obtain rfl := hzero rfl
    exact .inl rfl
  · obtain ⟨c, rest, rfl⟩ := List.exists_cons_of_ne_nil hne
    exact .inr ⟨⟨by simp, List.forall_mem_append.2 ⟨hall, isDigit_of_mem_zeros⟩⟩, hhead⟩

namespace Binary64

theorem isUnsigned_positional {digits : List Char} {whole : Int} (h : IsWhole digits)
    (hzero : digits = ['0'] → whole ≤ 1) : IsUnsigned (positional digits whole) := by
  have hall := h.isDigits.all
  unfold positional
  split
  · refine ⟨['0'], List.replicate (-whole).toNat '0' ++ digits, [], .inl rfl,
      List.forall_mem_append.2 ⟨isDigit_of_mem_zeros, hall⟩, .inl rfl, .inl ?_, ?_⟩
    · simp [h.isDigits.ne_nil]
    · simp [h.isDigits.ne_nil]
  · next hpos =>
      split
      · next hle =>
          refine ⟨digits ++ List.replicate (whole.toNat - digits.length) '0', ['0'], [],
            isWhole_append_zeros h fun heq => ?_, by simp, .inl rfl, .inl (by simp), by simp⟩
          have hone := hzero heq
          rw [heq, List.length_singleton]
          omega
      · next hlong =>
          -- There are at least two digits, and the first is not zero.
          obtain ⟨count, hcount⟩ : ∃ count, whole.toNat = count + 1 :=
            ⟨whole.toNat - 1, by omega⟩
          rw [hcount] at hlong ⊢
          rcases h with rfl | ⟨⟨hne, -⟩, hfirst⟩
          · exact absurd (Nat.le_add_left 1 count) hlong
          · obtain ⟨c, rest, rfl⟩ := List.exists_cons_of_ne_nil hne
            have hrest : (c :: rest).drop (count + 1) ≠ [] := by
              intro hnil
              exact hlong (List.drop_eq_nil_iff.1 hnil)
            refine ⟨(c :: rest).take (count + 1), (c :: rest).drop (count + 1), [],
              .inr ⟨⟨by simp, fun d hd => hall d (List.mem_of_mem_take hd)⟩, by simpa using hfirst⟩,
              fun d hd => hall d (List.mem_of_mem_drop hd), .inl rfl, .inl hrest, ?_⟩
            rw [if_neg (by simpa using hrest), List.append_nil]

theorem isUnsigned_exponential {layout : DecimalLayout} {digits : List Char} {exponent : Int}
    (h : IsWhole digits) : IsUnsigned (exponential layout digits exponent) := by
  obtain ⟨c, rest, rfl⟩ := List.exists_cons_of_ne_nil h.isDigits.ne_nil
  obtain ⟨hdigit, hrest⟩ := List.forall_mem_cons.1 h.isDigits.all
  have hfirst : IsWhole [c] := by
    rcases h with hzero | ⟨-, hhead⟩
    · obtain ⟨rfl, -⟩ := List.cons.inj hzero
      exact .inl rfl
    · exact .inr ⟨⟨by simp, List.forall_mem_singleton.2 hdigit⟩, hhead⟩
  let sign := if exponent < 0 then '-' else '+'
  let zeros := List.replicate
    (layout.exponentDigits - (Nat.toDigits 10 exponent.natAbs).length) '0'
  have hsize : IsDigits (zeros ++ Nat.toDigits 10 exponent.natAbs) :=
    ⟨by simp [Nat.toDigits_ne_nil], List.forall_mem_append.2 ⟨isDigit_of_mem_zeros,
      (Literal.isWhole_toDigits _).isDigits.all⟩⟩
  have hsign : [sign] = [] ∨ [sign] = ['+'] ∨ [sign] = ['-'] := by
    by_cases hnegative : exponent < 0
    · exact .inr (.inr (by simp [sign, hnegative]))
    · exact .inr (.inl (by simp [sign, hnegative]))
  refine ⟨[c], rest, 'e' :: ([sign] ++ (zeros ++ Nat.toDigits 10 exponent.natAbs)), hfirst, hrest,
    .inr ⟨'e', [sign], _, rfl, .inl rfl, hsign, hsize⟩, .inr (by simp), ?_⟩
  unfold exponential
  cases rest with
  | nil => simp [sign, zeros]
  | cons d others => simp [sign, zeros]

/-- A decimal number is written as a literal, if it is zero only as `0` itself. -/
theorem isUnsigned_text {decimal : Decimal} (hzero : decimal.digits = 0 → decimal.scale = 0) :
    IsUnsigned decimal.text := by
  have hwhole := Literal.isWhole_toDigits decimal.digits
  unfold Decimal.text
  dsimp only
  split
  · refine isUnsigned_positional hwhole fun hdigits => ?_
    have hvalue : decimal.digits = 0 := by
      rw [← Literal.natOfDigits_toDigits decimal.digits, hdigits]
      rfl
    rw [hzero hvalue, hdigits]
    decide
  · exact isUnsigned_exponential hwhole

/-! ### The decimal number that is written -/

theorem digits_stripZeros {count : Nat} {decimal : Decimal} (h : decimal.digits ≠ 0) :
    (stripZeros count decimal).digits ≠ 0 := by
  induction count generalizing decimal with
  | zero => exact h
  | succ count ih =>
      rw [stripZeros]
      split
      · next hstrip =>
          refine ih ?_
          show decimal.digits / 10 ≠ 0
          omega
      · exact h

/-- The lower end of the reals that round to a number other than zero is above zero. -/
theorem interval_pos {mantissa : Nat} (hmantissa : mantissa ≠ 0) (exponent : Int) :
    0 < (interval mantissa exponent).1 := by
  have hunit : 0 < (ratio 1 exponent).1 := by
    unfold ratio
    split
    · exact Nat.mul_pos Nat.one_pos (Nat.pow_pos (by decide))
    · exact Nat.one_pos
  unfold interval
  refine Nat.mul_pos ?_ hunit
  split <;> omega

theorem gridFactor_pos (scale : Int) : 0 < gridFactor scale := by
  unfold gridFactor
  split
  · exact Nat.one_pos
  · exact Nat.pow_pos (by decide)

theorem onGrid_zero (scale : Int) (denominator : Nat) : onGrid 0 scale denominator = 0 := by
  simp [onGrid]

/-- Zero does not read back as a number other than zero. -/
theorem digits_onGrid? {mantissa : Nat} {exponent scale : Int} {decimal : Decimal}
    (hmantissa : mantissa ≠ 0) (h : onGrid? mantissa exponent scale = some decimal) :
    decimal.digits ≠ 0 := by
  have hlow := interval_pos hmantissa exponent
  unfold onGrid? at h
  generalize interval mantissa exponent = bounds at h hlow
  obtain ⟨low, value, high, denominator⟩ := bounds
  dsimp -zeta only at h
  extract_lets factor readsBack below above distanceBelow distanceAbove nearer at h
  have hreads : ∀ digits, readsBack digits = true → digits ≠ 0 := by
    rintro digits hreads rfl
    have hpos : 0 < low * factor := Nat.mul_pos hlow (gridFactor_pos scale)
    simp only [readsBack, onGrid_zero] at hreads
    split at hreads <;> simp only [Bool.and_eq_true, decide_eq_true_eq] at hreads <;> omega
  have hnearer : readsBack below = true → readsBack above = true → nearer ≠ 0 := by
    intro hbelow habove
    simp only [nearer]
    split
    · exact hreads below hbelow
    · exact hreads above habove
  clear_value readsBack nearer
  split at h
  · next hboth =>
      obtain ⟨hbelow, habove⟩ := Bool.and_eq_true_iff.1 hboth
      obtain rfl := Option.some.inj h
      exact hnearer hbelow habove
  · split at h
    · next hbelow =>
        obtain rfl := Option.some.inj h
        exact hreads below hbelow
    · split at h
      · next habove =>
          obtain rfl := Option.some.inj h
          exact hreads above habove
      · simp at h

/-- The decimal number that is written is zero only as `0` itself. -/
theorem scale_shortest {mantissa : Nat} {exponent : Int}
    (h : (shortest mantissa exponent).digits = 0) : (shortest mantissa exponent).scale = 0 := by
  unfold shortest at h ⊢
  split
  · rfl
  · next hmantissa =>
      rw [if_neg hmantissa] at h
      dsimp only at h ⊢
      split
      · next decimal hfound =>
          rw [hfound] at h
          obtain ⟨step, -, hgrid⟩ := List.exists_of_findSome?_eq_some hfound
          exact absurd h (digits_stripZeros (digits_onGrid? hmantissa hgrid))
      · rfl

/-- A finite number is written as a literal with a fraction or an exponent. -/
theorem exists_literal {x : Binary64} (h : x.isFinite = true) (infinity notANumber : String) :
    ∃ literal : Literal, literal.WellFormed ∧ literal.isInteger = false ∧
      literal.chars = x.text infinity notANumber := by
  cases x with
  | nan | infinite => simp [isFinite] at h
  | finite negative mantissa exponent =>
      exact (isUnsigned_text scale_shortest).exists_literal negative

/-- The number that the text of a number is read as. -/
def reread (x : Binary64) : Binary64 :=
  ((Literal.read (x.text "Infinity" "NaN")).map fun found => found.1.floatValue).getD x

theorem spellsValue_text {x : Binary64} (h : x.isFinite = true) :
    SpellsValue (.float x.reread) (x.text "Infinity" "NaN") := by
  obtain ⟨literal, hformed, hinteger, hchars⟩ := exists_literal h "Infinity" "NaN"
  have hread : x.reread = literal.floatValue := by
    rw [reread, Literal.read_eq_iff.2 ⟨hformed, hchars⟩]
    rfl
  rw [hread, ← hchars]
  exact .float hformed hinteger

end Binary64

/-! ## Layouts -/

theorem isSpaces_nil : IsSpaces [] := by
  simp [IsSpaces]

theorem isSpaces_space : IsSpaces [' '] := by
  simp [IsSpaces]

/-- Whether a layout indents lines with spaces, if at all. -/
def JsonLayout.IsSpaced (layout : JsonLayout) : Prop :=
  ∀ unit, layout.indentation ≠ some (.text unit)

namespace JsonLayout

variable {host : Host} {layout : JsonLayout}

theorem isSpaced_compact : compact.IsSpaced := by
  simp [IsSpaced, compact]

theorem isSpaced_spaces (count : Int) : (spaces count).IsSpaced := by
  simp [IsSpaced, spaces]

/-- Whether a machine can indent lines with a number of spaces: it is one of 64 bits, and no text
with that many spaces is too long. -/
structure IsWidth (host : Host) (count : Int) : Prop where
  least : -wordBound ≤ count
  greatest : count < wordBound
  fits : count ≤ host.textLength

instance (host : Host) (count : Int) : Decidable (IsWidth host count) :=
  decidable_of_iff (-wordBound ≤ count ∧ count < wordBound ∧ count ≤ host.textLength)
    ⟨fun ⟨least, greatest, fits⟩ => ⟨least, greatest, fits⟩,
      fun h => ⟨h.least, h.greatest, h.fits⟩⟩

theorem ofInt_eq_ok_iff {count : Int} :
    ofInt host count = .ok layout ↔ IsWidth host count ∧ spaces count = layout := by
  unfold ofInt
  split
  · refine iff_of_false (by simp) fun ⟨hwidth, _⟩ => ?_
    have hleast := hwidth.least
    have hgreatest := hwidth.greatest
    omega
  · split
    · next hwide => exact iff_of_false (by simp) fun h => absurd h.1.fits (Int.not_le.2 hwide)
    · rw [Except.ok.injEq]
      exact (and_iff_right ⟨by omega, by omega, by omega⟩).symm

/-- The layout of a setting other than a text indents lines with spaces, if at all. -/
theorem isSpaced_of_ofValue {indent : Value} (hindent : ∀ unit, indent ≠ .string unit)
    (h : ofValue host indent = .ok layout) : layout.IsSpaced := by
  unfold ofValue at h
  split at h
  · obtain rfl := Except.ok.inj h
    exact isSpaced_compact
  · exact absurd rfl (hindent _)
  · split at h
    · obtain ⟨-, rfl⟩ := ofInt_eq_ok_iff.1 h
      exact isSpaced_spaces _
    · contradiction

theorem isSpaces_newLine (h : layout.IsSpaced) (depth : Nat) : IsSpaces (layout.newLine depth) := by
  unfold newLine
  split
  · simp [IsSpaces]
  · next indentation hindentation =>
      cases indentation with
      | text unit => exact absurd hindentation (h unit)
      | spaces count =>
          refine List.forall_mem_cons.2 ⟨by simp, fun c hc => ?_⟩
          exact .inl (List.mem_replicate.1 hc).2

theorem exists_separator (h : layout.IsSpaced) (depth : Nat) :
    ∃ spaces, IsSpaces spaces ∧ layout.separator depth = ',' :: spaces := by
  unfold separator
  split
  · exact ⟨[' '], by simp [IsSpaces], rfl⟩
  · exact ⟨_, isSpaces_newLine h depth, rfl⟩

end JsonLayout

/-! ## Values -/

namespace Value

/-- Whether a value, if it is a floating-point number, is finite. -/
def IsFiniteLeaf (value : Value) : Prop := ∀ x, value = .float x → x.isFinite = true

theorem spellsValue_integer (n : Int) : SpellsValue (.integer n) (toString n).toList := by
  obtain ⟨hformed, hchars⟩ := Scalar.literal?_eq_some_iff.1 (Scalar.literal?_toString n)
  have hspells := SpellsValue.integer hformed rfl
  rwa [Scalar.intValue_literalOf, hchars] at hspells

theorem writeItems_cons {layout : JsonLayout} {depth : Nat} {c : Char} {before : List Char}
    {items : List Value} (hne : items ≠ []) (following : List Char) :
    writeItems layout depth (c :: before) items following =
      c :: writeItems layout depth before items following := by
  obtain ⟨item, rest, rfl⟩ := List.exists_cons_of_ne_nil hne
  rfl

theorem writeMembers_cons {layout : JsonLayout} {depth : Nat} {c : Char} {before : List Char}
    {members : List (String × Value)} (hne : members ≠ []) (following : List Char) :
    writeMembers layout depth (c :: before) members following =
      c :: writeMembers layout depth before members following := by
  obtain ⟨member, rest, rfl⟩ := List.exists_cons_of_ne_nil hne
  rfl

section Write

variable {layout : JsonLayout} (hlayout : layout.IsSpaced)

include hlayout

mutual

theorem exists_write (depth : Nat) (value : Value) (following : List Char)
    (h : value.MadeOf IsFiniteLeaf fun _ => True) :
    ∃ chars, SpellsValue (value.plain Binary64.reread) chars ∧
      value.write layout depth following = chars ++ following := by
  match value with
  | .null => exact ⟨_, @SpellsValue.word "null" .null (by simp [words]), rfl⟩
  | .bool true => exact ⟨_, @SpellsValue.word "true" (.bool true) (by simp [words]), rfl⟩
  | .bool false => exact ⟨_, @SpellsValue.word "false" (.bool false) (by simp [words]), rfl⟩
  | .integer n => exact ⟨_, spellsValue_integer n, rfl⟩
  | .float x => exact ⟨_, Binary64.spellsValue_text (h.leaf_of_scalar rfl x rfl), rfl⟩
  | .string text =>
      obtain ⟨chars, hchars, hwrite⟩ := exists_writeText layout.ascii text following
      exact ⟨chars, .string hchars, hwrite⟩
  | .list [] | .gathered [] => exact ⟨_, @SpellsValue.emptyArray [] isSpaces_nil, rfl⟩
  | .list (item :: rest) | .gathered (item :: rest) =>
      have hitems : ∀ own ∈ item :: rest, own.MadeOf IsFiniteLeaf fun _ => True := by
        first | exact madeOf_list_iff.1 h | exact madeOf_gathered_iff.1 h
      obtain ⟨chars, hchars, hwrite⟩ := exists_writeItems (depth + 1) (item :: rest) (by simp)
        (layout.isSpaces_newLine hlayout (depth + 1)) (layout.isSpaces_newLine hlayout depth)
        (']' :: following) hitems
      refine ⟨_, .array hchars, ?_⟩
      show '[' :: writeItems layout (depth + 1) (layout.newLine (depth + 1)) (item :: rest)
        (layout.newLine depth ++ ']' :: following) = _
      rw [hwrite]
      simp
  | .object [] => exact ⟨_, @SpellsValue.emptyObject [] isSpaces_nil, rfl⟩
  | .object (member :: rest) =>
      obtain ⟨hdistinct, -, hmembers⟩ := madeOf_object_iff.1 h
      obtain ⟨chars, hchars, hwrite⟩ := exists_writeMembers (depth + 1) (member :: rest) (by simp)
        (layout.isSpaces_newLine hlayout (depth + 1)) (layout.isSpaces_newLine hlayout depth)
        ('\x7d' :: following) hmembers
      refine ⟨_, .object ?_ hchars, ?_⟩
      · rw [plainMembers_eq, List.map_map]
        exact hdistinct
      · show '\x7b' :: writeMembers layout (depth + 1) (layout.newLine (depth + 1)) (member :: rest)
          (layout.newLine depth ++ '\x7d' :: following) = _
        rw [hwrite]
        simp

theorem exists_writeItems (depth : Nat) (items : List Value) (hne : items ≠ [])
    {before behind : List Char} (hbefore : IsSpaces before) (hbehind : IsSpaces behind)
    (following : List Char) (h : ∀ item ∈ items, item.MadeOf IsFiniteLeaf fun _ => True) :
    ∃ chars, SpellsElements (plainItems Binary64.reread items) chars ∧
      writeItems layout depth before items (behind ++ following) = chars ++ following := by
  match items with
  | [item] =>
      obtain ⟨chars, hchars, hwrite⟩ :=
        exists_write depth item (behind ++ following) (h item List.mem_cons_self)
      refine ⟨_, .last (.intro hbefore hchars hbehind), ?_⟩
      rw [writeItems, writeItems, hwrite]
      simp
  | item :: second :: rest =>
      obtain ⟨hitem, hrest⟩ := List.forall_mem_cons.1 h
      obtain ⟨spaces, hspaces, hseparator⟩ := layout.exists_separator hlayout depth
      obtain ⟨others, hothers, hwriteRest⟩ :=
        exists_writeItems depth (second :: rest) (by simp) hspaces hbehind following hrest
      obtain ⟨chars, hchars, hwrite⟩ := exists_write depth item (',' :: (others ++ following)) hitem
      refine ⟨_, .cons (@SpellsElement.intro _ before chars [] hbefore hchars isSpaces_nil)
        hothers, ?_⟩
      rw [writeItems, hseparator, writeItems_cons (by simp), hwriteRest, hwrite]
      simp

theorem exists_writeMembers (depth : Nat) (members : List (String × Value)) (hne : members ≠ [])
    {before behind : List Char} (hbefore : IsSpaces before) (hbehind : IsSpaces behind)
    (following : List Char)
    (h : ∀ member ∈ members, member.2.MadeOf IsFiniteLeaf fun _ => True) :
    ∃ chars, SpellsMembers (plainMembers Binary64.reread members) chars ∧
      writeMembers layout depth before members (behind ++ following) = chars ++ following := by
  match members with
  | [(key, value)] =>
      obtain ⟨chars, hchars, hwrite⟩ :=
        exists_write depth value (behind ++ following) (h _ List.mem_cons_self)
      obtain ⟨name, hname, hwriteName⟩ :=
        exists_writeText layout.ascii key (':' :: ' ' :: (chars ++ (behind ++ following)))
      refine ⟨_, .last (@SpellsMember.intro _ _ before name [] _ hbefore hname isSpaces_nil
        (.intro isSpaces_space hchars hbehind)), ?_⟩
      rw [writeMembers, writeMembers, hwrite, hwriteName]
      simp
  | (key, value) :: second :: rest =>
      obtain ⟨hmember, hrest⟩ := List.forall_mem_cons.1 h
      obtain ⟨spaces, hspaces, hseparator⟩ := layout.exists_separator hlayout depth
      obtain ⟨others, hothers, hwriteRest⟩ :=
        exists_writeMembers depth (second :: rest) (by simp) hspaces hbehind following hrest
      obtain ⟨chars, hchars, hwrite⟩ :=
        exists_write depth value (',' :: (others ++ following)) hmember
      obtain ⟨name, hname, hwriteName⟩ :=
        exists_writeText layout.ascii key (':' :: ' ' :: (chars ++ ',' :: (others ++ following)))
      refine ⟨_, .cons (@SpellsMember.intro _ _ before name [] _ hbefore hname isSpaces_nil
        (@SpellsElement.intro _ [' '] chars [] isSpaces_space hchars isSpaces_nil)) hothers, ?_⟩
      rw [writeMembers, hseparator, writeMembers_cons (by simp), hwriteRest, hwrite, hwriteName]
      simp

end

end Write

/-- A value with finite numbers is written as JSON that stands for it. -/
theorem isJson_toJson {layout : JsonLayout} (hlayout : layout.IsSpaced) {value : Value}
    (h : value.MadeOf IsFiniteLeaf fun _ => True) :
    IsJson (value.plain Binary64.reread) (value.toJson layout) := by
  obtain ⟨chars, hchars, hwrite⟩ := exists_write hlayout 0 value [] h
  have htext : (value.toJson layout).toList = [] ++ (chars ++ []) := by
    rw [toJson, String.toList_ofList, hwrite, List.nil_append]
  rw [IsJson, htext]
  exact .intro isSpaces_nil hchars isSpaces_nil

/-! ## Machines -/

/-- Whether a machine writes a value: it goes into all the levels of the value, and the text is not
too long. -/
structure IsWritable (host : Host) (layout : JsonLayout) (value : Value) : Prop where
  levels : value.nesting ≤ host.writingLevels layout.indentation.isSome
  length : (value.toJson layout).length ≤ host.textLength

/-- A machine writes the text that there is for the value, or none. -/
theorem print_eq_ok_iff {host : Host} {layout : JsonLayout} {value : Value} {output : String} :
    value.print host layout = .ok output ↔
      value.IsWritable host layout ∧ value.toJson layout = output := by
  unfold print
  split
  · next hdeep => exact iff_of_false (by simp) fun h => absurd h.1.levels (Nat.not_le.2 hdeep)
  · next hlevels =>
      dsimp only
      split
      · next hlong => exact iff_of_false (by simp) fun h => absurd h.1.length (Nat.not_le.2 hlong)
      · next hlength =>
          rw [Except.ok.injEq]
          exact (and_iff_right ⟨Nat.not_lt.1 hlevels, Nat.not_lt.1 hlength⟩).symm

theorem printWith_eq_ok_iff {host : Host} {asked : Except IndentationFault JsonLayout}
    {value : Value} {output : String} :
    value.printWith host asked = .ok output ↔
      ∃ layout, asked = .ok layout ∧ value.IsWritable host layout ∧
        value.toJson layout = output := by
  simp only [← print_eq_ok_iff]
  cases asked <;> simp [printWith, Except.mapError, bind, Except.bind]

/-- Why a machine does not write a value: there is no layout, the value is too deep, or it is not,
but its text is too long. -/
inductive IsUnwritable (host : Host) (value : Value) :
    Except IndentationFault JsonLayout → WritingFault → Prop
  | badIndentation (fault : IndentationFault) :
      IsUnwritable host value (.error fault) (.badIndentation fault)
  | tooDeep {layout : JsonLayout}
      (hdeep : host.writingLevels layout.indentation.isSome < value.nesting) :
      IsUnwritable host value (.ok layout) .tooDeep
  | tooLong {layout : JsonLayout}
      (hlevels : value.nesting ≤ host.writingLevels layout.indentation.isSome)
      (hlong : host.textLength < (value.toJson layout).length) :
      IsUnwritable host value (.ok layout) .tooLong

/-- A value that has no layout to be written in was asked for one that there is not. -/
theorem IsUnwritable.layout_eq {host : Host} {value : Value}
    {asked : Except IndentationFault JsonLayout} {fault : IndentationFault}
    (h : value.IsUnwritable host asked (.badIndentation fault)) : asked = .error fault := by
  cases h
  rfl

theorem isUnwritable_of_printWith {host : Host} {asked : Except IndentationFault JsonLayout}
    {value : Value} {fault : WritingFault} (h : value.printWith host asked = .error fault) :
    value.IsUnwritable host asked fault := by
  cases asked with
  | error reason =>
      obtain rfl := Except.error.inj h
      exact .badIndentation reason
  | ok layout =>
      replace h : value.print host layout = .error fault := h
      unfold print at h
      split at h
      · next hdeep =>
          obtain rfl := Except.error.inj h
          exact .tooDeep hdeep
      · next hlevels =>
          dsimp only at h
          split at h
          · next hlong =>
              obtain rfl := Except.error.inj h
              exact .tooLong (Nat.not_lt.1 hlevels) hlong
          · contradiction

end Value

end XmlToJson

import XmlToJson.Proofs.Escapes
import XmlToJson.Proofs.Materials
import XmlToJson.Proofs.NumberLiterals

/-!
# The grammar of JSON texts

The strict grammar, with what each text stands for.  The grammar mentions neither the reader nor the
writer: what is read and what is written is compared with it.

* **Values.**  A value is one of three words, a number, a string, an array or an object
  (`SpellsValue`).  Spaces, tabs, line feeds and carriage returns may stand around the parts of
  arrays and objects and around the whole text (`SpellsElement`, `SpellsMember`, `IsJson`).  There
  is nothing behind the last item or member but what closes the array or the object, and an object
  has no key twice.
* **Numbers.**  A number without fraction and exponent is a whole number and any other a
  floating-point number.  The names for numbers that are not finite are no words.
* **Strings.**  A character inside a string is written as it is, unless it is a quote, a backslash
  or a control, by a short escape, or by one or two code units in four digits each (`SpellsChar`).

The grammar knows one sort of array, so `Value.plain` tells what a value looks like in it.  It takes
a function for the floating-point numbers as well, since their texts need not stand for the very
numbers that they were written for.

Two facts about texts of the grammar are proved here, each by induction on them: what they begin
with (`SpellsValue.first`), which is how a reader decides what comes, and what they are made of
(`SpellsValue.forall_mem` and the four lemmas with it): plain characters, and those of the strings
and keys in the value.
-/

namespace XmlToJson

namespace JsonGrammar

/-- Whether a text can stand between the parts of another. -/
def IsSpaces (text : List Char) : Prop :=
  ∀ c ∈ text, c = ' ' ∨ c = '\t' ∨ c = '\n' ∨ c = '\r'

/-! ## Strings -/

/-- The marks of the short escapes, and the characters that they stand for. -/
def shortEscapes : List (Char × Char) :=
  [('"', '"'), ('\\', '\\'), ('/', '/'), ('b', '\x08'), ('f', '\x0c'), ('n', '\n'), ('r', '\r'),
    ('t', '\t')]

/-- Whether four digits are the number of a code unit. -/
inductive SpellsUnit : Nat → List Char → Prop where
  | intro {first second third fourth : Fin 16} {a b c d : Char} :
      a ∈ digitChars first → b ∈ digitChars second → c ∈ digitChars third → d ∈ digitChars fourth →
      SpellsUnit (((first.val * 16 + second.val) * 16 + third.val) * 16 + fourth.val) [a, b, c, d]

/-- The first code unit of a character beyond the first plane. -/
def highUnit (code : Nat) : Nat := 0xD800 + (code - 0x10000) / 0x400

/-- The second code unit of a character beyond the first plane. -/
def lowUnit (code : Nat) : Nat := 0xDC00 + (code - 0x10000) % 0x400

/-- Whether a text stands for a character inside a string. -/
inductive SpellsChar : Char → List Char → Prop where
  | raw {c : Char} : 0x20 ≤ c.toNat → c ≠ '"' → c ≠ '\\' → SpellsChar c [c]
  | short {c mark : Char} : (mark, c) ∈ shortEscapes → SpellsChar c ['\\', mark]
  | unit {c : Char} {digits : List Char} :
      SpellsUnit c.toNat digits → SpellsChar c ('\\' :: 'u' :: digits)
  | pair {c : Char} {high low : List Char} :
      0x10000 ≤ c.toNat → SpellsUnit (highUnit c.toNat) high → SpellsUnit (lowUnit c.toNat) low →
      SpellsChar c ('\\' :: 'u' :: (high ++ '\\' :: 'u' :: low))

inductive SpellsChars : List Char → List Char → Prop where
  | nil : SpellsChars [] []
  | cons {c : Char} {text front rest : List Char} :
      SpellsChar c front → SpellsChars text rest → SpellsChars (c :: text) (front ++ rest)

/-- Whether a text is a string, in its quotes. -/
def SpellsString (text : String) (chars : List Char) : Prop :=
  ∃ inner, SpellsChars text.toList inner ∧ chars = '"' :: (inner ++ ['"'])

/-! ## Values -/

def words : List (String × Value) := [("null", .null), ("true", .bool true), ("false", .bool false)]

mutual

/-- Whether a text is a value, without spaces around it. -/
inductive SpellsValue : Value → List Char → Prop where
  | word {word : String} {value : Value} : (word, value) ∈ words → SpellsValue value word.toList
  | integer {literal : Numeral.Literal} :
      literal.WellFormed → literal.isInteger = true →
      SpellsValue (.integer literal.intValue) literal.chars
  | float {literal : Numeral.Literal} :
      literal.WellFormed → literal.isInteger = false →
      SpellsValue (.float literal.floatValue) literal.chars
  | string {text : String} {chars : List Char} :
      SpellsString text chars → SpellsValue (.string text) chars
  | emptyArray {spaces : List Char} :
      IsSpaces spaces → SpellsValue (.list []) ('[' :: (spaces ++ [']']))
  | array {items : List Value} {chars : List Char} :
      SpellsElements items chars → SpellsValue (.list items) ('[' :: (chars ++ [']']))
  | emptyObject {spaces : List Char} :
      IsSpaces spaces → SpellsValue (.object []) ('{' :: (spaces ++ ['}']))
  | object {members : List (String × Value)} {chars : List Char} :
      (members.map (·.1)).Nodup → SpellsMembers members chars →
      SpellsValue (.object members) ('{' :: (chars ++ ['}']))

/-- Whether a text is a value with spaces around it. -/
inductive SpellsElement : Value → List Char → Prop where
  | intro {value : Value} {before chars behind : List Char} :
      IsSpaces before → SpellsValue value chars → IsSpaces behind →
      SpellsElement value (before ++ (chars ++ behind))

/-- Whether a text is a sequence of values with commas between them. -/
inductive SpellsElements : List Value → List Char → Prop where
  | last {value : Value} {chars : List Char} :
      SpellsElement value chars → SpellsElements [value] chars
  | cons {value : Value} {items : List Value} {chars rest : List Char} :
      SpellsElement value chars → SpellsElements items rest →
      SpellsElements (value :: items) (chars ++ ',' :: rest)

/-- Whether a text is a key with its value, with spaces around them. -/
inductive SpellsMember : String → Value → List Char → Prop where
  | intro {key : String} {value : Value} {before name behind chars : List Char} :
      IsSpaces before → SpellsString key name → IsSpaces behind → SpellsElement value chars →
      SpellsMember key value (before ++ (name ++ (behind ++ ':' :: chars)))

/-- Whether a text is a sequence of members with commas between them. -/
inductive SpellsMembers : List (String × Value) → List Char → Prop where
  | last {key : String} {value : Value} {chars : List Char} :
      SpellsMember key value chars → SpellsMembers [(key, value)] chars
  | cons {key : String} {value : Value} {members : List (String × Value)} {chars rest : List Char} :
      SpellsMember key value chars → SpellsMembers members rest →
      SpellsMembers ((key, value) :: members) (chars ++ ',' :: rest)

end

/-- Whether a text is JSON, and what it stands for. -/
def IsJson (value : Value) (text : String) : Prop := SpellsElement value text.toList

/-! ## What texts begin with -/

/-- Whether a character can be the first one of a word or a number. -/
def BeginsScalar (c : Char) : Prop := c ∈ ['-', 'n', 't', 'f'] ∨ c.isDigit = true

theorem first_of_word {word : String} {value : Value} (h : (word, value) ∈ words) :
    ∃ c rest, word.toList = c :: rest ∧ BeginsScalar c := by
  simp only [words, List.mem_cons, Prod.mk.injEq, List.not_mem_nil, or_false] at h
  rcases h with ⟨rfl, -⟩ | ⟨rfl, -⟩ | ⟨rfl, -⟩
  · exact ⟨'n', ['u', 'l', 'l'], rfl, .inl (by simp)⟩
  · exact ⟨'t', ['r', 'u', 'e'], rfl, .inl (by simp)⟩
  · exact ⟨'f', ['a', 'l', 's', 'e'], rfl, .inl (by simp)⟩

theorem first_of_literal {literal : Numeral.Literal} (h : literal.WellFormed) :
    ∃ c rest, literal.chars = c :: rest ∧ BeginsScalar c := by
  obtain ⟨c, others, hwhole⟩ := List.exists_cons_of_ne_nil h.whole.isDigits.ne_nil
  rw [Numeral.Literal.chars, Numeral.Literal.signChars, hwhole]
  split
  · exact ⟨'-', _, rfl, .inl (by simp)⟩
  · exact ⟨c, _, rfl, .inr (h.whole.isDigits.all c (by simp [hwhole]))⟩

/-- A value begins as a scalar, or with a quote, a bracket or a brace that opens something. -/
theorem SpellsValue.first {value : Value} {chars : List Char} (h : SpellsValue value chars) :
    ∃ c rest, chars = c :: rest ∧ (c ∈ ['"', '[', '\x7b'] ∨ BeginsScalar c) := by
  cases h with
  | word hword =>
      obtain ⟨c, rest, hchars, hc⟩ := first_of_word hword
      exact ⟨c, rest, hchars, .inr hc⟩
  | integer hformed _ | float hformed _ =>
      obtain ⟨c, rest, hchars, hc⟩ := first_of_literal hformed
      exact ⟨c, rest, hchars, .inr hc⟩
  | string hstring =>
      obtain ⟨inner, -, rfl⟩ := hstring
      exact ⟨'"', _, rfl, .inl (by simp)⟩
  | emptyArray | array => exact ⟨'[', _, rfl, .inl (by simp)⟩
  | emptyObject | object => exact ⟨'\x7b', _, rfl, .inl (by simp)⟩

/-! ## What texts are made of -/

/-- Whether a character is a printable one of ASCII or a space. -/
def IsPlain (c : Char) : Prop := (0x20 ≤ c.toNat ∧ c.toNat < 0x7F) ∨ c ∈ ['\t', '\n', '\r']

instance : DecidablePred IsPlain := fun _ => inferInstanceAs (Decidable (_ ∨ _))

theorem isPlain_of_isSpaces {spaces : List Char} (h : IsSpaces spaces) :
    ∀ c ∈ spaces, IsPlain c := by
  intro c hc
  rcases h c hc with rfl | rfl | rfl | rfl <;> decide

theorem isPlain_of_isDigit {c : Char} (h : c.isDigit = true) : IsPlain c := by
  have hbounds : 48 ≤ c.toNat ∧ c.toNat ≤ 57 := Char.isDigit_iff_toNat.1 h
  exact .inl (by omega)

theorem isPlain_of_spellsUnit {code : Nat} {digits : List Char} (h : SpellsUnit code digits) :
    ∀ c ∈ digits, IsPlain c := by
  have hdigit : ∀ digit : Fin 16, ∀ c ∈ digitChars digit, IsPlain c := by
    intro digit
    refine forall_mem_of_all ?_
    revert digit
    decide +kernel
  obtain ⟨ha, hb, hc, hd⟩ := h
  simp only [List.forall_mem_cons]
  exact ⟨hdigit _ _ ha, hdigit _ _ hb, hdigit _ _ hc, hdigit _ _ hd, by simp⟩

theorem isPlain_of_literal {literal : Numeral.Literal} (h : literal.WellFormed) :
    ∀ c ∈ literal.chars, IsPlain c := by
  have hdigits : ∀ {text : List Char}, (∀ c ∈ text, c.isDigit = true) → ∀ c ∈ text, IsPlain c :=
    fun hall c hc => isPlain_of_isDigit (hall c hc)
  have hsign : ∀ c ∈ literal.signChars, IsPlain c := by
    unfold Numeral.Literal.signChars
    split
    · exact List.forall_mem_singleton.2 (by decide)
    · simp
  have hpoint : ∀ c ∈ literal.pointChars, IsPlain c := by
    unfold Numeral.Literal.pointChars
    split
    · simp
    · exact List.forall_mem_cons.2 ⟨by decide, hdigits h.fraction⟩
  have hexponent : ∀ c ∈ literal.exponent, IsPlain c := by
    rcases h.exponent with hnone | ⟨mark, sign, size, htext, hmark, hsigned, hsize⟩
    · simp [hnone]
    · rw [htext]
      refine List.forall_mem_cons.2 ⟨?_, List.forall_mem_append.2 ⟨?_, hdigits hsize.all⟩⟩
      · rcases hmark with rfl | rfl <;> decide
      · rcases hsigned with rfl | rfl | rfl
        · simp
        · exact List.forall_mem_singleton.2 (by decide)
        · exact List.forall_mem_singleton.2 (by decide)
  simp only [Numeral.Literal.chars, List.forall_mem_append]
  exact ⟨hsign, hdigits h.whole.isDigits.all, hpoint, hexponent⟩

section Characters

variable {P : Char → Prop} (hplain : ∀ c, IsPlain c → P c)

include hplain

theorem forall_of_isSpaces {spaces : List Char} (h : IsSpaces spaces) : ∀ c ∈ spaces, P c :=
  fun c hc => hplain c (isPlain_of_isSpaces h c hc)

theorem forall_of_spellsChar {own : Char} {front : List Char} (h : SpellsChar own front)
    (hown : P own) : ∀ c ∈ front, P c := by
  have hunit : ∀ {code : Nat} {digits : List Char}, SpellsUnit code digits → ∀ c ∈ digits, P c :=
    fun hdigits c hc => hplain c (isPlain_of_spellsUnit hdigits c hc)
  have hescape : P '\\' := hplain _ (by decide)
  have hmark : P 'u' := hplain _ (by decide)
  cases h with
  | raw => exact List.forall_mem_singleton.2 hown
  | short hshort =>
      have hmarks : ∀ entry ∈ shortEscapes, IsPlain entry.1 := forall_mem_of_all (by decide)
      simpa using ⟨hescape, hplain _ (hmarks _ hshort)⟩
  | unit hdigits =>
      simp only [List.forall_mem_cons]
      exact ⟨hescape, hmark, hunit hdigits⟩
  | pair _ hhigh hlow =>
      simp only [List.forall_mem_cons, List.forall_mem_append]
      exact ⟨hescape, hmark, hunit hhigh, hescape, hmark, hunit hlow⟩

theorem forall_of_spellsString {text : String} {chars : List Char} (h : SpellsString text chars)
    (htext : ∀ c ∈ text.toList, P c) : ∀ c ∈ chars, P c := by
  have hquote : P '"' := hplain _ (by decide)
  obtain ⟨inner, hinner, rfl⟩ := h
  have hall : ∀ {own inner : List Char}, SpellsChars own inner → (∀ c ∈ own, P c) →
      ∀ c ∈ inner, P c := by
    intro own inner hspells hown
    induction hspells with
    | nil => simp
    | cons hchar _ ih =>
        obtain ⟨hfirst, hrest⟩ := List.forall_mem_cons.1 hown
        exact List.forall_mem_append.2 ⟨forall_of_spellsChar hplain hchar hfirst, ih hrest⟩
  simp only [List.forall_mem_cons, List.forall_mem_append]
  exact ⟨hquote, hall hinner htext, hquote, by simp⟩

mutual

/-- The characters of a text are plain or stand in the strings and the keys of its value. -/
theorem SpellsValue.forall_mem {value : Value} {chars : List Char} (h : SpellsValue value chars)
    (hmade : value.UsesOnly P) : ∀ c ∈ chars, P c := by
  have hends : ∀ c ∈ ['[', ']', '\x7b', '\x7d'], P c := fun c hc =>
    hplain c (forall_mem_of_all (by decide) c hc)
  have hinside : ∀ {first last : Char} {inner : List Char}, first ∈ ['[', ']', '\x7b', '\x7d'] →
      last ∈ ['[', ']', '\x7b', '\x7d'] → (∀ c ∈ inner, P c) →
      ∀ c ∈ first :: (inner ++ [last]), P c := fun hfirst hlast hinner =>
    List.forall_mem_cons.2 ⟨hends _ hfirst,
      List.forall_mem_append.2 ⟨hinner, List.forall_mem_singleton.2 (hends _ hlast)⟩⟩
  match h with
  | .word hword =>
      have hwords : ∀ entry ∈ words, ∀ c ∈ entry.1.toList, IsPlain c := by
        simp [words, IsPlain]
      exact fun c hc => hplain c (hwords _ hword c hc)
  | .integer hformed _ | .float hformed _ =>
      exact fun c hc => hplain c (isPlain_of_literal hformed c hc)
  | .string hstring =>
      exact forall_of_spellsString hplain hstring (hmade.leaf_of_scalar rfl _ rfl)
  | .emptyArray hspaces | .emptyObject hspaces =>
      exact hinside (by simp) (by simp) (forall_of_isSpaces hplain hspaces)
  | .array helements =>
      exact hinside (by simp) (by simp) (helements.forall_mem (Value.madeOf_list_iff.1 hmade))
  | .object _ hmembers =>
      obtain ⟨-, hkeys, hvalues⟩ := Value.madeOf_object_iff.1 hmade
      exact hinside (by simp) (by simp) (hmembers.forall_mem hkeys hvalues)
termination_by structural h

theorem SpellsElement.forall_mem {value : Value} {chars : List Char}
    (h : SpellsElement value chars)
    (hmade : value.UsesOnly P) : ∀ c ∈ chars, P c := by
  match h with
  | .intro hbefore hvalue hbehind =>
      simp only [List.forall_mem_append]
      exact ⟨forall_of_isSpaces hplain hbefore, hvalue.forall_mem hmade,
        forall_of_isSpaces hplain hbehind⟩
termination_by structural h

theorem SpellsElements.forall_mem {items : List Value} {chars : List Char}
    (h : SpellsElements items chars)
    (hmade : ∀ item ∈ items, item.UsesOnly P) : ∀ c ∈ chars, P c := by
  match h with
  | .last helement => exact helement.forall_mem (hmade _ List.mem_cons_self)
  | .cons helement helements =>
      obtain ⟨hfirst, hothers⟩ := List.forall_mem_cons.1 hmade
      exact List.forall_mem_append.2 ⟨helement.forall_mem hfirst,
        List.forall_mem_cons.2 ⟨hplain ',' (by decide), helements.forall_mem hothers⟩⟩
termination_by structural h

theorem SpellsMember.forall_mem {key : String} {value : Value} {chars : List Char}
    (h : SpellsMember key value chars) (hkey : ∀ c ∈ key.toList, P c)
    (hmade : value.UsesOnly P) : ∀ c ∈ chars, P c := by
  match h with
  | .intro hbefore hname hbehind helement =>
      simp only [List.forall_mem_append, List.forall_mem_cons]
      exact ⟨forall_of_isSpaces hplain hbefore, forall_of_spellsString hplain hname hkey,
        forall_of_isSpaces hplain hbehind, hplain ':' (by decide), helement.forall_mem hmade⟩
termination_by structural h

theorem SpellsMembers.forall_mem {members : List (String × Value)} {chars : List Char}
    (h : SpellsMembers members chars) (hkeys : ∀ member ∈ members, ∀ c ∈ member.1.toList, P c)
    (hmade : ∀ member ∈ members, member.2.UsesOnly P) : ∀ c ∈ chars, P c := by
  match h with
  | .last hmember =>
      exact hmember.forall_mem (hkeys _ List.mem_cons_self) (hmade _ List.mem_cons_self)
  | .cons hmember hmembers =>
      obtain ⟨hkey, hotherKeys⟩ := List.forall_mem_cons.1 hkeys
      obtain ⟨hfirst, hothers⟩ := List.forall_mem_cons.1 hmade
      exact List.forall_mem_append.2 ⟨hmember.forall_mem hkey hfirst,
        List.forall_mem_cons.2 ⟨hplain ',' (by decide), hmembers.forall_mem hotherKeys hothers⟩⟩
termination_by structural h

end

end Characters

end JsonGrammar

/-! ## One sort of array -/

namespace Value

variable (number : Binary64 → Binary64)

mutual

/-- The value with one sort of array, and with `number` put for its floating-point numbers. -/
def plain : Value → Value
  | .float x => .float (number x)
  | .list items | .gathered items => .list (plainItems items)
  | .object members => .object (plainMembers members)
  | value => value

def plainItems : List Value → List Value
  | [] => []
  | item :: rest => plain item :: plainItems rest

def plainMembers : List (String × Value) → List (String × Value)
  | [] => []
  | (key, value) :: rest => (key, plain value) :: plainMembers rest

end

example : (gathered [.integer 1, .gathered []]).plain id = .list [.integer 1, .list []] := rfl

theorem plainItems_eq (items : List Value) :
    plainItems number items = items.map (plain number) := by
  induction items with
  | nil => rfl
  | cons item rest ih => rw [plainItems, ih, List.map_cons]

theorem plainMembers_eq (members : List (String × Value)) :
    plainMembers number members = members.map fun member => (member.1, member.2.plain number) := by
  induction members with
  | nil => rfl
  | cons member rest ih => rw [plainMembers, ih, List.map_cons]

/-- Where two ways to put a number for the numbers of a value agree, the values are the same. -/
theorem MadeOf.plain_congr {first second : Binary64 → Binary64} {name : String → Prop}
    {value : Value}
    (h : value.MadeOf (fun leaf => ∀ x, leaf = .float x → first x = second x) name) :
    value.plain first = value.plain second := by
  induction h with
  | @scalar value hscalar hleaf =>
      cases value with
      | float x => exact congrArg Value.float (hleaf x rfl)
      | list | gathered | object => simp [isContainer] at hscalar
      | _ => rfl
  | list _ ih | gathered _ ih =>
      rw [plain, plain, plainItems_eq, plainItems_eq]
      exact congrArg Value.list (List.map_congr_left ih)
  | object _ _ _ ih =>
      rw [plain, plain, plainMembers_eq, plainMembers_eq]
      refine congrArg Value.object (List.map_congr_left fun member hmem => ?_)
      rw [ih member hmem]

end Value

end XmlToJson

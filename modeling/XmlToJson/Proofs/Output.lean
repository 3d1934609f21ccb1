import XmlToJson.Proofs.JsonRoundTrips
import XmlToJson.Proofs.Layers
import XmlToJson.Proofs.Materials

/-!
# The JSON text of a document

Whatever a document says, its JSON text is one of the strict grammar, and if scalars stay texts it
is read back as the very object.  `Object.IsPrintedAs` is what is promised of an object and its
text, and `convertToJson_isPrinted` says that it holds for every document that is converted, however
wide its lines are indented.

Everything needed about writing and reading has been shown for values of a kind.  What is left to
see is that documents are converted to values of that kind.

* **Strict JSON.**  A text of the grammar is written for every value with finite numbers.  The
  floating-point numbers of a document are read from texts, and a text that stands for no finite
  number stays a text, so none of them is written as a word that the grammar does not know
  (`Converter.madeOf_finite`).
* **Reading back.**  If scalars stay texts there are no numbers in the data at all
  (`Converter.madeOf_exact`), so its text is read back as the data, with one sort of array, if the
  machine opens as many levels as the data has.
* **The layout** takes no part in this, as long as lines are indented with spaces
  (`Converter.isPrintedAs_of_convert`), and that is so for every number that settings ask for, since
  an indentation in the settings is never a text (`isSpaced_of_layoutFor`).

Scalars stay texts because it is asked for in the call or because the settings say so, and the
settings may say it by any value that counts as true (`KeepsTexts`).  With or without that, a text
is returned whenever the machine writes one, and it is the text of the layout (`Value.IsWritable`).
-/

namespace XmlToJson

open JsonGrammar

/-! ## What documents are converted to -/

/-- Every event gives names and texts of any kind. -/
theorem Event.gives_any (event : Event) : event.Gives (fun _ => True) fun _ => True := by
  cases event <;> simp [Gives]

namespace Converter

section Data

variable {converter : Converter} {text : String} {found : Conversion}
  (h : (converter.convert text).outcome = .ok found)

include h

/-- The floating-point numbers that a document is converted to are finite. -/
theorem madeOf_finite : found.data.toValue.MadeOf Value.IsFiniteLeaf fun _ => True := by
  refine madeOf_of_convert h (by simp [Value.IsFiniteLeaf]) trivial (fun own _ => ?_)
    fun entry _ => entry.event.gives_any
  refine .scalar (isContainer_valueOf converter own) fun x hx => ?_
  rcases converter.valueOf_cases own with hsame | ⟨-, hread⟩
  · rw [hsame] at hx
    contradiction
  · rw [hx] at hread
    exact ((Scalar.classifies_ofText own).nearest x hread).1

/-- If scalars stay texts, a document is converted to texts alone. -/
theorem madeOf_exact (hkept : converter.settings.keepStrings.isTruthy = true) :
    found.data.toValue.MadeOf Value.IsExact fun _ => True := by
  refine madeOf_of_convert h (Value.isExact_string "") trivial (fun own _ => ?_)
    fun entry _ => entry.event.gives_any
  refine .scalar (isContainer_valueOf converter own) ?_
  rcases converter.valueOf_cases own with hsame | ⟨hread, -⟩
  · rw [hsame]
    exact Value.isExact_string own
  · rw [hkept] at hread
    contradiction

end Data

end Converter

/-! ## What is printed -/

/-- What the JSON text of an object promises, where `kept` says that scalars stay texts. -/
structure Object.IsPrintedAs (object : Object) (kept : Prop) (output : String) : Prop where
  /-- The text is allowed by the strict grammar and stands for the object, apart from the digits of
  numbers. -/
  strict : IsJson (object.toValue.plain Binary64.reread) output
  /-- If scalars stay texts, it stands for the object as it is. -/
  faithful : kept → IsJson (object.toValue.plain id) output
  /-- It is read back then by a reader that may open as many levels as the object has. -/
  read : kept → ∀ levels, object.toValue.nesting ≤ levels →
    JsonReader.ReadsAs levels output (object.toValue.plain id)
  restored : kept → ∀ host : Host, object.toValue.nesting ≤ host.readingLevels →
    Value.ofJson host output = .ok (object.toValue.plain id)
  /-- What is read back counts as the same as the object. -/
  same : kept → (object.toValue.plain id).same object.toValue = true

/-- Every layout with spaces prints the data of a document. -/
theorem Converter.isPrintedAs_of_convert {converter : Converter} {text : String}
    {found : Conversion} (h : (converter.convert text).outcome = .ok found) {layout : JsonLayout}
    (hlayout : layout.IsSpaced) :
    found.data.IsPrintedAs (converter.settings.keepStrings.isTruthy = true)
      (found.toJson layout) where
  strict := Value.isJson_toJson hlayout (madeOf_finite h)
  faithful hkept := Value.isJson_of_isExact (madeOf_exact h hkept) hlayout
  read hkept _ := Value.readsAs_toJson (madeOf_exact h hkept) hlayout
  restored hkept _ := Value.ofJson_toJson (madeOf_exact h hkept) hlayout
  same hkept := Value.same_plain (madeOf_exact h hkept)

namespace Settings

/-- Whether scalars stay texts, because it is asked for or because the settings say so. -/
def KeepsTexts (settings : Settings) (keepStrings : Value) : Prop :=
  keepStrings.isTruthy = true ∨ settings.keepStrings.isTruthy = true

theorem isTruthy_keepingStrings {settings : Settings} {keepStrings : Value} :
    (settings.keepingStrings keepStrings).keepStrings.isTruthy = true ↔
      settings.KeepsTexts keepStrings := by
  unfold keepingStrings KeepsTexts
  split
  · next h => simp_all [Value.isTruthy]
  · next h => simp_all

/-- An indentation that the settings give is no text. -/
theorem isSpaced_of_layoutFor {host : Host} {settings : Settings} {indent : Value}
    {layout : JsonLayout} (hindent : ∀ unit, indent ≠ .string unit)
    (h : settings.layoutFor host indent = .ok layout) : layout.IsSpaced := by
  unfold layoutFor at h
  split at h
  · refine JsonLayout.isSpaced_of_ofValue (fun unit => ?_) h
    rcases settings.jsonIndent with - | number
    · simp
    · cases number <;> simp [Number.toValue]
  · exact JsonLayout.isSpaced_of_ofValue hindent h

end Settings

/-! ## Documents -/

theorem exists_convert {host : Host} {settings : Settings} {keepStrings : Value} {text : String}
    {object : Object} (h : convertToObject host settings keepStrings text = .ok object) :
    ∃ found, (({ settings := settings.keepingStrings keepStrings, host } : Converter).convert
      text).outcome = .ok found ∧ found.data = object := by
  unfold convertToObject at h
  cases hfound : (({ settings := settings.keepingStrings keepStrings, host } : Converter).convert
      text).outcome with
  | error failure =>
      simp only [hfound] at h
      contradiction
  | ok found =>
      simp only [hfound] at h
      exact ⟨found, rfl, Except.ok.inj h⟩

/-- A document that is converted is printed as JSON of the strict grammar, whatever number of spaces
lines are indented with: no text that stands in it becomes a number that is not finite.  If scalars
stay texts, what is printed is read back as what the document is converted to.  So it does not
matter then how lines are indented.  A machine prints nothing else, and it prints this as far as it
goes into all levels of the object and the text is not too long. -/
theorem convertToJson_isPrinted (host : Host) (settings : Settings) (keepStrings : Value)
    (text : String) (object : Object)
    (h : convertToObject host settings keepStrings text = .ok object) :
    (∀ indent output, (∀ unit, indent ≠ .string unit) →
      convertToJson host settings keepStrings indent text = .ok output →
        object.IsPrintedAs (settings.KeepsTexts keepStrings) output) ∧
    (∀ layout : JsonLayout, layout.IsSpaced →
      object.IsPrintedAs (settings.KeepsTexts keepStrings) (object.toValue.toJson layout)) ∧
    ∀ count, JsonLayout.IsWidth host count → ∀ output,
      convertToJson host settings keepStrings (.integer count) text = .ok output ↔
        object.toValue.IsWritable host (.spaces count) ∧
          object.toValue.toJson (.spaces count) = output := by
  have hall : ∀ layout : JsonLayout, layout.IsSpaced →
      object.IsPrintedAs (settings.KeepsTexts keepStrings) (object.toValue.toJson layout) := by
    obtain ⟨found, hfound, rfl⟩ := exists_convert h
    intro layout hlayout
    rw [← Settings.isTruthy_keepingStrings]
    exact Converter.isPrintedAs_of_convert hfound hlayout
  refine ⟨fun indent output hindent houtput => ?_, hall, fun count hcount output => ?_⟩
  · simp only [convertToJson, h] at houtput
    obtain ⟨layout, hlayout, -, rfl⟩ :=
      Value.printWith_eq_ok_iff.1 (mapError_eq_ok_iff.1 houtput)
    exact hall layout (Settings.isSpaced_of_layoutFor hindent hlayout)
  · have hlayout : settings.layoutFor host (.integer count) = .ok (.spaces count) :=
      JsonLayout.ofInt_eq_ok_iff.2 ⟨hcount, rfl⟩
    simp only [convertToJson, h, hlayout, mapError_eq_ok_iff, Value.printWith_eq_ok_iff,
      Except.ok.injEq, exists_eq_left']

/-- Texts with quotes, line ends and what would be numbers are printed and read back. -/
theorem convertToJson_isPrinted_kept :
    ∃ object, convertToObject {} {} (.bool true) "<a b='\"&#10;'>1e999<c/>-0</a>" = .ok object ∧
      ∃ output, convertToJson {} {} (.bool true) (.integer (-1))
          "<a b='\"&#10;'>1e999<c/>-0</a>" = .ok output ∧
        object.IsPrintedAs (({} : Settings).KeepsTexts (.bool true)) output := by
  have hok : (convertToObject {} {} (.bool true)
      "<a b='\"&#10;'>1e999<c/>-0</a>").toOption.isSome = true := by
    decide +kernel
  have hprinted : (convertToJson {} {} (.bool true) (.integer (-1))
      "<a b='\"&#10;'>1e999<c/>-0</a>").toOption.isSome = true := by
    decide +kernel
  obtain ⟨object, hobject⟩ := exists_of_isSome hok
  obtain ⟨output, houtput⟩ := exists_of_isSome hprinted
  exact ⟨object, hobject, output, houtput,
    (convertToJson_isPrinted {} {} (.bool true) _ object hobject).1 _ _ (by simp) houtput⟩

end XmlToJson

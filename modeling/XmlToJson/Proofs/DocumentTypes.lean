import XmlToJson.Proofs.Transparency

/-!
# Document types

A document type declaration can hold markup of its own in brackets: declarations, processing
instructions and comments.  It is skipped as any other declaration is, up to the `>` that balances
its `<`, and a comment in it is not told from what is around it.  So the declaration is skipped as a
whole exactly if it is made of groups (`DocumentType.nextReading_iff`), and then it can be put in
front of a document without changing more than the counters (`convert_of_documentType`).

## Strategy

`DocumentType` is the declaration as it is written, with a list of `SubsetPart`, and
`DocumentType.chars` writes it out.  What is known of its parts comes from the grammar of groups in
`Declarations.lean`.

* **Declarations** in the brackets are always groups, since their literals are quoted: `Literals`
  says how they are written, and `Literals.groups` that such a run is made of groups.
* **Comments and instructions** need not be (`SubsetPart.IsBalanced`).  An apostrophe in them hides
  what follows up to the next one, and a single angle bracket moves the end.
* **The whole** is made of groups if all comments and instructions are (`DocumentType.groups_body`).
  The converse is not true, since an apostrophe in one comment and one in the next can make up for
  each other, so the exact condition is on the characters between the keyword and the last `>`.

An apostrophe alone is enough for the end not to be found (`apostrophe_not_skipped`).
-/

namespace XmlToJson

/-- Whether characters are a run of literals in quotes and of characters that mean nothing. -/
inductive Literals : List Char → Prop where
  | nil : Literals []
  | plain {c : Char} {rest : List Char} :
      Scan.isPlain c = true → Literals rest → Literals (c :: rest)
  | quoted {quote : Char} {inside rest : List Char} :
      Scan.isQuote quote = true → quote ∉ inside → Literals rest →
      Literals (quote :: (inside ++ quote :: rest))

theorem Literals.groups {chars : List Char} (h : Literals chars) : Groups chars := by
  induction h with
  | nil => exact .nil
  | plain hc _ ih => exact .plain hc ih
  | quoted hquote hinside _ ih => exact .quoted hquote hinside ih

/-! ## The parts of a document type -/

/-- A part of what stands in the brackets of a document type declaration. -/
inductive SubsetPart where
  | space (blanks : List Char)
  | declaration (keyword : String) (body : List Char)
  | instruction (body : List Char)
  | comment (body : List Char)

namespace SubsetPart

/-- The characters of a part. -/
def chars : SubsetPart → List Char
  | .space blanks => blanks
  | .declaration keyword body => '<' :: '!' :: (keyword.toList ++ body ++ ['>'])
  | .instruction body => '<' :: '?' :: (body ++ "?>".toList)
  | .comment body => '<' :: '!' :: '-' :: '-' :: (body ++ "-->".toList)

/-- Whether a part may be written as it is. -/
def IsWellFormed : SubsetPart → Prop
  | .space blanks => Blanks blanks
  | .declaration keyword body =>
      keyword ∈ ["ENTITY", "ELEMENT", "ATTLIST", "NOTATION"] ∧ Literals body
  | .instruction body => ¬ "?>".toList <:+: body
  | .comment body => ¬ "--".toList <:+: body

/-- Whether a comment or an instruction is made of groups. -/
def IsBalanced : SubsetPart → Prop
  | .space _ | .declaration .. => True
  | .instruction body | .comment body => Groups body

theorem groups_chars {part : SubsetPart} (h : part.IsWellFormed) (hbalanced : part.IsBalanced) :
    Groups part.chars := by
  -- Between the angle brackets of a part its body stands between characters that mean nothing.
  have hpart : ∀ {front body back : List Char}, front.all Scan.isPlain = true →
      back.all Scan.isPlain = true → Groups body →
      Groups ('<' :: (front ++ body ++ back ++ ['>'])) := by
    intro front body back hfront hback hbody
    have hfront : Groups front := .of_plain (List.all_eq_true.1 hfront)
    have hback : Groups back := .of_plain (List.all_eq_true.1 hback)
    exact .group ((hfront.append hbody).append hback) .nil
  cases part with
  | space blanks => exact .of_plain fun c hc => Scan.isPlain_of_isBlank (h c hc)
  | declaration keyword body =>
      obtain ⟨hkeyword, hbody⟩ := h
      have hplain : ∀ word ∈ ["ENTITY", "ELEMENT", "ATTLIST", "NOTATION"],
          ('!' :: word.toList).all Scan.isPlain = true := by decide
      have hgroup := @hpart _ body [] (hplain keyword hkeyword) rfl hbody.groups
      rwa [List.append_nil] at hgroup
  | instruction body =>
      have hgroup := @hpart ['?'] body ['?'] (by decide) (by decide) hbalanced
      rwa [List.append_assoc] at hgroup
  | comment body =>
      have hgroup := @hpart ['!', '-', '-'] body ['-', '-'] (by decide) (by decide) hbalanced
      rwa [List.append_assoc] at hgroup

end SubsetPart

/-- A document type declaration with markup in brackets. -/
structure DocumentType where
  name : String
  subset : List SubsetPart
  /-- The blanks in front of the name, behind it and behind the brackets. -/
  beforeName : List Char := [' ']
  behindName : List Char := [' ']
  behindSubset : List Char := []
  isName : IsName name
  isWellFormed : ∀ part ∈ subset, part.IsWellFormed
  areBlanks : Blanks (beforeName ++ behindName ++ behindSubset)

namespace DocumentType

/-- The characters between the first letter of the keyword and the `>` at the end. -/
def body (declaration : DocumentType) : List Char :=
  "OCTYPE".toList ++ declaration.beforeName ++ declaration.name.toList ++ declaration.behindName ++
    '[' :: (declaration.subset.flatMap SubsetPart.chars ++ ']' :: declaration.behindSubset)

def chars (declaration : DocumentType) : List Char :=
  '<' :: '!' :: 'D' :: (declaration.body ++ ['>'])

variable {declaration : DocumentType}

/-- Where all comments and instructions are made of groups, the whole declaration is. -/
theorem groups_body (h : ∀ part ∈ declaration.subset, part.IsBalanced) :
    Groups declaration.body := by
  have hblank : ∀ {blanks : List Char}, (∀ c ∈ blanks, c ∈ declaration.beforeName ++
      declaration.behindName ++ declaration.behindSubset) → Groups blanks := fun hblanks =>
    .of_plain fun c hc => Scan.isPlain_of_isBlank (declaration.areBlanks c (hblanks c hc))
  have hkeyword : Groups "OCTYPE".toList := .of_plain (List.all_eq_true.1 (by decide))
  have hbefore : Groups declaration.beforeName := hblank fun c hc => by simp [hc]
  have hname : Groups declaration.name.toList := .of_plain fun c hc => by
    obtain ⟨-, hmarker, hquote⟩ := Scan.begins_name (declaration.isName.notExcluded c hc)
    exact Scan.isPlain_of_not_marker hmarker (by simp [hquote])
  have hbehind : Groups declaration.behindName := hblank fun c hc => by simp [hc]
  have hsubset : Groups (declaration.subset.flatMap SubsetPart.chars) :=
    .flatMap fun part hpart => SubsetPart.groups_chars (declaration.isWellFormed part hpart)
      (h part hpart)
  have hlast : Groups declaration.behindSubset := hblank fun c hc => by simp [hc]
  have hbrackets : Groups ('[' :: (declaration.subset.flatMap SubsetPart.chars ++
      ']' :: declaration.behindSubset)) :=
    .plain (by decide) (hsubset.append (.plain (by decide) hlast))
  exact (((hkeyword.append hbefore).append hname).append hbehind).append hbrackets

end DocumentType

/-! ## Skipping a document type -/

/-- In front of a text a document type is read as a whole if and only if it is made of
groups. -/
theorem DocumentType.nextReading_iff (declaration : DocumentType) (text : String) :
    (∃ position stop,
        nextReading .document (.ofText (String.ofList (declaration.chars ++ text.toList))) =
          .ok (some ⟨.declaration, position, none⟩) stop ∧ stop.rest = text.toList) ↔
      Groups declaration.body := by
  have hletter : BeginsDeclaration 'D' := by decide
  have hfaces : Faces (Scope.inside []).skips
      (.ofText (String.ofList (declaration.chars ++ text.toList)))
      ('<' :: '!' :: 'D' :: (declaration.body ++ '>' :: text.toList)) :=
    .of_rest (by simp [Cursor.ofText, DocumentType.chars])
  obtain ⟨start, hstart, hnext⟩ := Reader.nextReading_less hfaces
  rw [map_apply] at hnext
  constructor
  · rintro ⟨position, stop, hread, hstop⟩
    have hsome := hnext.symm.trans hread
    cases hmarkup : Scan.markupReading none start with
    | error error last =>
        rw [List.head?_nil, hmarkup] at hsome
        simp at hsome
    | ok reading last =>
        rw [List.head?_nil, hmarkup] at hsome
        obtain ⟨-, rfl⟩ := EStateM.Result.ok.inj hsome
        have hpast := Scan.pastDeclaration?_of_markupReading hletter hstart hmarkup
        rw [hstop] at hpast
        exact pastDeclaration?_eq_iff.1 hpast
  · intro hgroups
    obtain ⟨position, stop, hmarkup, hstop⟩ :=
      @Scan.markupReading_declaration none _ _ _ _ hletter hgroups hstart
    rw [List.head?_nil, hmarkup] at hnext
    exact ⟨position, stop, hnext, hstop⟩

/-- A document type is read as a whole if and only if it is made of groups, and then it can be
put in front of every document that is accepted, with the same data.  It is made of groups if
all comments and instructions in it are. -/
theorem convert_of_documentType (declaration : DocumentType) {converter : Converter}
    {text : String} {found : Conversion} (haccepted : (converter.convert text).outcome = .ok found)
    (hlength : converter.exceededLimit? (String.ofList (declaration.chars ++ text.toList)) = none) :
    ((∃ position stop,
        nextReading .document (.ofText (String.ofList (declaration.chars ++ text.toList))) =
          .ok (some ⟨.declaration, position, none⟩) stop ∧ stop.rest = text.toList) ↔
      Groups declaration.body) ∧
    (Groups declaration.body →
      (converter.convert (String.ofList (declaration.chars ++ text.toList))).outcome =
        .ok { found with metrics :=
          found.metrics.join { declarations := 1, characters := declaration.chars.length } }) ∧
    ((∀ part ∈ declaration.subset, part.IsBalanced) → Groups declaration.body) := by
  refine ⟨declaration.nextReading_iff text, fun hgroups => ?_, DocumentType.groups_body⟩
  have hinserted : Transparent { declarations := 1 } declaration.chars :=
    .declaration (by decide) hgroups
  obtain ⟨-, hfault, built, hbuilt, rfl⟩ := Converter.applyAll_of_convert haccepted
  obtain ⟨hlonger, log, hmade⟩ := InsertionPoint.start.applyAll hinserted hfault hbuilt
  rw [Converter.convert_of_applyAll hlength hlonger hmade]
  rfl

/-- A document type with a quoted `>`, a comment with a tag and an instruction. -/
def DocumentType.ofEntity : DocumentType where
  name := "a"
  subset := [.declaration "ENTITY" " b \"it's >\"".toList, .comment " <b> ".toList,
    .instruction "c 'd'".toList]
  isName := by decide
  isWellFormed := by
    have hliterals : Literals " b \"it's >\"".toList :=
      .plain (by decide) (.plain (by decide) (.plain (by decide)
        (@Literals.quoted '"' "it's >".toList [] (by decide) (by decide) .nil)))
    have hcomment : ¬ "--".toList <:+: " <b> ".toList := by decide
    have hinstruction : ¬ "?>".toList <:+: "c 'd'".toList := by decide
    simp only [List.forall_mem_cons]
    exact ⟨⟨by decide, hliterals⟩, hcomment, hinstruction, by simp⟩
  areBlanks := by decide

theorem convert_of_documentType_entity :
    ∃ found, (({} : Converter).convert "<a/>").outcome = .ok found ∧
      (({} : Converter).convert
        "<!DOCTYPE a [<!ENTITY b \"it's >\"><!-- <b> --><?c 'd'?>]><a/>").outcome =
      .ok { found with metrics := found.metrics.join { declarations := 1, characters := 56 } } := by
  have haccepted : (({} : Converter).convert "<a/>").outcome.toOption.isSome = true := by
    decide +kernel
  cases hconvert : (({} : Converter).convert "<a/>").outcome with
  | error failure => simp [hconvert, Except.toOption] at haccepted
  | ok found =>
      have hcomment : Groups " <b> ".toList :=
        .plain (by decide) (@Groups.group ['b'] [' '] (.plain (by decide) .nil)
          (.plain (by decide) .nil))
      have hinstruction : Groups "c 'd'".toList :=
        .plain (by decide) (.plain (by decide)
          (@Groups.quoted '\'' ['d'] [] (by decide) (by decide) .nil))
      have hbalanced : ∀ part ∈ DocumentType.ofEntity.subset, part.IsBalanced := by
        simp only [DocumentType.ofEntity, List.forall_mem_cons]
        exact ⟨trivial, hcomment, hinstruction, by simp⟩
      have htext : String.ofList (DocumentType.ofEntity.chars ++ "<a/>".toList) =
          "<!DOCTYPE a [<!ENTITY b \"it's >\"><!-- <b> --><?c 'd'?>]><a/>" := by decide +kernel
      have hlimit : ({} : Converter).exceededLimit?
          (String.ofList (DocumentType.ofEntity.chars ++ "<a/>".toList)) = none := by decide +kernel
      have hcount : DocumentType.ofEntity.chars.length = 56 := by decide +kernel
      obtain ⟨-, hdata, hgroups⟩ := convert_of_documentType .ofEntity hconvert hlimit
      have hlonger := hdata (hgroups hbalanced)
      rw [htext, hcount] at hlonger
      exact ⟨found, rfl, hlonger⟩

/-- A document type with an apostrophe in a comment. -/
def DocumentType.ofApostrophe : DocumentType where
  name := "a"
  subset := [.comment " it's ".toList]
  isName := by decide
  isWellFormed := by
    have hcomment : ¬ "--".toList <:+: " it's ".toList := by decide
    exact List.forall_mem_singleton.2 hcomment
  areBlanks := by decide

/-- The apostrophe hides the end of the document type. -/
theorem apostrophe_not_skipped :
    String.ofList (DocumentType.ofApostrophe.chars ++ "<a/>".toList) =
      "<!DOCTYPE a [<!-- it's -->]><a/>" ∧
    (({} : Converter).convert "<a/>").outcome.toOption.isSome = true ∧
    (({} : Converter).convert "<!DOCTYPE a [<!-- it's -->]><a/>").outcome.toOption.isSome =
      false := by
  decide +kernel

end XmlToJson

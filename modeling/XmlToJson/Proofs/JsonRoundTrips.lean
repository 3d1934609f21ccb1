import XmlToJson.Proofs.JsonReading
import XmlToJson.Proofs.JsonWriting

/-!
# Values that are read back

What is written of a value without floating-point numbers is read back as the value itself, with one
sort of array (`Value.readsAs_toJson`).  Only two bounds of the reader matter: the digits of a whole
number, and the levels of nesting.

## Strategy

* **Writing and reading** are each compared with the grammar, so a round trip is no induction of its
  own: `Value.isJson_of_isExact` says what the text stands for, and `JsonReader.readsAs_of_isJson`
  that it is read as that.  `Value.IsExact` says of the scalars what both need.
* **One sort of array.**  `Value.plain` forgets which arrays were gathered.  It keeps the levels,
  the strings and the keys of a value (`Value.nesting_plain`, `Value.UsesOnly.plain`), and doing it
  twice is doing it once (`Value.plain_plain`).
* **Values that count as the same.**  Apart from the sorts of its arrays a value cannot be told from
  the one that is read back (`Value.MadeOf.same_of_plain`).  Items are compared one by one
  (`sameItems_of_plain`), members under their keys, where it is needed that these are different
  (`lookup_of_plain`, `sameMembers_of_lookup`).
* **The bound on the levels is sharp**: no value that is read is nested more deeply than levels may
  be opened (`JsonReader.nesting_le_of_readValue`, `Value.nesting_le_of_ofJson`).  This is an
  induction on the text along the reader, since here nothing is known of the text but that it was
  read.  Members that later ones replace do not count (`Object.forall_members_ofMembers`).
-/

namespace XmlToJson

open JsonGrammar

/-! ## Nesting of what is read -/

/-- What holds of the values of all members holds of those that later members do not replace. -/
theorem Object.forall_members_ofMembers {P : Value → Prop} {members : List (String × Value)}
    (h : ∀ member ∈ members, P member.2) : ∀ member ∈ (ofMembers members).members, P member.2 := by
  induction members using List.reverseRecOn with
  | nil => simp [ofMembers, empty]
  | append_singleton members last ih =>
      obtain ⟨hmembers, hlast⟩ := List.forall_mem_append.1 h
      rw [ofMembers_concat]
      exact forall_members_set (ih hmembers) (hlast last (List.mem_singleton_self _))

namespace JsonReader

theorem isContainer_of_readScalar {text : List Char} {reading : Reading Value text}
    (h : readScalar text = .ok reading) : reading.value.isContainer = false := by
  unfold readScalar at h
  split at h
  · next value following hword =>
      obtain rfl := Except.ok.inj h
      obtain ⟨⟨word, meaning⟩, hmem, hread⟩ := List.exists_of_findSome?_eq_some hword
      obtain ⟨-, rfl, -⟩ : _ ∧ meaning = value ∧ _ := by simpa using hread
      have hwords : ∀ entry ∈ words, entry.2.isContainer = false := by decide
      exact hwords _ hmem
  · split at h
    · next value following hnumber =>
        obtain rfl := Except.ok.inj h
        unfold readNumber at hnumber
        split at hnumber
        · contradiction
        · split at hnumber
          · obtain rfl := congrArg Prod.fst (Except.ok.inj hnumber)
            rfl
          · split at hnumber
            · contradiction
            · obtain rfl := congrArg Prod.fst (Except.ok.inj hnumber)
              rfl
    · contradiction

mutual

/-- No value that is read is nested more deeply than levels may be opened. -/
theorem nesting_le_of_readValue (levels : Nat) (text : List Char) {reading : Reading Value text}
    (h : readValue levels text = .ok reading) : reading.value.nesting ≤ levels := by
  unfold readValue at h
  split at h
  · contradiction
  · split at h
    · contradiction
    · obtain rfl := Except.ok.inj h
      exact Nat.zero_le _
  · next rest inside hmark =>
      split at h
      · contradiction
      · obtain rfl := Except.ok.inj h
        exact Nat.succ_le_succ (Nat.zero_le _)
      · split at h
        · contradiction
        · next items following shorter hitems =>
            obtain rfl := Except.ok.inj h
            exact Nat.succ_le_succ
              (Value.nestingOfItems_le_iff.2 (nesting_le_of_readItems _ rest hitems))
  · next rest inside hmark =>
      split at h
      · contradiction
      · obtain rfl := Except.ok.inj h
        exact Nat.succ_le_succ (Nat.zero_le _)
      · split at h
        · contradiction
        · next members following shorter hmembers =>
            obtain rfl := Except.ok.inj h
            refine Nat.succ_le_succ (Value.nestingOfMembers_le_iff.2 ?_)
            exact @Object.forall_members_ofMembers (·.nesting ≤ _) members
              (nesting_le_of_readMembers _ rest hmembers)
  · split at h
    · contradiction
    · next hscalar =>
        obtain rfl := Except.ok.inj h
        rw [Value.nesting_of_scalar (isContainer_of_readScalar hscalar)]
        exact Nat.zero_le _
termination_by (text.length, 0)

theorem nesting_le_of_readItems (levels : Nat) (text : List Char)
    {reading : Reading (List Value) text} (h : readItems levels text = .ok reading) :
    ∀ item ∈ reading.value, item.nesting ≤ levels := by
  unfold readItems at h
  split at h
  · contradiction
  · next item behind inside hitem =>
      have hfirst := nesting_le_of_readValue levels text hitem
      split at h
      · obtain rfl := Except.ok.inj h
        simpa using hfirst
      · next rest shorter hmark =>
          split at h
          · contradiction
          · next items following further hrest =>
              obtain rfl := Except.ok.inj h
              have hothers := nesting_le_of_readItems levels rest hrest
              exact List.forall_mem_cons.2 ⟨hfirst, hothers⟩
      · contradiction
termination_by (text.length, 1)

theorem nesting_le_of_readMembers (levels : Nat) (text : List Char)
    {reading : Reading (List (String × Value)) text} (h : readMembers levels text = .ok reading) :
    ∀ member ∈ reading.value, member.2.nesting ≤ levels := by
  unfold readMembers at h
  split at h
  · split at h
    · contradiction
    · split at h
      · next rest afterColon hcolon =>
          split at h
          · contradiction
          · next value behind afterValue hvalue =>
              have hfirst := nesting_le_of_readValue levels rest hvalue
              split at h
              · obtain rfl := Except.ok.inj h
                simpa using hfirst
              · next others shorter hmark =>
                  split at h
                  · contradiction
                  · next members following further hrest =>
                      obtain rfl := Except.ok.inj h
                      have hothers := nesting_le_of_readMembers levels others hrest
                      exact List.forall_mem_cons.2 ⟨hfirst, hothers⟩
              · contradiction
      · contradiction
  · contradiction
termination_by (text.length, 1)

end

end JsonReader

theorem Value.nesting_le_of_ofJson {host : Host} {text : String} {value : Value}
    (h : Value.ofJson host text = .ok value) : value.nesting ≤ host.readingLevels := by
  unfold Value.ofJson at h
  simp only at h
  split at h
  · next read hread =>
      obtain rfl := Except.ok.inj h
      unfold JsonReader.readWhole at hread
      split at hread
      · contradiction
      · split at hread
        · contradiction
        · next hvalue =>
            split at hread
            · obtain rfl := Except.ok.inj hread
              exact JsonReader.nesting_le_of_readValue _ _ hvalue
            · contradiction
  · contradiction

namespace Value

/-! ## One sort of array -/

section Plain

variable (number : Binary64 → Binary64)

mutual

theorem nesting_plain (value : Value) : (value.plain number).nesting = value.nesting := by
  match value with
  | .null | .bool _ | .integer _ | .float _ | .string _ => rfl
  | .list items | .gathered items => exact congrArg (· + 1) (nestingOfItems_plain items)
  | .object members => exact congrArg (· + 1) (nestingOfMembers_plain members)

theorem nestingOfItems_plain (items : List Value) :
    nestingOfItems (plainItems number items) = nestingOfItems items := by
  match items with
  | [] => rfl
  | item :: rest =>
      rw [plainItems, nestingOfItems, nestingOfItems, nesting_plain item, nestingOfItems_plain rest]

theorem nestingOfMembers_plain (members : List (String × Value)) :
    nestingOfMembers (plainMembers number members) = nestingOfMembers members := by
  match members with
  | [] => rfl
  | (key, value) :: rest =>
      rw [plainMembers, nestingOfMembers, nestingOfMembers, nesting_plain value,
        nestingOfMembers_plain rest]

end

end Plain

mutual

/-- A value with one sort of array stays as it is. -/
theorem plain_plain (value : Value) : (value.plain id).plain id = value.plain id := by
  match value with
  | .null | .bool _ | .integer _ | .float _ | .string _ => rfl
  | .list items | .gathered items => exact congrArg Value.list (plainItems_plainItems items)
  | .object members => exact congrArg Value.object (plainMembers_plainMembers members)

theorem plainItems_plainItems (items : List Value) :
    plainItems id (plainItems id items) = plainItems id items := by
  match items with
  | [] => rfl
  | item :: rest =>
      rw [plainItems, plainItems, plain_plain item, plainItems_plainItems rest]

theorem plainMembers_plainMembers (members : List (String × Value)) :
    plainMembers id (plainMembers id members) = plainMembers id members := by
  match members with
  | [] => rfl
  | (key, value) :: rest =>
      rw [plainMembers, plainMembers, plain_plain value, plainMembers_plainMembers rest]

end

/-- A scalar that is no floating-point number is the same in both sorts. -/
theorem plain_of_scalar {number : Binary64 → Binary64} {value : Value}
    (hscalar : value.isContainer = false) (hfloat : ∀ x, value ≠ .float x) :
    value.plain number = value := by
  cases value with
  | float x => exact absurd rfl (hfloat x)
  | list | gathered | object => simp [isContainer] at hscalar
  | _ => rfl

theorem madeOf_plain {leaf otherLeaf : Value → Prop} {name : String → Prop}
    {number : Binary64 → Binary64} {value : Value} (h : value.MadeOf leaf name)
    (hleaf : ∀ own, own.isContainer = false → leaf own → otherLeaf (own.plain number)) :
    (value.plain number).MadeOf otherLeaf name := by
  induction h with
  | @scalar value hscalar hown =>
      refine .scalar ?_ (hleaf value hscalar hown)
      cases value <;> simp_all [isContainer, plain]
  | list _ ih | gathered _ ih =>
      rw [plain, plainItems_eq]
      exact .list (List.forall_mem_map.2 ih)
  | object hdistinct hnames _ ih =>
      rw [plain, plainMembers_eq]
      refine .object ?_ (List.forall_mem_map.2 hnames) (List.forall_mem_map.2 ih)
      rw [List.map_map]
      exact hdistinct

/-- One sort of array and other numbers change no string and no key. -/
theorem UsesOnly.plain {P : Char → Prop} {number : Binary64 → Binary64} {value : Value}
    (h : value.UsesOnly P) : (value.plain number).UsesOnly P := by
  refine madeOf_plain h fun own _ hown text htext => ?_
  cases own <;> simp_all [Value.plain, HoldsText]

/-! ## Values that count as the same -/

/-- Items that are the same apart from the sorts of their arrays count as the same. -/
theorem sameItems_of_plain {items others : List Value}
    (hsame : ∀ item ∈ items, ∀ other, item.plain id = other.plain id → item.same other = true)
    (h : items.map (plain id) = others.map (plain id)) : sameItems items others = true := by
  induction items generalizing others with
  | nil =>
      obtain rfl := List.map_eq_nil_iff.1 h.symm
      rfl
  | cons item rest ih =>
      obtain ⟨other, following, rfl, hother, hfollowing⟩ := List.map_eq_cons_iff.1 h.symm
      obtain ⟨hitem, hrest⟩ := List.forall_mem_cons.1 hsame
      rw [sameItems, hitem other hother.symm, ih hrest hfollowing.symm]
      rfl

theorem sameMembers_of_lookup {members others : List (String × Value)}
    (h : ∀ member ∈ members, ∃ other, others.lookup member.1 = some other ∧
      member.2.same other = true) : sameMembers members others = true := by
  induction members with
  | nil => rfl
  | cons member rest ih =>
      obtain ⟨hmember, hrest⟩ := List.forall_mem_cons.1 h
      obtain ⟨other, hlookup, hsame⟩ := hmember
      rw [sameMembers, hlookup, ih hrest]
      simp [hsame]

/-- Members that are the same apart from the sorts of their arrays are found under their keys. -/
theorem lookup_of_plain {members others : List (String × Value)}
    (hdistinct : (members.map (·.1)).Nodup)
    (h : members.map (fun member => (member.1, member.2.plain id)) =
      others.map fun member => (member.1, member.2.plain id)) :
    ∀ member ∈ members, ∃ other, others.lookup member.1 = some other ∧
      member.2.plain id = other.plain id := by
  induction members generalizing others with
  | nil => simp
  | cons member rest ih =>
      obtain ⟨other, following, rfl, hother, hfollowing⟩ := List.map_eq_cons_iff.1 h.symm
      obtain ⟨key, value⟩ := member
      obtain ⟨name, second⟩ := other
      obtain ⟨rfl, hvalue⟩ := Prod.mk.inj hother
      rw [List.map_cons, List.nodup_cons] at hdistinct
      obtain ⟨hfresh, hrest⟩ := hdistinct
      refine List.forall_mem_cons.2 ⟨⟨second, by simp, hvalue.symm⟩, fun member hmem => ?_⟩
      obtain ⟨found, hlookup, hfound⟩ := ih hrest hfollowing.symm member hmem
      have hlater : member.1 ∈ rest.map (·.1) := List.mem_map_of_mem hmem
      have hne : member.1 ≠ name := by
        rintro rfl
        exact hfresh hlater
      exact ⟨found, by rw [Entries.lookup_cons, if_neg hne, hlookup], hfound⟩

theorem plain_eq_list_iff {items : List Value} {other : Value} :
    .list items = other.plain id ↔
      ∃ others, (other = .list others ∨ other = .gathered others) ∧
        items = others.map (plain id) := by
  cases other <;> simp [plain, plainItems_eq]

theorem plain_eq_object_iff {members : List (String × Value)} {other : Value} :
    .object members = other.plain id ↔ ∃ others, other = .object others ∧
      members = others.map fun member => (member.1, member.2.plain id) := by
  cases other <;> simp [plain, plainMembers_eq]

theorem same_self_of_scalar {value : Value} (hscalar : value.isContainer = false)
    (hfloat : ∀ x, value = .float x → x.same x = true) : value.same value = true := by
  cases value with
  | float x => exact hfloat x rfl
  | list | gathered | object => simp [isContainer] at hscalar
  | _ => simp [same, asInteger?]

/-- Values that are the same apart from the sorts of their arrays count as the same, if each of
their floating-point numbers counts as the same as itself. -/
theorem MadeOf.same_of_plain {name : String → Prop} {value other : Value}
    (h : value.MadeOf (fun leaf => ∀ x, leaf = .float x → x.same x = true) name)
    (hplain : value.plain id = other.plain id) : value.same other = true := by
  induction h generalizing other with
  | @scalar value hscalar hfloat =>
      obtain rfl : value = other := by
        cases value <;> cases other <;> simp_all [plain, isContainer]
      exact same_self_of_scalar hscalar hfloat
  | list _ ih | gathered _ ih =>
      rw [plain, plainItems_eq] at hplain
      obtain ⟨others, rfl | rfl, hitems⟩ := plain_eq_list_iff.1 hplain <;>
        exact sameItems_of_plain (fun item hmem other => ih item hmem) hitems
  | object hdistinct _ _ ih =>
      rw [plain, plainMembers_eq] at hplain
      obtain ⟨others, rfl, hmembers⟩ := plain_eq_object_iff.1 hplain
      have hlength := congrArg List.length hmembers
      rw [List.length_map, List.length_map] at hlength
      rw [same, hlength, beq_self_eq_true, Bool.true_and]
      refine sameMembers_of_lookup fun member hmem => ?_
      obtain ⟨found, hlookup, hfound⟩ := lookup_of_plain hdistinct hmembers member hmem
      exact ⟨found, hlookup, ih member hmem hfound⟩

/-! ## Values without floating-point numbers -/

/-- Whether a value, if it has no items or members, can be written and read back: it is no
floating-point number, and its digits are not too many. -/
def IsExact (value : Value) : Prop := (∀ x, value ≠ .float x) ∧ value.HasShortDigits

theorem isExact_string (text : String) : IsExact (.string text) := by
  simp [IsExact, HasShortDigits]

theorem isExact_null : IsExact .null := by
  simp [IsExact, HasShortDigits]

section Exact

variable {value : Value} (h : value.MadeOf IsExact fun _ => True)

include h

/-- Nothing that is said of all floating-point numbers fails where there are none. -/
theorem forall_float_of_isExact {P : Binary64 → Prop} :
    value.MadeOf (fun leaf => ∀ x, leaf = .float x → P x) fun _ => True :=
  h.mono (fun _ hleaf x hx => absurd hx (hleaf.1 x)) fun _ => id

/-- What is written of a value stands for it, with one sort of array. -/
theorem isJson_of_isExact {layout : JsonLayout} (hlayout : layout.IsSpaced) :
    IsJson (value.plain id) (value.toJson layout) := by
  have hnumbers : value.plain Binary64.reread = value.plain id :=
    (forall_float_of_isExact h).plain_congr
  rw [← hnumbers]
  exact isJson_toJson hlayout (forall_float_of_isExact h)

theorem isExact_plain : (value.plain id).MadeOf IsExact fun _ => True := by
  refine madeOf_plain h fun own hscalar hown => ?_
  rw [plain_of_scalar hscalar hown.1]
  exact hown

theorem readable_plain {levels : Nat} (hlevels : value.nesting ≤ levels) :
    (value.plain id).Readable levels where
  nesting_le := by rwa [nesting_plain]
  short := (isExact_plain h).mono (fun _ => And.right) fun _ => id

/-- What is written of a value is read back, if as many levels as it has may be opened. -/
theorem readsAs_toJson {layout : JsonLayout} (hlayout : layout.IsSpaced) {levels : Nat}
    (hlevels : value.nesting ≤ levels) :
    JsonReader.ReadsAs levels (value.toJson layout) (value.plain id) :=
  JsonReader.readsAs_of_isJson (isJson_of_isExact h hlayout) (readable_plain h hlevels)

theorem ofJson_toJson {host : Host} {layout : JsonLayout} (hlayout : layout.IsSpaced)
    (hlevels : value.nesting ≤ host.readingLevels) :
    Value.ofJson host (value.toJson layout) = .ok (value.plain id) :=
  ofJson_of_isJson (isJson_of_isExact h hlayout) (readable_plain h hlevels)

theorem same_self : value.same value = true :=
  (forall_float_of_isExact h).same_of_plain rfl

/-- What is read back counts as the same as the value. -/
theorem same_plain : (value.plain id).same value = true :=
  (forall_float_of_isExact (isExact_plain h)).same_of_plain (plain_plain value)

end Exact

end Value

end XmlToJson

import XmlToJson.Proofs.Locality

/-!
# Character data is decoded where it stands

References are resolved while the character that ends a run is looked for.  It comes to the same to
find that character first and then to replace the references in the stretch in front of it.
`Decodes` is the second half, with no regard to reading: from left to right, every reference is
replaced once, and what has been put in its place is not looked at again.

## Strategy

No reference reaches over the stop character, as that is neither a character of a name nor a
semicolon (`Reference.not_isNameChar_semicolon`, `Reference.not_isNameChar_ampersand`; `IsStop` says
what a stop character is).  So the two ways of reading never take off different pieces, and each
direction is an induction on one of them.

* `read_decodes` follows the relation: a stretch without the stop character is read as what it
  stands for, whatever follows it.
* `read_spec` follows the reading: what is read is the longest stretch without the stop character,
  decoded, or reading fails at a reference that has no semicolon.

The relation is a function of the stretch (`Decodes.unique`), because a name in front of the first
semicolon can be told from what follows it (`Reference.eq_of_append`).  For the same reason what is
written from an ampersand up to the next semicolon is one of the references of the stretch, and it
stands for its own text there (`exists_of_reference`).
-/

namespace XmlToJson

/-- Whether `written` stands for the second text: each reference in it is replaced by what it stands
for, and each other character stands for itself. -/
inductive Decodes : List Char → List Char → Prop where
  | nil : Decodes [] []
  | raw {c : Char} {written decoded : List Char} :
      c ≠ '&' → Decodes written decoded → Decodes (c :: written) (c :: decoded)
  | reference {name written decoded : List Char} :
      (∀ c ∈ name, Reference.isNameChar c = true) → Decodes written decoded →
      Decodes ('&' :: (name ++ ';' :: written)) (Reference.expand name ++ decoded)

theorem Reference.not_isNameChar_semicolon : isNameChar ';' = false := by
  decide +kernel

theorem Reference.not_isNameChar_ampersand : isNameChar '&' = false := by
  decide +kernel

theorem Reference.not_mem_semicolon {name : List Char} (h : ∀ c ∈ name, isNameChar c = true) :
    ';' ∉ name := by
  intro hmem
  have hsemicolon := h ';' hmem
  rw [not_isNameChar_semicolon] at hsemicolon
  contradiction

/-- A name in front of the first semicolon can be told from what follows. -/
theorem Reference.eq_of_append {name other behind rest : List Char} (hname : ';' ∉ name)
    (hother : ';' ∉ other) (h : name ++ ';' :: behind = other ++ ';' :: rest) :
    name = other ∧ behind = rest := by
  have hrun : ∀ {run : List Char} (tail : List Char), ';' ∉ run →
      (run ++ ';' :: tail).takeWhile (· != ';') = run := by
    intro run tail hrun
    refine Text.takeWhile_append_cons (fun c hc => ?_) (by simp) tail
    exact bne_iff_ne.2 fun heq => hrun (heq ▸ hc)
  have hsame : name = other := by
    calc name = (name ++ ';' :: behind).takeWhile (· != ';') := (hrun behind hname).symm
      _ = (other ++ ';' :: rest).takeWhile (· != ';') := by rw [h]
      _ = other := hrun rest hother
  subst hsame
  exact ⟨rfl, (List.cons.inj (List.append_cancel_left h)).2⟩

namespace Decodes

variable {written decoded other : List Char}

/-- A stretch stands for one text only. -/
theorem unique (h : Decodes written decoded) (hother : Decodes written other) :
    decoded = other := by
  induction h generalizing other with
  | nil =>
      cases hother
      rfl
  | @raw c written decoded hc hwritten ih =>
      cases hother with
      | raw _ hrest => rw [ih hrest]
      | reference _ _ => exact absurd rfl hc
  | @reference name written decoded hname hwritten ih =>
      generalize htext : '&' :: (name ++ ';' :: written) = text at hother
      cases hother with
      | nil => simp at htext
      | raw hc _ =>
          obtain ⟨rfl, -⟩ := List.cons.inj htext
          exact absurd rfl hc
      | reference hagain hrest =>
          obtain ⟨-, htail⟩ := List.cons.inj htext
          obtain ⟨rfl, rfl⟩ := Reference.eq_of_append (Reference.not_mem_semicolon hname)
            (Reference.not_mem_semicolon hagain) htail
          rw [ih hrest]

/-- What is written from an ampersand up to the next semicolon is a reference in a stretch that
stands for a text, and it stands for its own text wherever it is written. -/
theorem exists_of_reference {front name behind : List Char} (hname : ';' ∉ name)
    (h : Decodes (front ++ '&' :: (name ++ ';' :: behind)) decoded) :
    (∀ c ∈ name, Reference.isNameChar c = true) ∧
      ∃ before after, Decodes front before ∧ Decodes behind after ∧
        decoded = before ++ Reference.expand name ++ after := by
  generalize htext : front ++ '&' :: (name ++ ';' :: behind) = text at h
  induction h generalizing front with
  | nil => simp at htext
  | @raw c written decoded hc hwritten ih =>
      cases front with
      | nil =>
          obtain ⟨rfl, -⟩ := List.cons.inj htext
          exact absurd rfl hc
      | cons d front =>
          obtain ⟨rfl, hrest⟩ := List.cons.inj htext
          obtain ⟨hchars, before, after, hbefore, hafter, rfl⟩ := ih hrest
          exact ⟨hchars, d :: before, after, .raw hc hbefore, hafter, rfl⟩
  | @reference inner written decoded hinner hwritten ih =>
      cases front with
      | nil =>
          obtain ⟨-, hrest⟩ := List.cons.inj htext
          obtain ⟨rfl, rfl⟩ :=
            Reference.eq_of_append hname (Reference.not_mem_semicolon hinner) hrest
          exact ⟨hinner, [], decoded, .nil, hwritten, rfl⟩
      | cons d front =>
          obtain ⟨rfl, hrest⟩ := List.cons.inj htext
          -- The name of the earlier reference ends in front of the later one, as an ampersand
          -- cannot stand in it.
          rcases List.append_eq_append_iff.1 hrest with
            ⟨tail, hfront, htail⟩ | ⟨tail, hfront, htail⟩
          · cases tail with
            | nil => simp at htail
            | cons e tail =>
                obtain ⟨rfl, -⟩ := List.cons.inj htail
                have hmem := hinner '&' (by rw [hfront]; simp)
                rw [Reference.not_isNameChar_ampersand] at hmem
                contradiction
          · cases tail with
            | nil => simp at htail
            | cons e tail =>
                obtain ⟨rfl, hbehind⟩ := List.cons.inj htail
                obtain ⟨hchars, before, after, hbefore, hafter, rfl⟩ := ih hbehind.symm
                subst hfront
                exact ⟨hchars, _, after, .reference hinner hbefore, hafter, by simp⟩

end Decodes

namespace CharacterData

variable {stop : Char} {inner decoded : List Char}

/-- A stretch without the stop character is read as what it stands for, whatever follows it. -/
theorem read_decodes (hstop : stop ≠ '&') (h : Decodes inner decoded) (hinner : stop ∉ inner)
    (behind : List Char) :
    read stop (inner ++ behind) = (read stop behind).after decoded inner.length := by
  induction h with
  | nil => simp [after]
  | @raw c written decoded hc hwritten ih =>
      obtain ⟨hne, hrest⟩ := List.ne_and_not_mem_of_not_mem_cons hinner
      rw [List.cons_append, read_raw _ (Ne.symm hne) hc, ih hrest, after_after, List.length_cons,
        Nat.add_comm]
      rfl
  | @reference name written decoded hname hwritten ih =>
      have hrest : stop ∉ written := fun hmem => hinner (by simp [hmem])
      rw [List.cons_append, List.append_assoc, List.cons_append, read_expand hstop hname, ih hrest,
        after_after]
      congr 1
      simp only [List.length_cons, List.length_append]
      omega

/-- Whether a character can end character data: it can stand in no reference. -/
def IsStop (stop : Char) : Prop :=
  stop ≠ '&' ∧ stop ≠ ';' ∧ Reference.isNameChar stop = false

/-- What is read is the stretch up to the first stop character, or up to the end of the text, and
its references are replaced.  Only a reference that is not ended prevents it. -/
theorem read_spec (hstop : IsStop stop) (chars : List Char) :
    (∃ name, (read stop chars).ending = .brokenReference name) ∨
      ∃ inner behind, chars = inner ++ behind ∧ inner.length = (read stop chars).length ∧
        stop ∉ inner ∧ Decodes inner (read stop chars).decoded ∧
        (behind = [] ∧ (read stop chars).ending = .exhausted ∨
          behind.head? = some stop ∧ (read stop chars).ending = .stopped) := by
  obtain ⟨-, hsemicolon, hnot⟩ := hstop
  fun_induction read stop chars with
  | case1 => exact .inr ⟨[], [], rfl, rfl, List.not_mem_nil, .nil, .inl ⟨rfl, rfl⟩⟩
  | case2 rest =>
      exact .inr ⟨[], stop :: rest, rfl, rfl, List.not_mem_nil, .nil, .inr ⟨rfl, rfl⟩⟩
  | case3 rest name following hfollowing hne ih =>
      obtain ⟨hrest, hname, hdrop⟩ := ended_reference hfollowing rfl
      rw [hdrop] at ih ⊢
      refine ih.imp_right ?_
      rintro ⟨inner, behind, rfl, hlength, hinner, hdecodes, hends⟩
      refine ⟨'&' :: (name ++ ';' :: inner), behind, by simp [hrest], ?_, ?_,
        .reference hname hdecodes, hends⟩
      · simp only [after, List.length_cons, List.length_append, hlength]
        omega
      · have hfree : stop ∉ name := by
          intro hmem
          rw [hname stop hmem] at hnot
          contradiction
        simp [Ne.symm hne, hsemicolon, hfree, hinner]
  | case4 rest name hbroken hne => exact .inl ⟨name, rfl⟩
  | case5 c rest hne hreference ih =>
      refine ih.imp_right ?_
      rintro ⟨inner, behind, rfl, hlength, hinner, hdecodes, hends⟩
      refine ⟨c :: inner, behind, rfl, ?_, ?_, .raw hreference hdecodes, hends⟩
      · rw [List.length_cons, hlength]
        exact Nat.add_comm _ 1
      · rw [List.mem_cons, not_or]
        exact ⟨fun heq => hne heq.symm, hinner⟩

end CharacterData

end XmlToJson

import XmlToJson.Files.Tree
import Mathlib.Data.List.Induction

/-!
# Paths and where they lead

A path and its text determine each other, and what is in a tree of files is found by walking along a
path.  This file is about both, with no regard to what the program does with files.

**Paths.**  A path that a text stands for (`Path.IsProper`) is given back by its own text
(`Path.ofText_text`), so two such paths with the same text are the same
(`Path.IsProper.eq_of_text`).  Splitting at slashes undoes joining with slashes
(`splitAtSlashes_intercalate`), and the slashes in front only add empty parts, which do not count
(`filter_splitAtSlashes_slashes`).

**Trees.**  `FileTree.IsProper` says that a tree is one of files that can be there.  Then what lies
below a directory is reached through directories only (`IsProper.directory_of_below`), and names
lead to what they stand for, unless a directory on the way may not be entered or a name is too long
(`IsProper.walk_below`).

**Looking through a directory** is another matter than walking: it comes to entries by their names
(`mem_found_iff`) and never twice to the same one (`IsProper.nodup_found`).  Where it can be told
what such an entry is, walking leads to the very entry (`IsProper.find_append`).

**Changes.**  Walking does not look at what is in a file (`walk_congr`), so other bytes in one file
change what is read there and nowhere else (`read_set`), what a path stands for is the same but for
these bytes (`find_set_cases`), and what is found in a directory stays the same (`found_set`).
Writing takes no directory away, so a path leads where it led before (`walk_mono`).  A file can be
written where `CanWrite` holds (`write_eq_ok_iff`), and writing changes what a single path leads to
(`isWritten_of_write`).
-/

namespace XmlToJson

namespace Path

/-! ## Paths and their texts -/

/-- Whether a text can stand between the slashes of a path. -/
structure IsPart (part : String) : Prop where
  nonempty : part ≠ ""
  not_point : part ≠ "."
  no_slash : '/' ∉ part.toList

instance (part : String) : Decidable (IsPart part) :=
  decidable_of_iff (part ≠ "" ∧ part ≠ "." ∧ '/' ∉ part.toList)
    ⟨fun ⟨nonempty, not_point, no_slash⟩ => ⟨nonempty, not_point, no_slash⟩,
      fun h => ⟨h.nonempty, h.not_point, h.no_slash⟩⟩

/-- Whether a path is one that a text stands for. -/
structure IsProper (path : Path) : Prop where
  root : ∃ count ≤ 2, path.root = List.replicate count '/'
  parts : ∀ part ∈ path.parts, IsPart part

theorem splitAtSlashes_ne_nil (text : List Char) : splitAtSlashes text ≠ [] := by
  induction text with
  | nil => simp [splitAtSlashes]
  | cons c rest ih =>
      rw [splitAtSlashes]
      split
      · simp
      · split <;> simp

theorem splitAtSlashes_cons {c : Char} (hc : c ≠ '/') {text part : List Char}
    {parts : List (List Char)} (h : splitAtSlashes text = part :: parts) :
    splitAtSlashes (c :: text) = (c :: part) :: parts := by
  rw [splitAtSlashes, if_neg hc, h]

theorem no_slash_of_mem_splitAtSlashes {text : List Char} :
    ∀ part ∈ splitAtSlashes text, '/' ∉ part := by
  induction text with
  | nil => simp [splitAtSlashes]
  | cons c rest ih =>
      by_cases hc : c = '/'
      · rw [splitAtSlashes, if_pos hc]
        exact List.forall_mem_cons.2 ⟨List.not_mem_nil, ih⟩
      · obtain ⟨first, parts, hparts⟩ := List.exists_cons_of_ne_nil (splitAtSlashes_ne_nil rest)
        rw [splitAtSlashes_cons hc hparts]
        rw [hparts] at ih
        obtain ⟨hfirst, hrest⟩ := List.forall_mem_cons.1 ih
        refine List.forall_mem_cons.2 ⟨?_, hrest⟩
        simpa [Ne.symm hc] using hfirst

theorem splitAtSlashes_of_no_slash {part : List Char} (h : '/' ∉ part) :
    splitAtSlashes part = [part] := by
  induction part with
  | nil => rfl
  | cons c rest ih =>
      obtain ⟨hc, hrest⟩ := not_or.1 (mt List.mem_cons.2 h)
      exact splitAtSlashes_cons (Ne.symm hc) (ih hrest)

theorem splitAtSlashes_append {part : List Char} (h : '/' ∉ part) (text : List Char) :
    splitAtSlashes (part ++ '/' :: text) = part :: splitAtSlashes text := by
  induction part with
  | nil => rw [List.nil_append, splitAtSlashes, if_pos rfl]
  | cons c rest ih =>
      obtain ⟨hc, hrest⟩ := not_or.1 (mt List.mem_cons.2 h)
      exact splitAtSlashes_cons (Ne.symm hc) (ih hrest)

/-- Parts that are joined by slashes are found again; where nothing is joined, an empty part
is found, which does not count. -/
theorem splitAtSlashes_intercalate {counts : List Char → Bool} (hempty : counts [] = false)
    {parts : List (List Char)} (h : ∀ part ∈ parts, '/' ∉ part ∧ counts part = true) :
    (splitAtSlashes (['/'].intercalate parts)).filter counts = parts := by
  induction parts with
  | nil => exact List.filter_cons_of_neg (by rw [hempty]; exact Bool.false_ne_true)
  | cons part rest ih =>
      obtain ⟨⟨hslash, hcounts⟩, hrest⟩ := List.forall_mem_cons.1 h
      cases rest with
      | nil =>
          rw [List.intercalate_singleton, splitAtSlashes_of_no_slash hslash,
            List.filter_cons_of_pos hcounts, List.filter_nil]
      | cons next others =>
          rw [List.intercalate_cons_cons, List.append_assoc, List.singleton_append,
            splitAtSlashes_append hslash, List.filter_cons_of_pos hcounts, ih hrest]

/-- Slashes in front of a text add empty parts only. -/
theorem filter_splitAtSlashes_slashes {counts : List Char → Bool} (hempty : counts [] = false)
    (count : Nat) (text : List Char) :
    (splitAtSlashes (List.replicate count '/' ++ text)).filter counts =
      (splitAtSlashes text).filter counts := by
  induction count with
  | zero => rfl
  | succ count ih =>
      rw [List.replicate_succ, List.cons_append, splitAtSlashes, if_pos rfl,
        List.filter_cons_of_neg (by rw [hempty]; exact Bool.false_ne_true), ih]

theorem IsPart.ne_nil {part : String} (h : IsPart part) : part.toList ≠ [] :=
  fun hnil => h.nonempty (String.toList_inj.1 hnil)

/-- What parts make when they are joined does not begin with a slash. -/
theorem head?_intercalate {parts : List String} (h : ∀ part ∈ parts, IsPart part) :
    (['/'].intercalate (parts.map String.toList)).head? ≠ some '/' := by
  cases parts with
  | nil => simp
  | cons part rest =>
      have hpart := h part List.mem_cons_self
      obtain ⟨c, others, hchars⟩ := List.exists_cons_of_ne_nil hpart.ne_nil
      have hc : c ≠ '/' := by
        rintro rfl
        exact hpart.no_slash (by rw [hchars]; exact List.mem_cons_self)
      have hjoined : ∃ more, ['/'].intercalate ((part :: rest).map String.toList) = c :: more := by
        cases rest with
        | nil => exact ⟨others, by simpa using hchars⟩
        | cons next last =>
            rw [List.map_cons, List.map_cons, List.intercalate_cons_cons, hchars]
            exact ⟨_, rfl⟩
      obtain ⟨more, hmore⟩ := hjoined
      rw [hmore, List.head?_cons]
      exact fun heq => hc (Option.some.inj heq)

/-- The slashes in front of a text that begins with none are those that are put there. -/
theorem rootOf_append {count : Nat} (hcount : count ≤ 2) {text : List Char}
    (htext : text.head? ≠ some '/') :
    rootOf (List.replicate count '/' ++ text) = List.replicate count '/' := by
  have hnone : text.takeWhile (· == '/') = [] := by
    cases text with
    | nil => rfl
    | cons c rest =>
        have hc : ¬ (c == '/') = true := fun heq => htext (by rw [eq_of_beq heq]; rfl)
        exact List.takeWhile_cons_of_neg hc
  have hslashes : (List.replicate count '/' ++ text).takeWhile (· == '/') =
      List.replicate count '/' := by
    rw [List.takeWhile_append_of_pos (by simp), hnone, List.append_nil]
  rw [rootOf, hslashes, if_pos (by simpa using hcount)]

/-- A text stands for a proper path. -/
theorem isProper_ofText (text : String) : (ofText text).IsProper where
  root := by
    have hslashes : text.toList.takeWhile (· == '/') =
        List.replicate (text.toList.takeWhile (· == '/')).length '/' := by
      refine List.eq_replicate_iff.2 ⟨rfl, fun c hc => ?_⟩
      exact eq_of_beq (List.all_eq_true.1 List.all_takeWhile c hc)
    show ∃ count ≤ 2, rootOf text.toList = _
    unfold rootOf
    dsimp only
    split
    · next hlength => exact ⟨_, hlength, hslashes⟩
    · exact ⟨1, by decide, rfl⟩
  parts := by
    intro part hpart
    obtain ⟨chars, hchars, rfl⟩ := List.mem_map.1 hpart
    obtain ⟨hsplit, hcounts⟩ := List.mem_filter.1 hchars
    simp only [Bool.and_eq_true, bne_iff_ne] at hcounts
    refine ⟨fun h => hcounts.1 ?_, fun h => hcounts.2 ?_, ?_⟩
    · rw [← String.toList_ofList (l := chars), h]; rfl
    · rw [← String.toList_ofList (l := chars), h]; rfl
    · rw [String.toList_ofList]
      exact no_slash_of_mem_splitAtSlashes chars hsplit

/-- The characters of a path, of which there are none for the working directory. -/
def chars (path : Path) : List Char :=
  path.root ++ ['/'].intercalate (path.parts.map String.toList)

theorem text_eq (path : Path) :
    path.text = if path.chars = [] then "." else String.ofList path.chars := by
  have hchars : String.ofList path.root ++ "/".intercalate path.parts =
      String.ofList path.chars := by
    apply String.toList_inj.1
    simp only [String.toList_append, String.toList_intercalate, String.toList_ofList]
    rfl
  have hempty : String.ofList path.chars = "" ↔ path.chars = [] := by
    rw [← String.toList_inj, String.toList_ofList]
    rfl
  rw [text, hchars]
  exact if_congr hempty rfl rfl

/-- A proper path is given back by its text. -/
theorem ofText_text {path : Path} (h : path.IsProper) : ofText path.text = path := by
  obtain ⟨⟨count, hcount, hroot⟩, hparts⟩ := h
  have hfound : (splitAtSlashes path.chars).filter (fun part => part != [] && part != ['.']) =
      path.parts.map String.toList := by
    rw [chars, hroot, filter_splitAtSlashes_slashes rfl]
    refine splitAtSlashes_intercalate rfl fun own hown => ?_
    obtain ⟨part, hpart, rfl⟩ := List.mem_map.1 hown
    have hproper := hparts part hpart
    have hpoint : part.toList ≠ ['.'] := fun heq => hproper.not_point (String.toList_inj.1 heq)
    exact ⟨hproper.no_slash, by simp [hproper.ne_nil, hpoint]⟩
  rw [text_eq]
  split
  · next hnone =>
      -- The text of the working directory is a single point, which does not count either.
      rw [hnone] at hfound
      have hparts : path.parts = [] := List.map_eq_nil_iff.1 hfound.symm
      have hroot : path.root = [] := (List.append_eq_nil_iff.1 hnone).1
      calc ofText "." = ⟨[], []⟩ := by decide
        _ = ⟨path.root, path.parts⟩ := by rw [hroot, hparts]
  · rw [ofText, String.toList_ofList, hfound, List.map_map, chars, hroot,
      rootOf_append hcount (head?_intercalate hparts), ← hroot]
    simp [Function.comp_def]

/-- Proper paths with the same text are the same. -/
theorem IsProper.eq_of_text {path other : Path} (h : path.IsProper) (hother : other.IsProper)
    (htext : path.text = other.text) : path = other := by
  rw [← ofText_text h, htext, ofText_text hother]

theorem IsProper.append {path : Path} (h : path.IsProper) {names : List String}
    (hnames : ∀ name ∈ names, IsPart name) : (path.append names).IsProper where
  root := h.root
  parts := fun part hpart => (List.mem_append.1 hpart).elim (h.parts part) (hnames part)

end Path

namespace FileTree

/-! ## Trees of files -/

/-- Whether a tree is one of files that can be there: no names are given twice, each of them is
a name, and what they stand for is in a directory. -/
structure IsProper (files : FileTree) : Prop where
  nodup : (files.entries.map (·.1)).Nodup
  nonempty : ∀ entry ∈ files.entries, entry.1 ≠ []
  named : ∀ entry ∈ files.entries, ∀ name ∈ entry.1, Path.IsPart name ∧ name ≠ ".."
  inside : ∀ entry ∈ files.entries, files.entryAt? entry.1.dropLast = some .directory

instance (files : FileTree) : Decidable files.IsProper :=
  decidable_of_iff ((files.entries.map (·.1)).Nodup ∧ (∀ entry ∈ files.entries, entry.1 ≠ []) ∧
      (∀ entry ∈ files.entries, ∀ name ∈ entry.1, Path.IsPart name ∧ name ≠ "..") ∧
      ∀ entry ∈ files.entries, files.entryAt? entry.1.dropLast = some .directory)
    ⟨fun ⟨nodup, nonempty, named, inside⟩ => ⟨nodup, nonempty, named, inside⟩,
      fun h => ⟨h.nodup, h.nonempty, h.named, h.inside⟩⟩

variable {files : FileTree}

theorem entryAt?_of_ne_nil {names : List String} (h : names ≠ []) :
    files.entryAt? names = files.entries.lookup names := by
  cases names with
  | nil => exact absurd rfl h
  | cons name rest => rfl

/-- Names that stand for something are those of an entry, or the root. -/
theorem mem_of_entryAt? {names : List String} {entry : FileEntry} (hnames : names ≠ [])
    (h : files.entryAt? names = some entry) : (names, entry) ∈ files.entries := by
  rw [entryAt?_of_ne_nil hnames] at h
  obtain ⟨before, after, hentries, -⟩ := List.lookup_eq_some_iff.1 h
  rw [hentries]
  exact List.mem_append_right _ List.mem_cons_self

/-- In a proper tree an entry is what its names stand for. -/
theorem IsProper.entryAt?_of_mem (hfiles : files.IsProper) {names : List String}
    {entry : FileEntry} (h : (names, entry) ∈ files.entries) :
    files.entryAt? names = some entry := by
  obtain ⟨before, after, hentries⟩ := List.append_of_mem h
  rw [entryAt?_of_ne_nil (hfiles.nonempty _ h), List.lookup_eq_some_iff]
  refine ⟨before, after, hentries, fun other hother => ?_⟩
  have hnodup := hfiles.nodup
  rw [hentries, List.map_append, List.map_cons] at hnodup
  have hne : other.1 ≠ names :=
    (List.nodup_append.1 hnodup).2.2 _ (List.mem_map_of_mem hother) _ List.mem_cons_self
  exact bne_iff_ne.2 hne.symm

/-- What something lies below is a directory. -/
theorem IsProper.directory_of_below (hfiles : files.IsProper) {here below : List String}
    (hbelow : below ≠ []) {entry : FileEntry} (h : files.entryAt? (here ++ below) = some entry) :
    files.entryAt? here = some .directory := by
  induction below using List.reverseRecOn generalizing entry with
  | nil => exact absurd rfl hbelow
  | append_singleton below name ih =>
      have hnames : here ++ (below ++ [name]) ≠ [] := by simp
      have hinside := hfiles.inside _ (mem_of_entryAt? hnames h)
      rw [← List.append_assoc, List.dropLast_concat] at hinside
      by_cases hnil : below = []
      · rwa [hnil, List.append_nil] at hinside
      · exact ih hnil hinside

/-! ## Walking -/

theorem walk_append (files : FileTree) (here parts more : List String) :
    files.walk here (parts ++ more) = files.walk here parts >>= fun there =>
      files.walk there more := by
  induction parts generalizing here with
  | nil => rfl
  | cons part rest ih =>
      rw [List.cons_append, walk, walk]
      cases files.entryAt? here with
      | none => rfl
      | some entry =>
          cases entry with
          | file content => rfl
          | directory =>
              dsimp only
              split
              · rfl
              · split
                · rfl
                · exact ih _

/-- In a proper tree names lead to what they stand for, unless it cannot be told what that is. -/
theorem IsProper.walk_below (hfiles : files.IsProper) {here below : List String}
    {entry : FileEntry} (h : files.entryAt? (here ++ below) = some entry)
    (hnames : ∀ name ∈ below, name ≠ "..") :
    files.walk here below = .ok (here ++ below) ∨
      ∃ fault, files.walk here below = .error fault ∧ fault.hidesEntry = true := by
  induction below generalizing here with
  | nil => exact .inl (by rw [List.append_nil]; rfl)
  | cons name rest ih =>
      obtain ⟨hname, hrest⟩ := List.forall_mem_cons.1 hnames
      rw [walk, hfiles.directory_of_below (List.cons_ne_nil name rest) h]
      dsimp only
      split
      · exact .inr ⟨.denied, rfl, rfl⟩
      · split
        · exact .inr ⟨.tooLong, rfl, rfl⟩
        · have hinner : files.entryAt? (here ++ [name] ++ rest) = some entry := by
            rwa [List.append_assoc, List.singleton_append]
          have hwalk := ih hinner hrest
          rwa [List.append_assoc, List.singleton_append] at hwalk

/-- Walking only looks at which names are those of directories that may be entered, and which stand
for nothing. -/
theorem walk_congr {first second : FileTree} (haccess : first.access = second.access)
    (h : ∀ names, (first.entryAt? names).map (· = .directory) =
      (second.entryAt? names).map (· = .directory)) (here parts : List String) :
    first.walk here parts = second.walk here parts := by
  induction parts generalizing here with
  | nil => rfl
  | cons part rest ih =>
      have hhere := h here
      rw [walk, walk]
      cases hfirst : first.entryAt? here <;> cases hsecond : second.entryAt? here
      · rfl
      · simp [hfirst, hsecond] at hhere
      · simp [hfirst, hsecond] at hhere
      · next entry other =>
        rw [hfirst, hsecond] at hhere
        cases entry <;> cases other
        · rfl
        · simp at hhere
        · simp at hhere
        · simp only [haccess, ih]

/-- A path leads where it led before if no directory is taken away. -/
theorem walk_mono {first second : FileTree} (haccess : first.access = second.access)
    (h : ∀ names, first.entryAt? names = some .directory →
      second.entryAt? names = some .directory) {here parts there : List String}
    (hwalk : first.walk here parts = .ok there) : second.walk here parts = .ok there := by
  induction parts generalizing here with
  | nil => exact hwalk
  | cons part rest ih =>
      rw [walk] at hwalk ⊢
      split at hwalk
      · contradiction
      · contradiction
      · next hhere =>
          rw [h here hhere]
          dsimp only
          split at hwalk
          · contradiction
          · next henter =>
              rw [← haccess, if_neg henter]
              split at hwalk
              · contradiction
              · next hlength =>
                  rw [if_neg hlength]
                  exact ih hwalk

/-- The place where a path starts. -/
def start (files : FileTree) (path : Path) : List String :=
  if path.isAbsolute then [] else files.workingDirectory

/-- A path leads somewhere if its text can be asked about and its names can be walked. -/
theorem locate_eq_ok_iff {path : Path} {there : List String} :
    files.locate path = .ok there ↔
      '\x00' ∉ path.text.toList ∧ path.text.utf8ByteSize ≤ maxPathBytes ∧
        files.walk (files.start path) path.parts = .ok there := by
  unfold locate start
  by_cases hnameable : '\x00' ∈ path.text.toList
  · simp [hnameable]
  · by_cases hlength : maxPathBytes < path.text.utf8ByteSize
    · simp [hnameable, hlength, Nat.not_le.2 hlength]
    · simp [hnameable, hlength, Nat.not_lt.1 hlength]

theorem find_eq_some_iff {path : Path} {names : List String} {entry : FileEntry} :
    files.find path = .ok (some (names, entry)) ↔
      files.locate path = .ok names ∧ files.entryAt? names = some entry := by
  unfold find
  cases files.locate path with
  | error fault => cases hfault : fault.hidesEntry <;> simp [hfault]
  | ok there =>
      simp only [Except.ok.injEq, Option.map_eq_some_iff, Prod.mk.injEq]
      constructor
      · rintro ⟨entry, hentry, rfl, rfl⟩
        exact ⟨rfl, hentry⟩
      · rintro ⟨rfl, hentry⟩
        exact ⟨entry, hentry, rfl, rfl⟩

/-! ## Looking through a directory -/

/-- Names that begin with those of a directory go on with what is left without them. -/
theorem append_drop_of_take {directory names : List String}
    (h : names.take directory.length = directory) :
    directory ++ names.drop directory.length = names :=
  (congrArg (· ++ names.drop directory.length) h.symm).trans (List.take_append_drop _ _)

/-- What is found in a directory are the names of entries below it, as far as they are reached. -/
theorem mem_found_iff {directory below : List String} {recursive isDirectory : Bool} :
    (below, isDirectory) ∈ files.found directory recursive ↔
      ∃ entry, (directory ++ below, entry) ∈ files.entries ∧ below ≠ [] ∧
        (recursive = true ∨ below.length = 1) ∧ files.reaches directory below = true ∧
        isDirectory = decide (entry = .directory) := by
  unfold found
  simp only [List.mem_filterMap, Option.ite_none_right_eq_some, Option.some.injEq, Prod.mk.injEq]
  constructor
  · rintro ⟨⟨names, entry⟩, hentry, ⟨htake, hbelow, hdepth, hreaches⟩, rfl, rfl⟩
    exact ⟨entry, by rwa [append_drop_of_take htake], hbelow, hdepth, hreaches, rfl⟩
  · rintro ⟨entry, hentry, hbelow, hdepth, hreaches, rfl⟩
    refine ⟨_, hentry, ?_⟩
    simp only [List.take_left, List.drop_left, true_and]
    exact ⟨⟨hbelow, hdepth, hreaches⟩, trivial⟩

/-- In a proper tree nothing is found twice. -/
theorem IsProper.nodup_found (hfiles : files.IsProper) (directory : List String)
    (recursive : Bool) : ((files.found directory recursive).map (·.1)).Nodup := by
  refine List.pairwise_map.2 (List.pairwise_filterMap.2 ?_)
  refine (List.pairwise_map.1 hfiles.nodup).imp ?_
  rintro ⟨names, entry⟩ ⟨others, other⟩ hne first hfirst second hsecond hsame
  simp only [Option.ite_none_right_eq_some, Option.some.injEq] at hfirst hsecond
  obtain ⟨⟨htake, -⟩, rfl⟩ := hfirst
  obtain ⟨⟨htakeOther, -⟩, rfl⟩ := hsecond
  refine hne ?_
  calc names
    _ = directory ++ names.drop directory.length := (append_drop_of_take htake).symm
    _ = directory ++ others.drop directory.length := congrArg _ hsame
    _ = others := append_drop_of_take htakeOther

/-- In a proper tree what is found in a directory stands, if that can be told, for what lies
there. -/
theorem IsProper.find_append (hfiles : files.IsProper) {path : Path}
    {directory below there : List String} {recursive isDirectory : Bool} {entry : FileEntry}
    (hdirectory : files.locate path = .ok directory)
    (hfound : (below, isDirectory) ∈ files.found directory recursive)
    (h : files.find (path.append below) = .ok (some (there, entry))) :
    there = directory ++ below := by
  obtain ⟨found, hentry, -⟩ := mem_found_iff.1 hfound
  have hnames : ∀ name ∈ below, name ≠ ".." := fun name hname =>
    (hfiles.named _ hentry name (List.mem_append_right _ hname)).2
  have hwalk := files.walk_append (files.start path) path.parts below
  rw [(locate_eq_ok_iff.1 hdirectory).2.2] at hwalk
  have hthere : files.walk directory below = .ok there :=
    hwalk.symm.trans (locate_eq_ok_iff.1 (find_eq_some_iff.1 h).1).2.2
  rcases hfiles.walk_below (hfiles.entryAt?_of_mem hentry) hnames with hbelow | ⟨fault, hbelow, -⟩
  · exact Except.ok.inj (hthere.symm.trans hbelow)
  · rw [hbelow] at hthere
    contradiction

/-! ## Other bytes in a file -/

variable {names : List String} {old bytes : List UInt8}

theorem ne_nil_of_entryAt? (h : files.entryAt? names ≠ some .directory) : names ≠ [] := by
  rintro rfl
  exact h rfl

/-- Other bytes in a file change nothing on the way to any place. -/
theorem locate_set (h : files.entryAt? names = some (.file old)) (path : Path) :
    (files.set names (.file bytes)).locate path = files.locate path := by
  have hwalk := @walk_congr (files.set names (.file bytes)) files rfl fun other => by
    rw [entryAt?_set files other _ (ne_nil_of_entryAt? (by rw [h]; simp))]
    split
    · next hother => simp [hother, h]
    · rfl
  unfold locate
  simp only [hwalk]
  rfl

/-- Other bytes in a file are not read anywhere else. -/
theorem read_set (h : files.entryAt? names = some (.file old)) {path : Path}
    (hother : files.locate path ≠ .ok names) :
    (files.set names (.file bytes)).read path = files.read path := by
  unfold read
  rw [locate_set h]
  cases hlocate : files.locate path with
  | error fault => rfl
  | ok there =>
      have hthere : there ≠ names := by
        rintro rfl
        exact hother hlocate
      dsimp only
      rw [entryAt?_set files there _ (ne_nil_of_entryAt? (by rw [h]; simp)), if_neg hthere]
      rfl

/-- A path stands for what it stood for, or for the file with other bytes. -/
theorem find_set_cases (h : files.entryAt? names = some (.file old)) (path : Path) :
    (files.set names (.file bytes)).find path = files.find path ∨
      files.find path = .ok (some (names, .file old)) ∧
        (files.set names (.file bytes)).find path = .ok (some (names, .file bytes)) := by
  have hnames : names ≠ [] := ne_nil_of_entryAt? (by rw [h]; simp)
  unfold find
  rw [locate_set h]
  cases files.locate path with
  | error fault => exact .inl rfl
  | ok there =>
      dsimp only
      rw [entryAt?_set files there _ hnames]
      by_cases hthere : there = names
      · rw [if_pos hthere, hthere, h]
        exact .inr ⟨rfl, rfl⟩
      · rw [if_neg hthere]
        exact .inl rfl

/-- Entries that are looked through one by one may have another value that looks the same. -/
theorem filterMap_set {α : Type} {entries : List (List String × FileEntry)}
    {entry other : FileEntry} (h : entries.lookup names = some entry)
    (look : List String × FileEntry → Option α)
    (hlook : look (names, other) = look (names, entry)) :
    (Entries.set names other entries).filterMap look = entries.filterMap look := by
  induction entries with
  | nil => simp at h
  | cons first rest ih =>
      obtain ⟨key, value⟩ := first
      rw [Entries.lookup_cons] at h
      rw [Entries.set]
      by_cases hkey : key = names
      · rw [if_pos hkey.symm] at h
        rw [if_pos hkey, List.filterMap_cons, List.filterMap_cons, hkey, hlook, Option.some.inj h]
      · rw [if_neg (Ne.symm hkey)] at h
        rw [if_neg hkey, List.filterMap_cons, List.filterMap_cons, ih h]

/-- Other bytes in a file leave what is found in a directory as it is. -/
theorem found_set (h : files.entryAt? names = some (.file old)) (directory : List String)
    (recursive : Bool) :
    (files.set names (.file bytes)).found directory recursive =
      files.found directory recursive := by
  have hreaches : ∀ here below,
      (files.set names (.file bytes)).reaches here below = files.reaches here below := by
    intro here below
    induction below generalizing here with
    | nil => rfl
    | cons name rest ih =>
        rw [reaches, ih]
        rfl
  rw [entryAt?_of_ne_nil (ne_nil_of_entryAt? (by rw [h]; simp))] at h
  unfold found
  simp only [hreaches]
  exact filterMap_set h _ (by simp)

/-! ## Writing -/

/-- A file can be written where its path leads to no directory and the user may write. -/
def CanWrite (files : FileTree) (path : Path) : Prop :=
  ∃ names, files.locate path = .ok names ∧ files.entryAt? names ≠ some .directory ∧
    files.mayWrite names = true

theorem write_eq_ok_iff {path : Path} {content : List UInt8} :
    (∃ after, files.write path content = .ok after) ↔ files.CanWrite path := by
  unfold write CanWrite
  cases hlocate : files.locate path with
  | error fault => simp
  | ok there =>
      by_cases hthere : files.entryAt? there = some .directory
      · simp [hthere]
      · cases hwrite : files.mayWrite there <;> simp [hthere, hwrite]

/-- Whether files are those before, but for a path that leads to the given bytes. -/
structure IsWritten (before after : FileTree) (path : Path) (content : List UInt8) : Prop where
  entries : ∃ names, after.locate path = .ok names ∧ ∀ other, after.entryAt? other =
    if other = names then some (.file content) else before.entryAt? other
  workingDirectory : after.workingDirectory = before.workingDirectory
  access : after.access = before.access

theorem isWritten_of_write {path : Path} {content : List UInt8} {after : FileTree}
    (h : files.write path content = .ok after) : files.IsWritten after path content := by
  unfold write at h
  cases hlocate : files.locate path with
  | error fault => simp [hlocate] at h
  | ok there =>
      simp only [hlocate] at h
      split at h
      · contradiction
      · next hthere =>
          split at h
          · contradiction
          · obtain rfl := Except.ok.inj h
            have hnames := ne_nil_of_entryAt? hthere
            have hafter : (files.set there (.file content)).locate path = .ok there := by
              obtain ⟨hnameable, hlength, hwalk⟩ := locate_eq_ok_iff.1 hlocate
              refine locate_eq_ok_iff.2 ⟨hnameable, hlength,
                @walk_mono files (files.set there _) rfl (fun other hother => ?_) _ _ _ hwalk⟩
              rw [entryAt?_set files other _ hnames, if_neg, hother]
              rintro rfl
              exact hthere hother
            exact ⟨⟨there, hafter, fun other => entryAt?_set files other _ hnames⟩, rfl, rfl⟩

end FileTree

end XmlToJson

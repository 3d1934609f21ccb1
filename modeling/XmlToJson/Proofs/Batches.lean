import XmlToJson.CommandLine.Batch
import XmlToJson.Proofs.Effects
import XmlToJson.Proofs.Layers
import XmlToJson.Proofs.Paths
import Mathlib.Data.List.Forall2

/-!
# Files of a batch

Every file of a batch is converted as if it were alone.  `Apart` collects what that means for a
proper tree of files and a known encoding: which documents are found and in which order, when they
all are, when the batch comes to an end, that each record is the one that the document makes as the
only one, and that other bytes in one file change the reports on this file and no others.

## Strategy

A batch looks for documents and converts them in turns.  `collect_eq_ok_iff_of_stages` takes the
turns apart: what comes of a list in which each item is first resolved and then converted is what
comes of resolving all items first.  With it a batch is the list of its documents (`documentsOf`),
each with the record that it makes (`convertAll_eq_ok_iff`).

* **Looking for documents.**  A path can be looked through if it can be told what it and everything
  in it stand for, and if no directory below it is too far away for the machine or has too long a
  path (`CanSearch`); nothing else is in the way (`exists_documentsAt_iff`).  What may not be looked
  into is passed over, so the documents of a directory are the ones that can be reached
  (`IsDocumentBelow`), sorted and without repetition (`exists_below_of_documentsAt`).
* **Converting them.**  `readText_cases` says how reading a file can fail under a known encoding.
  From it and from what a conversion can fail with, a document makes a record unless it `Aborts` the
  batch: no file can have its path, the codec of the machine fails on more than single bytes, or a
  whole number in it has too many digits (`exists_convertOne_iff`).
* **Other bytes.**  Looking for documents does not look into files (`documentsOf_set`), and a file
  is read through its own path only (`convertOne_set`).
-/

namespace XmlToJson.CommandLine

/-! ## Lists of results -/

section Results

variable {α β ε : Type} {f : α → Except ε β} {items : List α}

theorem mapM_cons_eq_ok_iff {item : α} {results : List β} :
    (item :: items).mapM f = .ok results ↔
      ∃ result others, f item = .ok result ∧ items.mapM f = .ok others ∧
        results = result :: others := by
  rw [List.mapM_cons]
  cases f item with
  | error problem => simp [bind, Except.bind]
  | ok result => cases items.mapM f <;> simp [bind, Except.bind, pure, Except.pure, eq_comm]

/-- A list has results if every item has one, and these are the results. -/
theorem mapM_eq_ok_iff {results : List β} :
    items.mapM f = .ok results ↔
      List.Forall₂ (fun item result => f item = .ok result) items results := by
  induction items generalizing results with
  | nil => simp [pure, Except.pure, eq_comm]
  | cons item rest ih => simp only [mapM_cons_eq_ok_iff, List.forall₂_cons_left_iff, ih]

theorem exists_mapM_eq_ok_iff :
    (∃ results, items.mapM f = .ok results) ↔ ∀ item ∈ items, ∃ result, f item = .ok result := by
  induction items with
  | nil => simp [pure, Except.pure]
  | cons item rest ih =>
      simp only [mapM_cons_eq_ok_iff, List.forall_mem_cons, ← ih]
      constructor
      · rintro ⟨-, result, others, hitem, hrest, rfl⟩
        exact ⟨⟨result, hitem⟩, others, hrest⟩
      · rintro ⟨⟨result, hitem⟩, others, hrest⟩
        exact ⟨_, result, others, hitem, hrest, rfl⟩

theorem exists_result_of_mem {related : α → β → Prop} {results : List β}
    (h : List.Forall₂ related items results) {item : α} (hmem : item ∈ items) :
    ∃ result ∈ results, related item result := by
  induction h with
  | nil => simp at hmem
  | cons hitem _ ih =>
      rcases List.mem_cons.1 hmem with rfl | hrest
      · exact ⟨_, List.mem_cons_self, hitem⟩
      · obtain ⟨result, hresult, hrelated⟩ := ih hrest
        exact ⟨result, List.mem_cons_of_mem _ hresult, hrelated⟩

theorem mapM_singleton (f : α → Except ε β) (item : α) :
    [item].mapM f = do return [← f item] := by
  rw [List.mapM_cons]
  cases f item <;> rfl

theorem mapM_append_eq_ok_iff {others : List α} {results : List β} :
    (items ++ others).mapM f = .ok results ↔
      ∃ first second, items.mapM f = .ok first ∧ others.mapM f = .ok second ∧
        results = first ++ second := by
  rw [List.mapM_append]
  simp only [bind_eq_ok_iff]
  exact exists_congr fun first => by simp [pure, Except.pure, eq_comm]

/-- Two lists that belong to the same items belong to each other. -/
theorem forall₂_of_common {γ : Type} {first : α → β → Prop} {second : α → γ → Prop}
    {results : List β} {others : List γ} (h : List.Forall₂ first items results)
    (hother : List.Forall₂ second items others) :
    List.Forall₂ (fun result other => ∃ item, first item result ∧ second item other)
      results others := by
  induction h generalizing others with
  | nil =>
      cases hother
      exact .nil
  | cons hitem _ ih =>
      obtain _ | ⟨hsecond, hrest⟩ := hother
      exact .cons ⟨_, hitem, hsecond⟩ (ih hrest)

end Results

/-! ## What comes of a list in two stages -/

section Stages

variable {α β γ : Type} {find : α → Except Abort (List β)} {step : α → Except Abort (List γ)}
  {convert : β → Except Abort γ} {items : List α}

theorem collect_eq_ok_iff {results : List β} :
    collect find items = .ok results ↔
      ∃ found, List.Forall₂ (fun item own => find item = .ok own) items found ∧
        results = found.flatten := by
  unfold collect
  simp only [← mapM_eq_ok_iff]
  cases items.mapM find <;> simp [Except.map, eq_comm]

theorem exists_collect_iff :
    (∃ results, collect find items = .ok results) ↔
      ∀ item ∈ items, ∃ results, find item = .ok results := by
  rw [← exists_mapM_eq_ok_iff]
  unfold collect
  cases items.mapM find <;> simp [Except.map]

theorem exists_mem_of_collect {results : List β} (h : collect find items = .ok results) {result : β}
    (hmem : result ∈ results) : ∃ item ∈ items, ∃ own, find item = .ok own ∧ result ∈ own := by
  obtain ⟨found, hfound, rfl⟩ := collect_eq_ok_iff.1 h
  obtain ⟨own, hown, hresult⟩ := List.mem_flatten.1 hmem
  obtain ⟨item, hitem, hfind⟩ := exists_result_of_mem hfound.flip hown
  exact ⟨item, hitem, own, hfind, hresult⟩

/-- Items that are found and then converted one by one might as well all be found first. -/
theorem collect_eq_ok_iff_of_stages
    (hstep : ∀ item results, step item = .ok results ↔
      ∃ own, find item = .ok own ∧ own.mapM convert = .ok results) {results : List γ} :
    collect step items = .ok results ↔
      ∃ found, collect find items = .ok found ∧ found.mapM convert = .ok results := by
  induction items generalizing results with
  | nil => simp [collect, Except.map, pure, Except.pure]
  | cons item rest ih =>
      have hcons : ∀ {δ : Type} {f : α → Except Abort (List δ)} {all : List δ},
          collect f (item :: rest) = .ok all ↔ ∃ own others, f item = .ok own ∧
            collect f rest = .ok others ∧ all = own ++ others := by
        intro δ f all
        unfold collect
        rw [List.mapM_cons]
        cases f item with
        | error reason => simp [bind, Except.bind, Except.map]
        | ok own =>
            cases rest.mapM f <;>
              simp [bind, Except.bind, Except.map, pure, Except.pure, eq_comm]
      rw [hcons]
      constructor
      · rintro ⟨own, others, hown, hothers, rfl⟩
        obtain ⟨found, hfound, hconverted⟩ := (hstep _ _).1 hown
        obtain ⟨more, hmore, hrest⟩ := ih.1 hothers
        exact ⟨found ++ more, hcons.2 ⟨found, more, hfound, hmore, rfl⟩,
          mapM_append_eq_ok_iff.2 ⟨own, others, hconverted, hrest, rfl⟩⟩
      · rintro ⟨all, hall, hconverted⟩
        obtain ⟨found, more, hfound, hmore, rfl⟩ := hcons.1 hall
        obtain ⟨own, others, hown, hothers, rfl⟩ := mapM_append_eq_ok_iff.1 hconverted
        exact ⟨own, others, (hstep _ _).2 ⟨found, hfound, hown⟩, ih.2 ⟨more, hmore, hothers⟩, rfl⟩

end Stages

/-! ## The documents of a batch -/

/-- What was found in a directory, if it is a document. -/
def documentsFrom (files : FileTree) (candidate : Path) : Except Abort (List Path) :=
  (isDocument files candidate).map fun isDocument => if isDocument then [candidate] else []

/-- The documents that a path stands for. -/
def documentsAt (host : Host) (files : FileTree) (recursive : Bool) (path : Path) :
    Except Abort (List Path) := do
  match ← (files.find path).mapError .badPath with
  | some (directory, .directory) =>
      let candidates ← candidatesIn host files recursive path directory
      collect (documentsFrom files) candidates
  | _ => return [path]

/-- The documents that paths stand for, in the order in which they are found. -/
def documentsOf (host : Host) (files : FileTree) (recursive : Bool) (paths : List Path) :
    Except Abort (List Path) :=
  collect (documentsAt host files recursive) paths

variable {host : Host} {converter : Converter} {encoding : Value} {files : FileTree}
  {recursive : Bool} {paths : List Path} {path document : Path}

theorem convertCandidate_eq_ok_iff {candidate : Path} {records : List (Logged FileReport)} :
    convertCandidate converter encoding files candidate = .ok records ↔
      ∃ own, documentsFrom files candidate = .ok own ∧
        own.mapM (convertOne converter encoding files) = .ok records := by
  unfold convertCandidate documentsFrom
  cases isDocument files candidate with
  | error reason => simp [bind, Except.bind, Except.map]
  | ok isDocument =>
      rw [Except.map]
      simp only [Except.ok.injEq, exists_eq_left']
      cases isDocument
      · rfl
      · exact Eq.to_iff (congrArg (· = _) (mapM_singleton _ _).symm)

theorem documentsAt_of_directory {directory : List String}
    (h : files.find path = .ok (some (directory, .directory))) :
    documentsAt host files recursive path =
      candidatesIn host files recursive path directory >>= collect (documentsFrom files) := by
  unfold documentsAt
  rw [h]
  rfl

/-- A path of no directory stands for itself. -/
theorem documentsAt_of_other {found : Option (List String × FileEntry)}
    (h : files.find path = .ok found)
    (hother : ∀ directory, found ≠ some (directory, .directory)) :
    documentsAt host files recursive path = .ok [path] := by
  unfold documentsAt
  rw [h]
  match found with
  | none | some (_, .file _) => rfl
  | some (directory, .directory) => exact absurd rfl (hother directory)

/-- A path of no directory is converted itself. -/
theorem convertPath_of_other {found : Option (List String × FileEntry)}
    (h : files.find path = .ok found)
    (hother : ∀ directory, found ≠ some (directory, .directory)) :
    convertPath converter encoding files recursive path =
      [path].mapM (convertOne converter encoding files) := by
  rw [mapM_singleton]
  unfold convertPath
  rw [h]
  match found with
  | none | some (_, .file _) => rfl
  | some (directory, .directory) => exact absurd rfl (hother directory)

/-- The documents of a path are converted while they are looked for, but this makes no difference to
what comes of them. -/
theorem convertPath_eq_ok_iff {records : List (Logged FileReport)} :
    convertPath converter encoding files recursive path = .ok records ↔
      ∃ own, documentsAt converter.host files recursive path = .ok own ∧
        own.mapM (convertOne converter encoding files) = .ok records := by
  cases hfind : files.find path with
  | error error => simp [convertPath, documentsAt, hfind, Except.mapError, bind, Except.bind]
  | ok found =>
      by_cases hdirectory : ∃ directory, found = some (directory, .directory)
      · obtain ⟨directory, rfl⟩ := hdirectory
        have hconvert : convertPath converter encoding files recursive path =
            candidatesIn converter.host files recursive path directory >>=
              collect (convertCandidate converter encoding files) := by
          unfold convertPath
          rw [hfind]
          rfl
        simp only [hconvert, documentsAt_of_directory hfind, bind_eq_ok_iff,
          collect_eq_ok_iff_of_stages fun _ _ => convertCandidate_eq_ok_iff]
        constructor
        · rintro ⟨candidates, hcandidates, own, hown, hrecords⟩
          exact ⟨own, ⟨candidates, hcandidates, hown⟩, hrecords⟩
        · rintro ⟨own, ⟨candidates, hcandidates, hown⟩, hrecords⟩
          exact ⟨candidates, hcandidates, own, hown, hrecords⟩
      · rw [convertPath_of_other hfind (not_exists.1 hdirectory),
          documentsAt_of_other hfind (not_exists.1 hdirectory)]
        simp

/-- The documents of a batch that comes to an end, and their records. -/
theorem convertAll_eq_ok_iff {batch : Logged (List FileReport)} :
    convertAll converter encoding files recursive paths = .ok batch ↔
      ∃ documents records, documentsOf converter.host files recursive paths = .ok documents ∧
        List.Forall₂ (fun document record =>
          convertOne converter encoding files document = .ok record) documents records ∧
        batch = gather records := by
  have hstages := @collect_eq_ok_iff_of_stages _ _ _ _ _ _ paths
    fun path records => @convertPath_eq_ok_iff converter encoding files recursive path records
  simp only [← mapM_eq_ok_iff]
  constructor
  · intro h
    obtain ⟨records, hrecords, rfl⟩ := exists_of_map_ok h
    obtain ⟨documents, hdocuments, hconverted⟩ := hstages.1 hrecords
    exact ⟨documents, records, hdocuments, hconverted, rfl⟩
  · rintro ⟨documents, records, hdocuments, hconverted, rfl⟩
    rw [convertAll, hstages.2 ⟨documents, hdocuments, hconverted⟩]
    rfl

/-- A batch comes to an end if the documents are found and every one of them makes a record. -/
theorem exists_convertAll_iff :
    (∃ batch, convertAll converter encoding files recursive paths = .ok batch) ↔
      ∃ documents, documentsOf converter.host files recursive paths = .ok documents ∧
        ∀ document ∈ documents, ∃ record,
          convertOne converter encoding files document = .ok record := by
  constructor
  · rintro ⟨batch, h⟩
    obtain ⟨documents, records, hdocuments, hrecords, -⟩ := convertAll_eq_ok_iff.1 h
    exact ⟨documents, hdocuments, exists_mapM_eq_ok_iff.1 ⟨records, mapM_eq_ok_iff.2 hrecords⟩⟩
  · rintro ⟨documents, hdocuments, h⟩
    obtain ⟨records, hrecords⟩ := exists_mapM_eq_ok_iff.2 h
    exact ⟨_, convertAll_eq_ok_iff.2
      ⟨documents, records, hdocuments, mapM_eq_ok_iff.1 hrecords, rfl⟩⟩

/-! ## Looking for documents -/

theorem exists_documentsFrom_iff {candidate : Path} :
    (∃ own, documentsFrom files candidate = .ok own) ↔
      ∃ found, files.find candidate = .ok found := by
  unfold documentsFrom isDocument
  cases files.find candidate with
  | error error => simp [Except.map, Except.mapError, bind, Except.bind]
  | ok found =>
      refine iff_of_true ?_ ⟨found, rfl⟩
      match found with
      | none | some (_, .directory) | some (_, .file _) => exact ⟨_, rfl⟩

theorem searchFault?_eq_none_iff {found : List (List String × Bool)} :
    searchFault? host path found = none ↔ ∀ below, (below, true) ∈ found →
      below.length ≤ host.directoryLevels ∧
        (path.append below).text.utf8ByteSize ≤ FileTree.maxPathBytes := by
  unfold searchFault?
  rw [List.findSome?_eq_none_iff]
  constructor
  · intro h below hbelow
    have hnone := h (below, true) hbelow
    dsimp only at hnone
    split at hnone
    · contradiction
    · split at hnone
      · simp at hnone
      · split at hnone
        · simp at hnone
        · next hlevels hlength => exact ⟨Nat.not_lt.1 hlevels, Nat.not_lt.1 hlength⟩
  · rintro h ⟨below, isDirectory⟩ hbelow
    cases isDirectory with
    | false => rfl
    | true =>
        obtain ⟨hlevels, hlength⟩ := h below hbelow
        simp [Nat.not_lt.2 hlevels, Nat.not_lt.2 hlength]

theorem mem_sortedFound {directory : List String} {entry : List String × Bool} :
    entry ∈ sortedFound files directory recursive ↔ entry ∈ files.found directory recursive :=
  List.mem_mergeSort

/-- What is found in a directory is in the order of the names, from the first one on. -/
theorem sortedFound_order {first second : List String × Bool} :
    (!second.1.lex first.1 fun name other => name < other) = true ↔ ¬ second.1 < first.1 := by
  rw [Bool.not_eq_true', ← Bool.not_eq_true, List.lex_eq_true_iff_lt]

/-- What is found in a directory of a proper tree is in the order of the names, without anything
found twice. -/
theorem pairwise_sortedFound (hfiles : files.IsProper) (directory : List String) :
    ((sortedFound files directory recursive).map (·.1)).Pairwise (· < ·) := by
  have hsorted := @List.pairwise_mergeSort (List String × Bool)
    (fun first second => !second.1.lex first.1 fun name other => name < other)
    (fun first second third hfirst hsecond => by
      rw [sortedFound_order] at hfirst hsecond ⊢
      exact List.not_lt.2 (List.le_trans (List.not_lt.1 hfirst) (List.not_lt.1 hsecond)))
    (fun first second => by
      rw [Bool.or_eq_true, sortedFound_order, sortedFound_order]
      exact (List.le_total first.1 second.1).imp List.not_lt.2 List.not_lt.2)
    (files.found directory recursive)
  have hnodup : ((sortedFound files directory recursive).map (·.1)).Nodup :=
    ((List.mergeSort_perm _ _).map _).nodup_iff.2 (hfiles.nodup_found directory recursive)
  rw [List.pairwise_map]
  refine hsorted.imp₂ (fun first second hle hne => ?_) (List.pairwise_map.1 hnodup)
  by_contra hnot
  exact hne (List.le_antisymm (List.not_lt.1 (sortedFound_order.1 hle)) (List.not_lt.1 hnot))

/-- A directory is looked through unless one that is found in it is too far below or has a path that
is too long. -/
theorem candidatesIn_eq_ok_iff {directory : List String} {candidates : List Path} :
    candidatesIn host files recursive path directory = .ok candidates ↔
      (recursive = true → ∀ below, (below, true) ∈ files.found directory recursive →
        below.length ≤ host.directoryLevels ∧
          (path.append below).text.utf8ByteSize ≤ FileTree.maxPathBytes) ∧
      (sortedFound files directory recursive).map (fun entry => path.append entry.1) =
        candidates := by
  cases recursive with
  | false => simp [candidatesIn]
  | true =>
      have hnone := @searchFault?_eq_none_iff host path (sortedFound files directory true)
      simp only [mem_sortedFound] at hnone
      simp only [candidatesIn, if_true, forall_const, ← hnone]
      cases searchFault? host path (sortedFound files directory true) <;> simp

/-- Whether all documents that a path stands for can be found. -/
structure CanSearch (host : Host) (files : FileTree) (recursive : Bool) (path : Path) : Prop where
  /-- It can be told what the path stands for. -/
  itself : ∃ found, files.find path = .ok found
  /-- If it stands for a directory, it can be told what everything in it is. -/
  inside : ∀ directory, files.find path = .ok (some (directory, .directory)) →
    ∀ entry ∈ files.found directory recursive, ∃ found, files.find (path.append entry.1) = .ok found
  /-- No directory below is too far away or has a path that is too long to be looked into. -/
  passable : ∀ directory, files.find path = .ok (some (directory, .directory)) →
    recursive = true → ∀ below, (below, true) ∈ files.found directory recursive →
      below.length ≤ host.directoryLevels ∧
        (path.append below).text.utf8ByteSize ≤ FileTree.maxPathBytes

/-- The documents of a path are found if they can be. -/
theorem exists_documentsAt_iff : (∃ documents, documentsAt host files recursive path =
    .ok documents) ↔ CanSearch host files recursive path := by
  cases hfind : files.find path with
  | error error =>
      refine iff_of_false ?_ fun h => ?_
      · unfold documentsAt
        simp [hfind, Except.mapError, bind, Except.bind]
      · obtain ⟨found, hfound⟩ := h.itself
        simp [hfind] at hfound
  | ok found =>
      by_cases hdirectory : ∃ directory, found = some (directory, .directory)
      · obtain ⟨directory, rfl⟩ := hdirectory
        have hinside : ∀ {P : List String → Prop}, (∀ other, files.find path =
            .ok (some (other, .directory)) → P other) ↔ P directory := by
          intro P
          simp [hfind]
        simp only [documentsAt_of_directory hfind, bind_eq_ok_iff, candidatesIn_eq_ok_iff]
        constructor
        · rintro ⟨documents, candidates, ⟨hpassable, rfl⟩, hdocuments⟩
          refine ⟨⟨_, hfind⟩, hinside.2 fun entry hentry => ?_, hinside.2 hpassable⟩
          refine exists_documentsFrom_iff.1 (exists_collect_iff.1 ⟨documents, hdocuments⟩ _ ?_)
          exact List.mem_map_of_mem (mem_sortedFound.2 hentry)
        · intro h
          have hall : ∀ candidate ∈ (sortedFound files directory recursive).map
              (fun entry => path.append entry.1),
              ∃ own, documentsFrom files candidate = .ok own := by
            intro candidate hcandidate
            obtain ⟨entry, hentry, rfl⟩ := List.mem_map.1 hcandidate
            exact exists_documentsFrom_iff.2 (hinside.1 h.inside entry (mem_sortedFound.1 hentry))
          obtain ⟨documents, hdocuments⟩ := exists_collect_iff.2 hall
          exact ⟨documents, _, ⟨hinside.1 h.passable, rfl⟩, hdocuments⟩
      · simp only [not_exists] at hdirectory
        refine iff_of_true ⟨_, documentsAt_of_other hfind hdirectory⟩ ⟨⟨_, hfind⟩, ?_, ?_⟩ <;>
          intro directory h <;> exact absurd (Except.ok.inj (hfind.symm.trans h)) (hdirectory _)

/-- Whether names lead from a directory with a path to a document that looking through the directory
comes to. -/
structure IsDocumentBelow (files : FileTree) (recursive : Bool) (path : Path)
    (directory below : List String) : Prop where
  /-- Only what is recursive looks further below than into the directory itself. -/
  depth : below ≠ [] ∧ (recursive = true ∨ below.length = 1)
  /-- Every directory on the way may be looked into. -/
  reached : files.reaches directory below = true
  file : ∃ content, files.find (path.append below) = .ok (some (directory ++ below, .file content))
  named : isDocumentName (below.getLastD "") = true

theorem isDocument_eq_true_iff {candidate : Path} :
    isDocument files candidate = .ok true ↔
      (∃ names content, files.find candidate = .ok (some (names, .file content))) ∧
        isDocumentName (candidate.parts.getLastD "") = true := by
  unfold isDocument
  cases files.find candidate with
  | error error => simp [Except.mapError, bind, Except.bind]
  | ok found =>
      match found with
      | none | some (_, .directory) => simp [Except.mapError, bind, Except.bind, pure, Except.pure]
      | some (names, .file content) =>
          simp [Except.mapError, bind, Except.bind, pure, Except.pure]

/-- Names below a directory are found and are those of a document if they lead to one. -/
theorem isDocumentBelow_iff (hfiles : files.IsProper) {directory below : List String}
    (hfind : files.find path = .ok (some (directory, .directory))) :
    ((∃ isDirectory, (below, isDirectory) ∈ files.found directory recursive) ∧
        isDocument files (path.append below) = .ok true) ↔
      IsDocumentBelow files recursive path directory below := by
  have hdirectory := (FileTree.find_eq_some_iff.1 hfind).1
  have hlast : below ≠ [] → (path.append below).parts.getLastD "" = below.getLastD "" := by
    intro hbelow
    obtain ⟨before, name, rfl⟩ := (List.eq_nil_or_concat' below).resolve_left hbelow
    show (path.parts ++ (before ++ [name])).getLastD "" = _
    rw [← List.append_assoc, List.getLastD_concat, List.getLastD_concat]
  rw [isDocument_eq_true_iff]
  constructor
  · rintro ⟨⟨isDirectory, hfound⟩, ⟨names, content, hfile⟩, hnamed⟩
    obtain rfl := hfiles.find_append hdirectory hfound hfile
    obtain ⟨entry, -, hbelow, hdepth, hreaches, -⟩ := FileTree.mem_found_iff.1 hfound
    exact ⟨⟨hbelow, hdepth⟩, hreaches, ⟨content, hfile⟩, hlast hbelow ▸ hnamed⟩
  · rintro ⟨⟨hbelow, hdepth⟩, hreaches, ⟨content, hfile⟩, hnamed⟩
    have hentry := (FileTree.find_eq_some_iff.1 hfile).2
    have hmem := FileTree.mem_of_entryAt? (List.append_ne_nil_of_right_ne_nil _ hbelow) hentry
    exact ⟨⟨_, FileTree.mem_found_iff.2 ⟨_, hmem, hbelow, hdepth, hreaches, rfl⟩⟩,
      ⟨_, content, hfile⟩, (hlast hbelow).symm ▸ hnamed⟩

/-- The documents among the paths that were found in a directory stay in their order. -/
theorem eq_filter_of_collect {candidates documents : List Path}
    (h : collect (documentsFrom files) candidates = .ok documents) :
    documents = candidates.filter fun candidate => isDocument files candidate = .ok true := by
  obtain ⟨found, hfound, rfl⟩ := collect_eq_ok_iff.1 h
  clear h
  induction hfound with
  | nil => rfl
  | cons hown _ ih =>
      obtain ⟨result, hresult, rfl⟩ := exists_of_map_ok hown
      cases result <;> simp [hresult, ih]

/-- The documents of a directory are those below it, in the order of their names and each of them
once. -/
theorem exists_below_of_documentsAt (hfiles : files.IsProper) {directory : List String}
    (hfind : files.find path = .ok (some (directory, .directory))) {documents : List Path}
    (h : documentsAt host files recursive path = .ok documents) :
    ∃ found : List (List String), documents = found.map path.append ∧ found.Pairwise (· < ·) ∧
      ∀ below, below ∈ found ↔ IsDocumentBelow files recursive path directory below := by
  rw [documentsAt_of_directory hfind] at h
  obtain ⟨candidates, hcandidates, hdocuments⟩ := bind_eq_ok_iff.1 h
  obtain ⟨-, rfl⟩ := candidatesIn_eq_ok_iff.1 hcandidates
  refine ⟨((sortedFound files directory recursive).map (·.1)).filter fun below =>
    isDocument files (path.append below) = .ok true, ?_, ?_, fun below => ?_⟩
  · rw [eq_filter_of_collect hdocuments, List.filter_map, List.filter_map, List.map_map]
    rfl
  · exact (pairwise_sortedFound hfiles directory).filter _
  · rw [← isDocumentBelow_iff hfiles hfind, List.mem_filter]
    simp [mem_sortedFound]

/-- A document that is found is the path itself, or a file in the directory of the path whose name
is that of a document. -/
theorem documentsAt_cases {documents : List Path}
    (h : documentsAt host files recursive path = .ok documents) (hmem : document ∈ documents) :
    document = path ∧ documents = [path] ∨
      ∃ directory, files.find path = .ok (some (directory, .directory)) ∧
        ∃ entry ∈ files.found directory recursive, document = path.append entry.1 ∧
          isDocument files document = .ok true := by
  obtain ⟨found, hfind⟩ := (exists_documentsAt_iff.1 ⟨documents, h⟩).itself
  by_cases hdirectory : ∃ directory, found = some (directory, .directory)
  · obtain ⟨directory, rfl⟩ := hdirectory
    rw [documentsAt_of_directory hfind] at h
    obtain ⟨candidates, hcandidates, hdocuments⟩ := bind_eq_ok_iff.1 h
    obtain ⟨-, rfl⟩ := candidatesIn_eq_ok_iff.1 hcandidates
    obtain ⟨candidate, hcandidate, own, hown, hdocument⟩ := exists_mem_of_collect hdocuments hmem
    obtain ⟨entry, hentry, rfl⟩ := List.mem_map.1 hcandidate
    obtain ⟨result, hresult, rfl⟩ := exists_of_map_ok hown
    cases result with
    | false => simp at hdocument
    | true =>
        obtain rfl := List.mem_singleton.1 hdocument
        exact .inr ⟨directory, hfind, entry, mem_sortedFound.1 hentry, rfl, hresult⟩
  · rw [documentsAt_of_other hfind (not_exists.1 hdirectory)] at h
    obtain rfl := Except.ok.inj h
    exact .inl ⟨List.mem_singleton.1 hmem, rfl⟩

/-- A document that is found stands for itself. -/
theorem documentsAt_of_mem {documents : List Path}
    (h : documentsAt host files recursive path = .ok documents) (hmem : document ∈ documents) :
    documentsAt host files recursive document = .ok [document] := by
  obtain ⟨rfl, rfl⟩ | ⟨-, -, -, -, -, hdocument⟩ := documentsAt_cases h hmem
  · exact h
  · unfold isDocument at hdocument
    cases hfind : files.find document with
    | error error => simp [hfind, Except.mapError, bind, Except.bind] at hdocument
    | ok found =>
        refine documentsAt_of_other hfind ?_
        rintro directory rfl
        simp [hfind, Except.mapError, bind, Except.bind, pure, Except.pure] at hdocument

/-- The documents of proper paths have proper paths. -/
theorem isProper_of_documentsAt (hfiles : files.IsProper) (hpath : path.IsProper)
    {documents : List Path} (h : documentsAt host files recursive path = .ok documents) :
    ∀ document ∈ documents, document.IsProper := by
  intro document hmem
  obtain ⟨rfl, -⟩ | ⟨directory, -, entry, hentry, rfl, -⟩ := documentsAt_cases h hmem
  · exact hpath
  · obtain ⟨⟨names, there⟩, hthere, hnames⟩ := List.mem_filterMap.1 hentry
    simp only [Option.ite_none_right_eq_some, Option.some.injEq] at hnames
    obtain ⟨-, rfl⟩ := hnames
    exact hpath.append fun name hname =>
      (hfiles.named _ hthere name (List.mem_of_mem_drop hname)).1

/-! ## What ends a batch -/

/-- Whether a setting names an encoding or a codec of the machine. -/
def IsKnownEncoding (host : Host) (encoding : Value) : Prop :=
  ∃ name, FileTree.encodingName encoding = .ok name ∧
    ((Encoding.ofName? name).isSome = true ∨ (host.codec? name).isSome = true)

/-- Why a document ends the batch that it is in. -/
inductive Aborts (converter : Converter) (encoding : Value) (files : FileTree) (document : Path) :
    Prop
  /-- No file can have its path. -/
  | unnameable (h : files.locate document = .error .unnameable)
  /-- The codec of the encoding fails on its bytes, and not because of single ones. -/
  | unusable {message : String} (h : files.readText converter.host document encoding =
      .error (.codec (.unusable message)))
  /-- Its conversion meets a whole number with too many digits. -/
  | overflow {text : String} (htext : files.readText converter.host document encoding = .ok text)
      (h : (converter.convert text).outcome = .error .integerTooLong)

theorem unnameable_of_read {error : FileError} (h : files.read path = .error error)
    (herror : error.fault = .unnameable) : files.locate path = .error .unnameable := by
  unfold FileTree.read at h
  cases hlocate : files.locate path with
  | error fault =>
      simp only [hlocate] at h
      obtain rfl := Except.error.inj h
      exact congrArg _ herror
  | ok names =>
      simp only [hlocate] at h
      cases hentry : files.entryAt? names with
      | none =>
          simp only [hentry] at h
          obtain rfl := Except.error.inj h
          contradiction
      | some entry =>
          simp only [hentry] at h
          split at h
          · obtain rfl := Except.error.inj h
            contradiction
          · cases entry with
            | file content => contradiction
            | directory =>
                obtain rfl := Except.error.inj h
                contradiction

theorem read_of_unnameable (h : files.locate path = .error .unnameable) :
    files.read path = .error ⟨.unnameable, path⟩ := by
  unfold FileTree.read
  simp only [h]

/-- With a known encoding, a file that cannot be read as a text cannot be opened or has bytes that
the encoding or the codec cannot read. -/
theorem readText_cases (hencoding : IsKnownEncoding host encoding) (files : FileTree)
    (path : Path) :
    (∃ error, files.read path = .error error ∧
        files.readText host path encoding = .error (.inaccessible error)) ∨
      (∃ bytes, files.read path = .ok bytes) ∧
        ((∃ error, files.readText host path encoding = .error (.undecodable error)) ∨
          (∃ fault, files.readText host path encoding = .error (.codec fault)) ∨
          ∃ text, files.readText host path encoding = .ok text) := by
  obtain ⟨name, hname, hknown⟩ := hencoding
  unfold FileTree.readText FileTree.decode
  rw [hname]
  cases hread : files.read path with
  | error error => exact .inl ⟨error, rfl, rfl⟩
  | ok bytes =>
      refine .inr ⟨⟨bytes, rfl⟩, ?_⟩
      simp only [bind, Except.bind, Except.mapError]
      cases hcoding : Encoding.ofName? name with
      | some coding =>
          dsimp only
          cases coding.decode bytes with
          | error error => exact .inl ⟨error, rfl⟩
          | ok text => exact .inr (.inr ⟨_, rfl⟩)
      | none =>
          cases hcodec : host.codec? name with
          | none => simp [hcoding, hcodec] at hknown
          | some codec =>
              dsimp only
              cases codec bytes with
              | error fault => exact .inr (.inl ⟨fault, rfl⟩)
              | ok text => exact .inr (.inr ⟨_, rfl⟩)

/-- What comes of a document that can be read. -/
theorem convertOne_of_text {text : String}
    (h : files.readText converter.host document encoding = .ok text) :
    convertOne converter encoding files document =
      match (converter.convert text).outcome with
      | .ok found => .ok ⟨⟨document, .ok found.data⟩,
          converter.readingRecord document encoding :: (converter.convert text).log⟩
      | .error (.refused error) => .ok ⟨⟨document, .error error.message⟩,
          converter.readingRecord document encoding :: (converter.convert text).log ++
            [failureRecord document]⟩
      | .error .integerTooLong => .error .integerTooLong := by
  unfold convertOne Converter.convertFile
  simp only [h]
  cases (converter.convert text).outcome with
  | ok found => rfl
  | error failure => cases failure <;> rfl

/-- What comes of a document that cannot be read. -/
theorem convertOne_of_unreadable {fault : ReadingFault}
    (h : files.readText converter.host document encoding = .error fault) :
    convertOne converter encoding files document =
      (errorText (.unreadable fault)).map fun text => ⟨⟨document, .error text⟩,
        [converter.readingRecord document encoding, failureRecord document]⟩ := by
  unfold convertOne Converter.convertFile
  rw [h]
  rfl

/-- A document makes a record unless it aborts the batch. -/
theorem exists_convertOne_iff (hencoding : IsKnownEncoding converter.host encoding) :
    (∃ record, convertOne converter encoding files document = .ok record) ↔
      ¬ Aborts converter encoding files document := by
  rcases readText_cases hencoding files document with
    ⟨error, hread, htext⟩ | ⟨⟨bytes, hread⟩, hdecoded⟩
  · have haborts : Aborts converter encoding files document ↔ error.fault = .unnameable := by
      constructor
      · rintro (hlocate | hunusable | ⟨hother, -⟩)
        · obtain rfl := Except.error.inj (hread.symm.trans (read_of_unnameable hlocate))
          rfl
        · simp [htext] at hunusable
        · simp [htext] at hother
      · exact fun hfault => .unnameable (unnameable_of_read hread hfault)
    rw [haborts, convertOne_of_unreadable htext, errorText]
    by_cases hfault : error.fault = .unnameable <;> simp [hfault, Except.map]
  · -- A file that was opened has a path that leads to it, so only its bytes are left to abort.
    have hlocate : files.locate document ≠ .error .unnameable := fun h => by
      simp [read_of_unnameable h] at hread
    have haborts : Aborts converter encoding files document ↔
        (∃ message, files.readText converter.host document encoding =
          .error (.codec (.unusable message))) ∨
        ∃ text, files.readText converter.host document encoding = .ok text ∧
          (converter.convert text).outcome = .error .integerTooLong := by
      constructor
      · rintro (h | h | ⟨htext, h⟩)
        · exact absurd h hlocate
        · exact .inl ⟨_, h⟩
        · exact .inr ⟨_, htext, h⟩
      · rintro (⟨message, h⟩ | ⟨text, htext, h⟩)
        · exact .unusable h
        · exact .overflow htext h
    rw [haborts]
    rcases hdecoded with ⟨error, htext⟩ | ⟨fault, htext⟩ | ⟨text, htext⟩
    · rw [convertOne_of_unreadable htext]
      simp [htext, errorText, Except.map]
    · rw [convertOne_of_unreadable htext]
      cases fault <;> simp [htext, errorText, Except.map]
    · rw [convertOne_of_text htext]
      cases houtcome : (converter.convert text).outcome with
      | ok found => simp [htext, houtcome]
      | error failure => cases failure <;> simp [htext, houtcome]

/-- The record of a document tells its path. -/
theorem path_of_convertOne {record : Logged FileReport}
    (h : convertOne converter encoding files document = .ok record) :
    record.outcome.path = document := by
  unfold convertOne at h
  dsimp only at h
  split at h
  · obtain rfl := Except.ok.inj h
    rfl
  · obtain ⟨text, -, rfl⟩ := exists_of_map_ok h
    rfl

/-! ## Files apart from each other -/

/-- Whether every file of a batch is converted as if it were alone. -/
structure Apart (converter : Converter) (encoding : Value) (files : FileTree) (recursive : Bool)
    (paths : List Path) : Prop where
  /-- The documents of a directory are those below it, in the order of their names and each of them
  once. -/
  discovers : ∀ path directory documents, files.find path = .ok (some (directory, .directory)) →
    documentsAt converter.host files recursive path = .ok documents →
    ∃ found : List (List String), documents = found.map path.append ∧ found.Pairwise (· < ·) ∧
      ∀ below, below ∈ found ↔ IsDocumentBelow files recursive path directory below
  /-- The documents are found unless a path cannot be looked through. -/
  searches : (∃ documents, documentsOf converter.host files recursive paths = .ok documents) ↔
    ∀ path ∈ paths, CanSearch converter.host files recursive path
  /-- The batch comes to an end unless the documents are not found or one of them aborts it. -/
  finishes : (∃ batch, convertAll converter encoding files recursive paths = .ok batch) ↔
    ∃ documents, documentsOf converter.host files recursive paths = .ok documents ∧
      ∀ document ∈ documents, ¬ Aborts converter encoding files document
  /-- The batch is made of one record for each document, in the order of the documents: the
  record that the document makes alone. -/
  alone : ∀ batch, convertAll converter encoding files recursive paths = .ok batch →
    ∃ documents records, documentsOf converter.host files recursive paths = .ok documents ∧
      List.Forall₂ (fun document record => record.outcome.path = document ∧
        convertAll converter encoding files recursive [document] = .ok (gather [record]))
        documents records ∧
      batch = gather records
  /-- Other bytes in one file change the reports on this file and no others. -/
  untouched : ∀ batch names old bytes,
    convertAll converter encoding files recursive paths = .ok batch →
    files.entryAt? names = some (.file old) →
    (∀ report ∈ batch.outcome, files.locate report.path = .ok names →
      ¬ Aborts converter encoding (files.set names (.file bytes)) report.path) →
    ∃ after,
      convertAll converter encoding (files.set names (.file bytes)) recursive paths = .ok after ∧
      List.Forall₂ (fun first second => second.path = first.path ∧
        (files.locate first.path ≠ .ok names → second = first)) batch.outcome after.outcome

/-- A document that makes a record makes the same record as the only document. -/
theorem convertAll_alone {record : Logged FileReport}
    (hdocument : documentsAt converter.host files recursive document = .ok [document])
    (h : convertOne converter encoding files document = .ok record) :
    convertAll converter encoding files recursive [document] = .ok (gather [record]) := by
  have hdocuments : documentsOf converter.host files recursive [document] = .ok [document] :=
    collect_eq_ok_iff.2 ⟨[[document]], .cons hdocument .nil, rfl⟩
  exact convertAll_eq_ok_iff.2 ⟨_, [record], hdocuments, .cons h .nil, rfl⟩

section Bytes

variable {names : List String} {old bytes : List UInt8}

theorem isDocument_set (h : files.entryAt? names = some (.file old)) :
    isDocument (files.set names (.file bytes)) = isDocument files := by
  funext candidate
  unfold isDocument
  rcases FileTree.find_set_cases h candidate with hsame | ⟨hbefore, hafter⟩
  · rw [hsame]
  · rw [hbefore, hafter]
    rfl

/-- What is found does not depend on what is in the files. -/
theorem documentsOf_set (h : files.entryAt? names = some (.file old)) :
    documentsOf host (files.set names (.file bytes)) recursive paths =
      documentsOf host files recursive paths := by
  have hcandidates : candidatesIn host (files.set names (.file bytes)) recursive =
      candidatesIn host files recursive := by
    funext path directory
    unfold candidatesIn sortedFound
    rw [FileTree.found_set h]
  have hdocuments : documentsAt host (files.set names (.file bytes)) recursive =
      documentsAt host files recursive := by
    funext path
    unfold documentsAt
    rw [hcandidates]
    unfold documentsFrom
    rw [isDocument_set h]
    rcases FileTree.find_set_cases h path with hsame | ⟨hbefore, hafter⟩
    · rw [hsame]
    · rw [hbefore, hafter]
      rfl
  rw [documentsOf, hdocuments, documentsOf]

/-- A document somewhere else makes the record that it made before. -/
theorem convertOne_set (h : files.entryAt? names = some (.file old))
    (hother : files.locate document ≠ .ok names) :
    convertOne converter encoding (files.set names (.file bytes)) document =
      convertOne converter encoding files document := by
  unfold convertOne Converter.convertFile FileTree.readText
  simp only [FileTree.read_set h hother]

end Bytes

/-- With a known encoding, every file of every batch is converted as if it were alone. -/
theorem apart (hfiles : files.IsProper) (hencoding : IsKnownEncoding converter.host encoding)
    (recursive : Bool) (paths : List Path) : Apart converter encoding files recursive paths where
  discovers _ _ _ hfind h := exists_below_of_documentsAt hfiles hfind h
  searches := by
    simp only [documentsOf, exists_collect_iff, exists_documentsAt_iff]
  finishes := by
    simp only [exists_convertAll_iff, exists_convertOne_iff hencoding]
  alone := by
    intro batch hbatch
    obtain ⟨documents, records, hdocuments, hrecords, rfl⟩ := convertAll_eq_ok_iff.1 hbatch
    refine ⟨documents, records, hdocuments, ?_, rfl⟩
    refine List.Forall₂.imp ?_ ((List.forall₂_and_left documents records).2
      ⟨fun document hmem => hmem, hrecords⟩)
    rintro document record ⟨hmem, hrecord⟩
    obtain ⟨path, -, own, hown, hfound⟩ := exists_mem_of_collect hdocuments hmem
    exact ⟨path_of_convertOne hrecord, convertAll_alone (documentsAt_of_mem hown hfound) hrecord⟩
  untouched := by
    intro batch names old bytes hbatch hold habort
    obtain ⟨documents, records, hdocuments, hrecords, rfl⟩ := convertAll_eq_ok_iff.1 hbatch
    -- The same documents are found, and each of them still makes a record.
    have hafter : ∃ others, List.Forall₂ (fun document record =>
        convertOne converter encoding (files.set names (.file bytes)) document = .ok record)
        documents others := by
      simp only [← mapM_eq_ok_iff]
      refine exists_mapM_eq_ok_iff.2 fun document hmem => ?_
      obtain ⟨record, hresult, hrecord⟩ := exists_result_of_mem hrecords hmem
      by_cases hlocate : files.locate document = .ok names
      · refine (exists_convertOne_iff hencoding).2 ?_
        have hpath := path_of_convertOne hrecord
        rw [← hpath] at hlocate ⊢
        exact habort _ (List.mem_map_of_mem hresult) hlocate
      · exact ⟨record, (convertOne_set hold hlocate).trans hrecord⟩
    obtain ⟨others, hothers⟩ := hafter
    refine ⟨gather others, convertAll_eq_ok_iff.2
      ⟨documents, others, (documentsOf_set hold).trans hdocuments, hothers, rfl⟩, ?_⟩
    simp only [gather, List.forall₂_map_left_iff, List.forall₂_map_right_iff]
    refine (forall₂_of_common hrecords hothers).imp ?_
    rintro record other ⟨document, hrecord, hother⟩
    rw [path_of_convertOne hrecord, path_of_convertOne hother]
    refine ⟨rfl, fun hlocate => ?_⟩
    rw [convertOne_set hold hlocate, hrecord] at hother
    rw [Except.ok.inj hother]

end XmlToJson.CommandLine

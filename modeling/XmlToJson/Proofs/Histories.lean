import Mathlib.Data.List.Induction
import XmlToJson.Proofs.RepeatedKeys

/-!
# Objects and their histories

An object is written to in two ways: a value is added under a key, or a key is given a value
whatever it held.  This file says what an object holds after any number of writes by looking at the
list of writes (`Write.history_of_run`).

## Strategy

* **The values that count.**  The values that count for a key are the last one that it was given, if
  any, and those that were added after that.  `Write.Counts` has one constructor for either case:
  the key was never given a value, or the writes are split at the last time that it was.  The same
  values can be found from the first write on (`Write.counted`), and the two agree
  (`Write.counts_iff`), so there is exactly one such list.
* **One write** puts something under its key, given what is there (`Write.fill`), and changes
  nothing else (`Write.get?_perform`, `Write.keys_perform`).  It adds one value to those that count
  or starts them anew (`Write.counted_concat`).
* **The rule for repeated keys** gives what the key holds: one value alone, and an array of several.
  It follows a write because a slot is extended exactly if the object has made the array in it, and
  that is so from the second value on (`Write.extend_ruled`).  Here it is used that nobody hands in
  a gathered array, which the object could not tell from one of its own.
* **All writes** are an induction from the last one: the values (`Write.get?_run`), and the keys in
  the order in which they were first written (`Write.keys_run`).
-/

namespace XmlToJson

/-- A write to an object. -/
inductive Write where
  /-- Adds a value under a key. -/
  | append (key : String) (value : Value)
  /-- Gives a key a value, whatever it held. -/
  | assign (key : String) (value : Value)

namespace Write

def key : Write → String
  | append key _ => key
  | assign key _ => key

def value : Write → Value
  | append _ value => value
  | assign _ value => value

/-- The object after a write. -/
def perform (object : Object) : Write → Object
  | append key value => object.append key value
  | assign key value => object.set key value

/-- The object after writes, the first of them to an empty object. -/
def run (writes : List Write) : Object := writes.foldl perform .empty

theorem run_concat (writes : List Write) (write : Write) :
    run (writes ++ [write]) = write.perform (run writes) := by
  rw [run, List.foldl_append]
  rfl

/-! ## The values that count -/

/-- Whether a write gives a key a value. -/
def Assigns (key : String) (write : Write) : Prop := ∃ value, write = .assign key value

/-- The value that a write adds under a key. -/
def added? (key : String) : Write → Option Value
  | append name value => if name = key then some value else none
  | assign _ _ => none

/-- The values that are added under a key, in order. -/
def addedTo (key : String) (writes : List Write) : List Value := writes.filterMap (added? key)

/-- Whether values count for a key after writes: all that were added if the key was never given a
value, otherwise the last value that it was given and what was added after that. -/
inductive Counts (key : String) : List Write → List Value → Prop where
  | added {writes : List Write} :
      (∀ write ∈ writes, ¬ write.Assigns key) → Counts key writes (addedTo key writes)
  | assigned {before after : List Write} {value : Value} :
      (∀ write ∈ after, ¬ write.Assigns key) →
      Counts key (before ++ .assign key value :: after) (value :: addedTo key after)

/-- The values that count for a key after one more write. -/
def count (key : String) (values : List Value) : Write → List Value
  | append name value => if name = key then values ++ [value] else values
  | assign name value => if name = key then [value] else values

/-- The values that count for a key, found from the first write on. -/
def counted (key : String) (writes : List Write) : List Value := writes.foldl (count key) []

theorem counted_concat (key : String) (writes : List Write) (write : Write) :
    counted key (writes ++ [write]) = write.count key (counted key writes) := by
  rw [counted, List.foldl_append]
  rfl

/-- Writes that do not give the key a value only add to what counts for it. -/
theorem foldl_count {key : String} {writes : List Write}
    (h : ∀ write ∈ writes, ¬ write.Assigns key) (values : List Value) :
    writes.foldl (count key) values = values ++ addedTo key writes := by
  induction writes generalizing values with
  | nil => exact (List.append_nil values).symm
  | cons write rest ih =>
      obtain ⟨hwrite, hrest⟩ := List.forall_mem_cons.1 h
      rw [List.foldl_cons, ih hrest]
      cases write with
      | append name value => by_cases hname : name = key <;> simp [count, addedTo, added?, hname]
      | assign name value =>
          have hname : name ≠ key := by
            rintro rfl
            exact hwrite ⟨value, rfl⟩
          have hadded : added? key (assign name value) = none := rfl
          rw [count, if_neg hname, addedTo, addedTo, List.filterMap_cons_none hadded]

theorem Counts.eq_counted {key : String} {writes : List Write} {values : List Value}
    (h : Counts key writes values) : values = counted key writes := by
  cases h with
  | added hnever => exact (foldl_count hnever []).symm
  | @assigned before after value hlast =>
      rw [counted, List.foldl_append, List.foldl_cons, foldl_count hlast, count, if_pos rfl]
      rfl

theorem counts_counted (key : String) (writes : List Write) :
    Counts key writes (counted key writes) := by
  by_cases hnever : ∀ write ∈ writes, ¬ write.Assigns key
  · rw [counted, foldl_count hnever]
    exact .added hnever
  · -- The last write that gives the key a value splits the others.
    induction writes using List.reverseRecOn with
    | nil => simp at hnever
    | append_singleton writes last ih =>
        by_cases hlast : last.Assigns key
        · obtain ⟨value, rfl⟩ := hlast
          rw [counted_concat, count, if_pos rfl]
          exact .assigned (by simp)
        · have hbefore : ¬ ∀ write ∈ writes, ¬ write.Assigns key := fun hall =>
            hnever (List.forall_mem_append.2 ⟨hall, List.forall_mem_singleton.2 hlast⟩)
          have hadds : last.count key (counted key writes) =
              counted key writes ++ addedTo key [last] :=
            foldl_count (List.forall_mem_singleton.2 hlast) _
          rw [counted_concat, hadds]
          generalize hvalues : counted key writes = values at ih
          cases ih hbefore with
          | added hall => exact absurd hall hbefore
          | @assigned before after value hafter =>
              have hall := List.forall_mem_append.2 ⟨hafter, List.forall_mem_singleton.2 hlast⟩
              have hsplit := @Counts.assigned key before (after ++ [last]) value hall
              rw [addedTo, List.filterMap_append] at hsplit
              simpa [addedTo] using hsplit

/-- The values that count for a key are determined by the writes. -/
theorem counts_iff {key : String} {writes : List Write} {values : List Value} :
    Counts key writes values ↔ values = counted key writes := by
  refine ⟨Counts.eq_counted, ?_⟩
  rintro rfl
  exact counts_counted key writes

theorem mem_of_counted {key : String} {writes : List Write} {value : Value}
    (h : value ∈ counted key writes) : ∃ write ∈ writes, write.value = value := by
  induction writes using List.reverseRecOn with
  | nil => simp [counted] at h
  | append_singleton writes last ih =>
      have hcases : value ∈ counted key writes ∨ value = last.value := by
        rw [counted_concat] at h
        cases last <;> simp only [count] at h <;> split at h <;> simp_all [Write.value]
      rcases hcases with hbefore | rfl
      · obtain ⟨write, hmem, hvalue⟩ := ih hbefore
        exact ⟨write, List.mem_append_left _ hmem, hvalue⟩
      · exact ⟨last, by simp, rfl⟩

/-! ## One write -/

section One

variable (object : Object) (write : Write)

/-- What a write puts under its key, given what is there. -/
def fill (found : Option Value) : Write → Value
  | append _ value => extend value found
  | assign _ value => value

theorem perform_eq :
    write.perform object = object.set write.key (write.fill (object.get? write.key)) := by
  cases write with
  | append key value => exact Object.append_eq object key value
  | assign key value => rfl

/-- A write changes what its key holds, and nothing else. -/
theorem get?_perform (key : String) : (write.perform object).get? key =
    if key = write.key then some (write.fill (object.get? write.key)) else object.get? key := by
  rw [perform_eq, Object.get?_set]

theorem keys_perform : (write.perform object).keys =
    if write.key ∈ object.keys then object.keys else object.keys ++ [write.key] := by
  rw [perform_eq]
  exact Entries.keys_set write.key _ object.members

end One

end Write

/-- The rule for repeated keys goes on with what an object does: the first value stands alone, the
second makes an array, and the others extend it. -/
theorem extend_ruled {values : List Value}
    (hplain : ∀ value ∈ values, value.gatheredItems = [value]) (value : Value) :
    some (extend value (ruled values)) = ruled (values ++ [value]) := by
  match values with
  | [] => rfl
  | [first] =>
      have hfirst : first.gatheredItems = [first] := hplain first (by simp)
      simp [ruled, extend, hfirst]
  | first :: second :: rest => simp [ruled, extend, Value.gatheredItems]

theorem firstKeys_concat (contributions : Contributions) (key : String) (value : Value) :
    firstKeys (contributions ++ [(key, value)]) =
      if key ∈ firstKeys contributions then firstKeys contributions
      else firstKeys contributions ++ [key] := by
  have hgather : Object.gather (contributions ++ [(key, value)]) =
      (Object.gather contributions).append key value :=
    Object.appendAll_append .empty contributions [(key, value)]
  rw [← keys_gather, ← keys_gather, hgather, Object.keys_append]

namespace Write

/-! ## All writes -/

variable {writes : List Write}

/-- The object holds under each key what the rule puts there for the values that count. -/
theorem get?_run (hplain : ∀ write ∈ writes, ¬ ∃ items, write.value = .gathered items)
    (key : String) : (run writes).get? key = ruled (counted key writes) := by
  induction writes using List.reverseRecOn with
  | nil => rfl
  | append_singleton writes last ih =>
      obtain ⟨hbefore, -⟩ := List.forall_mem_append.1 hplain
      have hvalues : ∀ value ∈ counted key writes, value.gatheredItems = [value] := by
        intro value hmem
        obtain ⟨write, hwrite, rfl⟩ := mem_of_counted hmem
        exact (gatheredItems_eq_iff _).2 (hbefore write hwrite)
      rw [run_concat, counted_concat, get?_perform]
      split
      · next hkey =>
          subst hkey
          rw [ih hbefore]
          cases last with
          | append name value =>
              rw [fill, count, key, if_pos rfl]
              exact extend_ruled hvalues value
          | assign name value =>
              rw [fill, count, key, if_pos rfl]
              rfl
      · next hkey =>
          rw [ih hbefore]
          cases last with
          | append name value => rw [count, if_neg fun h => hkey h.symm]
          | assign name value => rw [count, if_neg fun h => hkey h.symm]

/-- The keys stand in the order in which they were first written. -/
theorem keys_run (writes : List Write) :
    (run writes).keys = firstKeys (writes.map fun write => (write.key, write.value)) := by
  induction writes using List.reverseRecOn with
  | nil => rfl
  | append_singleton writes last ih =>
      rw [run_concat, keys_perform, ih, List.map_append]
      exact (firstKeys_concat _ last.key last.value).symm

theorem mem_keys_iff {object : Object} {key : String} :
    key ∈ object.keys ↔ object.get? key ≠ none := by
  obtain ⟨members⟩ := object
  show key ∈ members.map (·.1) ↔ members.lookup key ≠ none
  induction members with
  | nil => simp
  | cons member rest ih =>
      obtain ⟨name, value⟩ := member
      rw [List.map_cons, List.mem_cons, Entries.lookup_cons, ih]
      split
      · next hname => simp [hname]
      · next hname => simp [hname]

theorem ruled_eq_none_iff {values : List Value} : ruled values = none ↔ values = [] := by
  match values with
  | [] => simp [ruled]
  | [value] => simp [ruled]
  | first :: second :: rest => simp [ruled]

/-- What stands under a key before a write stands there afterwards, as it was, unless the write is
to that key: then it is the beginning of an array that the new value ends, or it gives way to the
new value. -/
theorem get?_perform_cases {object : Object} {key : String} {value : Value}
    (h : object.get? key = some value) (write : Write) :
    (write.key ≠ key ∧ (write.perform object).get? key = some value) ∨
      (write = .append key write.value ∧
        (write.perform object).get? key =
          some (.gathered (value.gatheredItems ++ [write.value]))) ∨
      (write = .assign key write.value ∧ (write.perform object).get? key = some write.value) := by
  rw [get?_perform]
  by_cases hkey : key = write.key
  · subst hkey
    rw [if_pos rfl, h]
    cases write with
    | append name new => exact .inr (.inl ⟨rfl, rfl⟩)
    | assign name new => exact .inr (.inr ⟨rfl, rfl⟩)
  · rw [if_neg hkey]
    exact .inl ⟨fun hsame => hkey hsame.symm, h⟩

/-- After any writes of values that are no gathered arrays, the values that count for a key are
determined, the key is there if there are any, and it holds the only one of them or an array of
exactly these.  The keys stand in the order in which they were first written.  No write touches
another key, and a stored value is never changed: it stays where it is, it stands in front of the
new value in an array, or it gives way to the new value. -/
theorem history_of_run (writes : List Write)
    (hplain : ∀ write ∈ writes, ¬ ∃ items, write.value = .gathered items) :
    (∀ key, ∃! values, Counts key writes values) ∧
    (∀ key values, Counts key writes values →
      (key ∈ (run writes).keys ↔ values ≠ []) ∧ (run writes).get? key = ruled values) ∧
    (run writes).keys = firstKeys (writes.map fun write => (write.key, write.value)) ∧
    ∀ before write after, writes = before ++ write :: after →
      (∀ key, key ≠ write.key → (run (before ++ [write])).get? key = (run before).get? key) ∧
      ∀ key value, (run before).get? key = some value →
        (write.key ≠ key ∧ (run (before ++ [write])).get? key = some value) ∨
        (write = .append key write.value ∧ (run (before ++ [write])).get? key =
          some (.gathered (value.gatheredItems ++ [write.value]))) ∨
        (write = .assign key write.value ∧
          (run (before ++ [write])).get? key = some write.value) := by
  refine ⟨fun key => ⟨_, counts_counted key writes, fun _ => Counts.eq_counted⟩, ?_,
    keys_run writes, ?_⟩
  · intro key values hcounts
    obtain rfl := counts_iff.1 hcounts
    have hget := get?_run hplain key
    refine ⟨?_, hget⟩
    rw [mem_keys_iff, hget, Ne, ruled_eq_none_iff]
  · intro before write after _
    rw [run_concat]
    refine ⟨fun key hkey => ?_, fun key value hvalue => get?_perform_cases hvalue write⟩
    rw [get?_perform, if_neg hkey]

/-- A list that a key is given is wrapped, not extended, when a value is added, and a key that was
added to begins anew when it is given a value. -/
theorem history_of_run_wrapped :
    let writes : List Write := [.append "b" .null, .assign "a" (.list [.integer 1]),
      .append "a" (.integer 2), .assign "b" (.string "")]
    (run writes).get? "a" = some (.gathered [.list [.integer 1], .integer 2]) ∧
      (run writes).get? "b" = some (.string "") ∧ (run writes).keys = ["b", "a"] := by
  intro writes
  have hplain : ∀ write ∈ writes, ¬ ∃ items, write.value = .gathered items := by
    simp [writes, Write.value]
  obtain ⟨-, hcounts, hkeys, -⟩ := history_of_run writes hplain
  have hfirst : Counts "a" writes [.list [.integer 1], .integer 2] := counts_iff.2 rfl
  have hsecond : Counts "b" writes [.string ""] := counts_iff.2 rfl
  exact ⟨(hcounts "a" _ hfirst).2, (hcounts "b" _ hsecond).2, hkeys⟩

end Write

end XmlToJson

import CommandShell.Proofs.Store.Entries
import CommandShell.Proofs.Store.Records
import CommandShell.Proofs.Text.ByteOrder
import Mathlib.Data.List.Nodup

/-!
The store as a map. Whatever is set and imported, in whatever order, comes down to a row of writes,
each of a value under a key without `=`. What the store holds under a key is the last value that was
written there, and its entries are exactly these, once each and in the order of the bytes of their
keys. Such a store is known from what it holds, so the records of its entries bring it back, in any
order.
-/

namespace CommandShell

namespace Store

/-- What can be done to a store. -/
inductive Change where
  | set (name : String) (value : Option String)
  | importRecords (records : List String)
  deriving DecidableEq, Repr

def Change.apply (store : Store) : Change → Store
  | .set name value => store.set name value
  | .importRecords records => store.importRecords records

/-- The store that these changes make of an empty one. -/
def ofChanges (changes : List Change) : Store := changes.foldl Change.apply empty

/-- The pairs of a key and a value that a change writes, in order. -/
def Change.writes : Change → List (String × String)
  | .set name value => [((cutRecord name).1, value.getD "")]
  | .importRecords records => records.map fun record =>
      ((cutRecord record).1, (cutRecord record).2.getD "")

/-- The value of the last write to a key. -/
def lastWritten? (key : String) (writes : List (String × String)) : Option String :=
  writes.reverse.lookup key

/-! Every change is a row of writes to keys without `=`. -/

def put (store : Store) (write : String × String) : Store := store.set write.1 (some write.2)

theorem recordKey_of_not_mem {key : String} (plain : '=' ∉ key.toList) : recordKey key = key := by
  rw [recordKey_eq, cutRecord_of_not_mem plain]

theorem recordKey_cutRecord (record : String) :
    recordKey (cutRecord record).1 = (cutRecord record).1 :=
  recordKey_of_not_mem (not_mem_cutRecord record)

theorem set_eq_put (store : Store) (name : String) (value : Option String) :
    store.set name value = store.put ((cutRecord name).1, value.getD "") := by
  rw [put, set, set, recordKey_cutRecord, recordKey_eq, Option.getD_some]

theorem importRecord_eq_put (store : Store) (record : String) :
    store.importRecord record = store.put ((cutRecord record).1, (cutRecord record).2.getD "") := by
  rw [importRecord, set_eq_put, recordKey_eq, cutRecord_of_not_mem (not_mem_cutRecord record),
    recordValue?_eq]

theorem Change.apply_eq (store : Store) (change : Change) :
    change.apply store = change.writes.foldl put store := by
  cases change with
  | set name value => exact set_eq_put store name value
  | importRecords records =>
      have step := funext₂ importRecord_eq_put
      rw [writes, List.foldl_map, apply, Store.importRecords, step]

theorem ofChanges_eq (changes : List Change) :
    ofChanges changes = (changes.flatMap Change.writes).foldl put empty := by
  have step := funext₂ Change.apply_eq
  rw [ofChanges, List.foldl_flatMap, step]

def Plain (writes : List (String × String)) : Prop := ∀ write ∈ writes, '=' ∉ write.1.toList

theorem plain_cons {write : String × String} {writes : List (String × String)} :
    Plain (write :: writes) ↔ '=' ∉ write.1.toList ∧ Plain writes := List.forall_mem_cons

theorem Change.plain_writes (change : Change) : Plain change.writes := by
  intro write membership
  cases change with
  | set name value =>
      obtain rfl := List.mem_singleton.mp membership
      exact not_mem_cutRecord name
  | importRecords records =>
      obtain ⟨record, -, rfl⟩ := List.mem_map.mp membership
      exact not_mem_cutRecord record

theorem plain_flatMap_writes (changes : List Change) : Plain (changes.flatMap Change.writes) := by
  intro write membership
  obtain ⟨change, -, inside⟩ := List.mem_flatMap.mp membership
  exact change.plain_writes write inside

/-! What is found after a row of writes. -/

theorem lastWritten?_cons (key : String) (write : String × String)
    (writes : List (String × String)) :
    lastWritten? key (write :: writes) =
      (lastWritten? key writes).or (if key = write.1 then some write.2 else none) := by
  rw [lastWritten?, List.reverse_cons, List.lookup_append, List.lookup_singleton, lastWritten?]
  simp only [beq_iff_eq]

theorem get?_foldl_put {writes : List (String × String)} (plain : Plain writes) (store : Store)
    (name : String) :
    (writes.foldl put store).get? name =
      (lastWritten? (recordKey name) writes).or (store.get? name) := by
  induction writes generalizing store with
  | nil => rfl
  | cons write writes inductionHypothesis =>
      obtain ⟨first, rest⟩ := plain_cons.mp plain
      rw [List.foldl_cons, inductionHypothesis rest, put, get?_set_eq, recordKey_of_not_mem first,
        lastWritten?_cons, Option.or_assoc]
      split <;> simp

theorem get?_empty (name : String) : empty.get? name = none := rfl

theorem get?_foldl_put_empty {writes : List (String × String)} (plain : Plain writes)
    (name : String) :
    (writes.foldl put empty).get? name = lastWritten? (recordKey name) writes := by
  rw [get?_foldl_put plain, get?_empty, Option.or_none]

/-! The entries of a store stand in the order of their keys, and no key has an `=` in it. -/

structure Sound (store : Store) : Prop where
  plain : Plain store.entries
  ascending : store.entries.Pairwise fun first second => first.1 < second.1

theorem sound_empty : empty.Sound :=
  ⟨fun _ membership => absurd membership List.not_mem_nil, List.Pairwise.nil⟩

theorem mem_insertEntry {key value : String} {entry : String × String}
    {entries : List (String × String)} (membership : entry ∈ insertEntry key value entries) :
    entry = (key, value) ∨ entry ∈ entries := by
  induction entries with
  | nil => exact Or.inl (List.mem_singleton.mp membership)
  | cons first entries inductionHypothesis =>
      obtain ⟨other, old⟩ := first
      unfold insertEntry at membership
      split at membership
      · exact (List.mem_cons.mp membership).imp_right (List.mem_cons_of_mem _)
      · split at membership
        · exact List.mem_cons.mp membership
        · rcases List.mem_cons.mp membership with rfl | later
          · exact Or.inr List.mem_cons_self
          · exact (inductionHypothesis later).imp_right (List.mem_cons_of_mem _)

theorem pairwise_insertEntry (key value : String) {entries : List (String × String)}
    (ascending : entries.Pairwise fun first second => first.1 < second.1) :
    (insertEntry key value entries).Pairwise fun first second => first.1 < second.1 := by
  induction entries with
  | nil => exact List.pairwise_singleton _ _
  | cons first entries inductionHypothesis =>
      obtain ⟨other, old⟩ := first
      obtain ⟨above, rest⟩ := List.pairwise_cons.mp ascending
      unfold insertEntry
      split
      · next same =>
          subst same
          exact List.pairwise_cons.mpr ⟨above, rest⟩
      · next different =>
          split
          · next before =>
              have less : key < other := textBefore_toList_iff.mp before
              refine List.pairwise_cons.mpr ⟨fun entry membership => ?_, ascending⟩
              rcases List.mem_cons.mp membership with rfl | later
              · exact less
              · exact lt_trans less (above entry later)
          · next behind =>
              have less : other < key :=
                lt_of_le_of_ne (not_lt.mp fun less => behind (textBefore_toList_iff.mpr less))
                  different
              refine List.pairwise_cons.mpr ⟨fun entry membership => ?_, inductionHypothesis rest⟩
              rcases mem_insertEntry membership with rfl | later
              · exact less
              · exact above entry later

theorem Sound.put {store : Store} (sound : store.Sound) {write : String × String}
    (plain : '=' ∉ write.1.toList) :
    (store.put write).Sound := by
  have entries : (store.put write).entries = insertEntry write.1 write.2 store.entries := by
    rw [Store.put, set, recordKey_of_not_mem plain, Option.getD_some]
  refine ⟨fun entry membership => ?_, ?_⟩
  · rw [entries] at membership
    rcases mem_insertEntry membership with rfl | old
    · exact plain
    · exact sound.plain entry old
  · rw [entries]
    exact pairwise_insertEntry write.1 write.2 sound.ascending

theorem Sound.foldl_put {writes : List (String × String)} (plain : Plain writes) {store : Store}
    (sound : store.Sound) : (writes.foldl Store.put store).Sound := by
  induction writes generalizing store with
  | nil => exact sound
  | cons write writes inductionHypothesis =>
      obtain ⟨first, rest⟩ := plain_cons.mp plain
      exact inductionHypothesis rest (sound.put first)

theorem sound_ofChanges (changes : List Change) : (ofChanges changes).Sound := by
  rw [ofChanges_eq]
  exact sound_empty.foldl_put (plain_flatMap_writes changes)

/-! A store with sound entries is known from what is found in it. -/

theorem find?_eq_of_mem {entries : List (String × String)}
    (ascending : entries.Pairwise fun first second => first.1 < second.1) {entry : String × String}
    (membership : entry ∈ entries) :
    entries.find? (fun other => other.1 = entry.1) = some entry := by
  induction entries with
  | nil => exact absurd membership List.not_mem_nil
  | cons first entries inductionHypothesis =>
      obtain ⟨above, rest⟩ := List.pairwise_cons.mp ascending
      rcases List.mem_cons.mp membership with rfl | later
      · simp
      · have different : first.1 ≠ entry.1 := ne_of_lt (above entry later)
        rw [List.find?_cons_of_neg (by simpa using different)]
        exact inductionHypothesis rest later

theorem Sound.mem_entries_iff {store : Store} (sound : store.Sound) {key value : String} :
    (key, value) ∈ store.entries ↔ '=' ∉ key.toList ∧ store.get? key = some value := by
  constructor
  · intro membership
    have plain := sound.plain _ membership
    refine ⟨plain, ?_⟩
    rw [get?, recordKey_of_not_mem plain, find?_eq_of_mem sound.ascending membership,
      Option.map_some]
  · rintro ⟨plain, found⟩
    obtain ⟨entry, first, rfl⟩ := Option.map_eq_some_iff.mp found
    have same : entry.1 = key := by
      simpa only [decide_eq_true_eq, recordKey_of_not_mem plain] using List.find?_some first
    rw [← same]
    exact List.mem_of_find?_eq_some first

theorem Sound.nodup_keys {store : Store} (sound : store.Sound) :
    (store.entries.map Prod.fst).Nodup :=
  List.pairwise_map.mpr (sound.ascending.imp fun less => ne_of_lt less)

theorem Sound.ext {store store' : Store} (sound : store.Sound) (sound' : store'.Sound)
    (same : ∀ name, store.get? name = store'.get? name) : store = store' := by
  have permuted : store.entries.Perm store'.entries := by
    rw [List.perm_ext_iff_of_nodup (List.Nodup.of_map _ sound.nodup_keys)
      (List.Nodup.of_map _ sound'.nodup_keys)]
    rintro ⟨key, value⟩
    rw [sound.mem_entries_iff, sound'.mem_entries_iff, same]
  have entries : store.entries = store'.entries :=
    permuted.eq_of_pairwise (fun _ _ _ _ less more => absurd more (lt_asymm less)) sound.ascending
      sound'.ascending
  cases store
  cases store'
  exact congrArg Store.mk entries

/-! The entries after a row of writes are the last value of every key that was written. -/

theorem exists_lastWritten?_iff {key : String} {writes : List (String × String)} :
    (∃ value, lastWritten? key writes = some value) ↔ key ∈ writes.map Prod.fst := by
  rw [← Option.isSome_iff_exists, lastWritten?, List.lookup_isSome_iff]
  simp only [List.mem_reverse, beq_iff_eq, List.mem_map, @eq_comm _ key]

theorem mem_entries_foldl_put {writes : List (String × String)} (plain : Plain writes)
    {key value : String} :
    (key, value) ∈ (writes.foldl put empty).entries ↔ lastWritten? key writes = some value := by
  rw [(sound_empty.foldl_put plain).mem_entries_iff, get?_foldl_put_empty plain]
  constructor
  · rintro ⟨free, written⟩
    rwa [recordKey_of_not_mem free] at written
  · intro written
    obtain ⟨write, membership, rfl⟩ := List.mem_map.mp (exists_lastWritten?_iff.mp ⟨value, written⟩)
    exact ⟨plain write membership, by rwa [recordKey_of_not_mem (plain write membership)]⟩

theorem mem_keys_foldl_put {writes : List (String × String)} (plain : Plain writes) {key : String} :
    key ∈ (writes.foldl put empty).entries.map Prod.fst ↔ key ∈ writes.map Prod.fst := by
  calc key ∈ (writes.foldl put empty).entries.map Prod.fst
    _ ↔ ∃ value, (key, value) ∈ (writes.foldl put empty).entries := by simp
    _ ↔ ∃ value, lastWritten? key writes = some value := exists_congr fun _ =>
      mem_entries_foldl_put plain
    _ ↔ key ∈ writes.map Prod.fst := exists_lastWritten?_iff

/-- With no key written twice, the order of the writes does not matter. -/
theorem lastWritten?_eq_some_iff_mem {writes : List (String × String)}
    (distinct : (writes.map Prod.fst).Nodup) {key value : String} :
    lastWritten? key writes = some value ↔ (key, value) ∈ writes := by
  induction writes with
  | nil => simp [lastWritten?]
  | cons write writes inductionHypothesis =>
      obtain ⟨new, rest⟩ := List.nodup_cons.mp distinct
      rw [lastWritten?_cons, List.mem_cons]
      by_cases same : key = write.1
      · subst same
        have missing : ∀ value, (write.1, value) ∉ writes := fun value membership =>
          new (List.mem_map.mpr ⟨_, membership, rfl⟩)
        have unwritten : lastWritten? write.1 writes = none :=
          Option.eq_none_iff_forall_ne_some.mpr fun value written =>
            new (exists_lastWritten?_iff.mp ⟨value, written⟩)
        simp [unwritten, missing, Prod.ext_iff, eq_comm]
      · simp [same, inductionHypothesis rest, Prod.ext_iff]

/-- Whatever is done to a store, what is found under a name is the last value that was written to
its key, and the entries are the keys that were written, each once, in the order of their bytes. -/
theorem lastWritten_ofChanges (changes : List Change) :
    let writes := changes.flatMap Change.writes
    let keys := (ofChanges changes).entries.map Prod.fst
    (∀ name, (ofChanges changes).get? name = lastWritten? (cutRecord name).1 writes) ∧
      (∀ key value, (key, value) ∈ (ofChanges changes).entries ↔
        lastWritten? key writes = some value) ∧
      (∀ key, keys.count key = if key ∈ writes.map Prod.fst then 1 else 0) ∧
      (∀ key ∈ keys, '=' ∉ key.toList) ∧
      keys.Pairwise (fun first second => Bytes.ofText first < Bytes.ofText second) ∧
      (ofChanges changes).size = keys.length := by
  intro writes keys
  have plain : Plain writes := plain_flatMap_writes changes
  have sound := sound_ofChanges changes
  have same : ofChanges changes = writes.foldl put empty := ofChanges_eq changes
  refine ⟨fun name => ?_, fun key value => ?_, fun key => ?_, fun key membership => ?_, ?_, ?_⟩
  · rw [same, get?_foldl_put_empty plain, recordKey_eq]
  · rw [same, mem_entries_foldl_put plain]
  · have written : key ∈ keys ↔ key ∈ writes.map Prod.fst := by
      rw [← mem_keys_foldl_put plain, ← same]
    rw [sound.nodup_keys.count, if_congr written rfl rfl]
  · obtain ⟨entry, inside, rfl⟩ := List.mem_map.mp membership
    exact sound.plain entry inside
  · exact List.pairwise_map.mpr (sound.ascending.imp fun less => Bytes.ofText_lt_ofText less)
  · exact (List.length_map Prod.fst).symm

/-! A store that is written out as records and read in again. -/

theorem importRecords_formatRecord {pairs : List (String × String)} (plain : Plain pairs) :
    empty.importRecords (pairs.map fun pair => formatRecord pair.1 pair.2) =
      pairs.foldl put empty := by
  have writes : (Change.importRecords (pairs.map fun pair => formatRecord pair.1 pair.2)).writes =
      pairs := by
    rw [Change.writes, List.map_map]
    refine (List.map_congr_left fun pair membership => ?_).trans (List.map_id pairs)
    rw [Function.comp_apply, cutRecord_formatRecord (plain pair membership), Option.getD_some, id]
  rw [← Change.apply, Change.apply_eq, writes]

/-- The records of the entries bring a store back, in any order. So of the variables a process is
started with the last value of each name is stored as it is. -/
theorem importRecords_entries :
    (∀ (changes : List Change) (exported : List (String × String)),
      exported.Perm (ofChanges changes).entries →
      empty.importRecords (exported.map fun entry => formatRecord entry.1 entry.2) =
        ofChanges changes) ∧
    (∀ environment : List (String × String), (∀ pair ∈ environment, '=' ∉ pair.1.toList) →
      (∀ name, (ofEnvironment environment).get? name =
        lastWritten? (cutRecord name).1 environment) ∧
      ∀ name value,
        (name, value) ∈ (ofEnvironment environment).entries ↔
          lastWritten? name environment = some value) := by
  refine ⟨fun changes exported permuted => ?_, fun environment plain =>
    ⟨fun name => ?_, fun name value => ?_⟩⟩
  · have sound := sound_ofChanges changes
    have plain : Plain exported :=
      fun entry membership => sound.plain entry (permuted.mem_iff.mp membership)
    have distinct : (exported.map Prod.fst).Nodup :=
      (permuted.map Prod.fst).nodup_iff.mpr sound.nodup_keys
    rw [importRecords_formatRecord plain]
    refine (sound_empty.foldl_put plain).ext sound fun name => Option.ext fun value => ?_
    rw [get?_foldl_put_empty plain, lastWritten?_eq_some_iff_mem distinct, permuted.mem_iff,
      ofChanges_eq, mem_entries_foldl_put (plain_flatMap_writes changes),
      get?_foldl_put_empty (plain_flatMap_writes changes)]
  · rw [ofEnvironment, importRecords_formatRecord plain, get?_foldl_put_empty plain, recordKey_eq]
  · rw [ofEnvironment, importRecords_formatRecord plain, mem_entries_foldl_put plain]

theorem importRecords_entries_reversed :
    let changes :=
      [Change.set "B=x" none, .importRecords ["é=ü=", "A", "B=1=2"], .set "A" (some "=")]
    let environment := [("B", "1"), ("é", "ü=ü"), ("B", "")]
    (ofChanges changes).entries = [("A", "="), ("B", "1=2"), ("é", "ü=")] ∧
      empty.importRecords ["é=ü=", "B=1=2", "A=="] = ofChanges changes ∧
      (∀ pair ∈ environment, '=' ∉ pair.1.toList) ∧
      (ofEnvironment environment).get? "B" = some "" ∧ (ofEnvironment environment).get? "é=" =
        some "ü=ü" := by
  intro changes environment
  have entries : (ofChanges changes).entries = [("A", "="), ("B", "1=2"), ("é", "ü=")] := by
    decide +kernel
  have plain : ∀ pair ∈ environment, '=' ∉ pair.1.toList := by decide +kernel
  have restored :=
    importRecords_entries.1 changes [("é", "ü="), ("B", "1=2"), ("A", "=")]
      (by rw [entries]; decide)
  have stored := (importRecords_entries.2 environment plain).1
  refine ⟨entries, restored, plain, ?_, ?_⟩
  · rw [stored]
    decide +kernel
  · rw [stored]
    decide +kernel

end Store

end CommandShell

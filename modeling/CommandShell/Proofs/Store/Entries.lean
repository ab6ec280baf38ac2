import CommandShell.Store

/-!
The entries of a store. A value that is put in is found under its own key, and what is found under
every other key stays the same.
-/

namespace CommandShell

namespace Store

theorem find?_insertEntry {key other : String} (different : other ≠ key) (value : String)
    (entries : List (String × String)) :
    (insertEntry key value entries).find? (fun entry => entry.1 = other) =
      entries.find? (fun entry => entry.1 = other) := by
  induction entries with
  | nil => simp [insertEntry, Ne.symm different]
  | cons entry entries inductionHypothesis =>
      obtain ⟨name, old⟩ := entry
      unfold insertEntry
      split
      · next same => simp [same, Ne.symm different]
      · split
        · simp [List.find?_cons, Ne.symm different]
        · simp only [List.find?_cons, inductionHypothesis]

theorem find?_insertEntry_self (key value : String) (entries : List (String × String)) :
    (insertEntry key value entries).find? (fun entry => entry.1 = key) = some (key, value) := by
  induction entries with
  | nil => simp [insertEntry]
  | cons entry entries inductionHypothesis =>
      obtain ⟨name, old⟩ := entry
      unfold insertEntry
      split
      · simp
      · next different =>
        split
        · simp
        · simp only [List.find?_cons, different, decide_false, inductionHypothesis]

theorem get?_set (store : Store) (name : String) (value : Option String) :
    (store.set name value).get? name = some (value.getD "") := by
  rw [get?, set, find?_insertEntry_self, Option.map_some]

theorem get?_set_of_ne {name other : String} (different : recordKey other ≠ recordKey name)
    (store : Store) (value : Option String) :
    (store.set name value).get? other = store.get? other := by
  rw [get?, set, find?_insertEntry different, get?]

theorem get?_set_eq (store : Store) (name other value : String) :
    (store.set name (some value)).get? other =
      if recordKey other = recordKey name then some value else store.get? other := by
  split
  · next same =>
      have found := get?_set store name (some value)
      rw [get?, ← same] at found
      exact found
  · next different => exact get?_set_of_ne different store (some value)

theorem insertEntry_insertEntry (key value value' : String) (entries : List (String × String)) :
    insertEntry key value' (insertEntry key value entries) = insertEntry key value' entries := by
  fun_induction insertEntry key value entries with
  | case1 => simp [insertEntry]
  | case2 old entries => simp [insertEntry]
  | case3 other old entries different before => simp [insertEntry, different, before]
  | case4 other old entries different behind inductionHypothesis =>
      simp [insertEntry, different, behind, inductionHypothesis]

theorem set_set (store : Store) (name : String) (value value' : Option String) :
    (store.set name value).set name value' = store.set name value' := by
  rw [set, set, insertEntry_insertEntry]
  rfl

end Store

end CommandShell

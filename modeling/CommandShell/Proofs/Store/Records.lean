import CommandShell.Store
import Mathlib.Data.List.TakeDrop

/-!
Records. The name in a record goes up to its first `=`, and the value is all the text behind that.
Where the value begins is found by counting the bytes of the name; it is always between two
characters, whatever the name is.
-/

namespace CommandShell

/-- A record cut at its first `=`: the text before it, and the text behind it if there is one. -/
def cutRecord (record : String) : String × Option String :=
  let (key, rest) := record.toList.span (· != '=')
  (.ofList key, rest.tail?.map String.ofList)

theorem cutRecord_eq (record : String) :
    cutRecord record = (.ofList (record.toList.takeWhile (· != '=')),
      (record.toList.dropWhile (· != '=')).tail?.map String.ofList) := by
  rw [cutRecord, List.span_eq_takeWhile_dropWhile]

theorem not_mem_cutRecord (record : String) : '=' ∉ (cutRecord record).1.toList := by
  rw [cutRecord_eq, String.toList_ofList]
  intro membership
  have other := List.all_eq_true.mp List.all_takeWhile '=' membership
  simp at other

theorem cutRecord_append {name : String} (plain : '=' ∉ name.toList) {rest : List Char}
    (ended : ∀ c ∈ rest.head?, c = '=') :
    cutRecord (.ofList (name.toList ++ rest)) = (name, rest.tail?.map String.ofList) := by
  have inside : ∀ c ∈ name.toList, (c != '=') = true := fun c membership => by
    simp only [bne_iff_ne, ne_eq]
    rintro rfl
    exact plain membership
  rw [cutRecord_eq, String.toList_ofList, List.takeWhile_append_of_pos inside,
    List.dropWhile_append_of_pos inside]
  cases rest with
  | nil => simp
  | cons c rest => simp [ended c rfl]

theorem cutRecord_of_not_mem {name : String} (plain : '=' ∉ name.toList) :
    cutRecord name = (name, none) := by
  simpa using cutRecord_append plain (by simp : ∀ c ∈ ([] : List Char).head?, c = '=')

theorem cutRecord_formatRecord {name : String} (plain : '=' ∉ name.toList) (value : String) :
    cutRecord (Store.formatRecord name value) = (name, some value) := by
  have chars : Store.formatRecord name value = .ofList (name.toList ++ '=' :: value.toList) :=
    String.toList_inj.mp (by simp [Store.formatRecord])
  rw [chars, cutRecord_append plain (by simp)]
  simp

/-! The name and the value are taken from there. -/

theorem recordKey_eq (record : String) : recordKey record = (cutRecord record).1 := by
  rw [cutRecord_eq, recordKey]

theorem dropBytes?_append (first rest : List Char) (count : Nat) :
    dropBytes? ((String.ofList first).utf8ByteSize + count)
      (first ++ rest) = dropBytes? count rest := by
  induction first with
  | nil => simp
  | cons c first inductionHypothesis =>
      have size : (String.ofList (c :: first)).utf8ByteSize =
          c.utf8Size + (String.ofList first).utf8ByteSize := by
        rw [String.ofList_cons, String.utf8ByteSize_append, String.utf8ByteSize_singleton]
      have positive := c.utf8Size_pos
      obtain ⟨bytes, total⟩ : ∃ bytes, (String.ofList (c :: first)).utf8ByteSize + count =
          bytes + 1 :=
        ⟨_, (Nat.sub_add_cancel (by omega)).symm⟩
      rw [total, List.cons_append, dropBytes?, if_pos (by omega), ← inductionHypothesis]
      congr 1
      omega

theorem recordValue?_eq (record : String) : recordValue? record = (cutRecord record).2 := by
  have sliced :=
    dropBytes?_append (record.toList.takeWhile (· != '=')) (record.toList.dropWhile (· != '=')) 1
  have first := List.head?_dropWhile_not (· != '=') record.toList
  rw [List.takeWhile_append_dropWhile] at sliced
  rw [recordValue?, recordKey, sliced, cutRecord_eq]
  generalize record.toList.dropWhile (· != '=') = rest at first
  cases rest with
  | nil => rfl
  | cons c value =>
      obtain rfl : c = '=' := by simpa using first
      have one : '='.utf8Size = 1 := by decide
      simp [dropBytes?, one]

end CommandShell

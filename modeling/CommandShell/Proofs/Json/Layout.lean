import CommandShell.Proofs.Json.Record
import Mathlib.Data.List.Nodup

/-!
What the members of an object make of a record, whatever their order. Slots of a record do not
disturb each other, so every slot has the content that its member gives, or the one it had.
-/

namespace CommandShell.Json

/-- The content of a slot: what the member of its name gives, or else the default. -/
def Given {α : Type} (members : List (String × Value)) (name : String) (type : Value → α → Prop)
    (default content : α) : Prop :=
  match members.lookup name with
  | none => content = default
  | some value => type value content

/-- Every name is one of those that are known, and no name comes twice. -/
structure Named (names : List String) (members : List (String × Value)) : Prop where
  known : ∀ member ∈ members, member.1 ∈ names
  once : (members.map Prod.fst).Nodup

/-- The slots of a record: they have different names, none disturbs another, and they are all there
is to the record. -/
structure Layout (σ : Type) where
  slots : List (Slot σ)
  once : (slots.map Slot.name).Nodup
  apart : ∀ slot ∈ slots, ∀ other ∈ slots, slot.name ≠ other.name → ∀ record content,
    slot.get (other.put record content) = slot.get record
  ext : ∀ record record', (∀ slot ∈ slots, slot.get record = slot.get record') → record = record'

/-! What is given. -/

section

variable {α : Type} {members : List (String × Value)} {name : String} {value : Value}
  {type type' : Value → α → Prop} {default content : α}

theorem given_of_lookup (found : members.lookup name = some value) (typed : type value content) :
    Given members name type default content := by
  rw [Given, found]
  exact typed

theorem given_cons_self :
    Given ((name, value) :: members) name type default content ↔ type value content := by
  simp [Given]

theorem given_cons_of_ne {other : String} (differ : name ≠ other) :
    Given ((other, value) :: members) name type default content ↔
      Given members name type default content := by
  simp [Given, List.lookup_cons, beq_false_of_ne differ]

theorem given_congr
    (same : ∀ value, (name, value) ∈ members → (type value content ↔ type' value content)) :
    Given members name type default content ↔ Given members name type' default content := by
  unfold Given
  cases found : members.lookup name with
  | none => exact Iff.rfl
  | some value =>
      obtain ⟨front, behind, rfl, _⟩ := List.lookup_eq_some_iff.mp found
      exact same value List.mem_append_cons_self

end

/-! Slots by their names. -/

variable {σ : Type}

theorem mem_eraseP_name {slots : List (Slot σ)} (once : (slots.map Slot.name).Nodup) {slot : Slot σ}
    {name : String} :
    slot ∈ slots.eraseP (fun slot => slot.name = name) ↔ slot ∈ slots ∧ slot.name ≠ name := by
  induction slots with
  | nil => simp
  | cons first slots inductionHypothesis =>
      rw [List.map_cons, List.nodup_cons] at once
      by_cases same : first.name = name
      · rw [List.eraseP_cons_of_pos (by simpa using same), List.mem_cons]
        constructor
        · intro member
          refine ⟨Or.inr member, fun same' => once.1 ?_⟩
          rw [same, ← same']
          exact List.mem_map_of_mem member
        · rintro ⟨rfl | member, differ⟩
          · exact absurd same differ
          · exact member
      · rw [List.eraseP_cons_of_neg (by simpa using same), List.mem_cons, List.mem_cons,
          inductionHypothesis once.2]
        constructor
        · rintro (rfl | ⟨member, differ⟩)
          · exact ⟨Or.inl rfl, same⟩
          · exact ⟨Or.inr member, differ⟩
        · rintro ⟨rfl | member, differ⟩
          · exact Or.inl rfl
          · exact Or.inr ⟨member, differ⟩

theorem nodup_eraseP_name {slots : List (Slot σ)} (once : (slots.map Slot.name).Nodup)
    (name : String) :
    ((slots.eraseP fun slot => slot.name = name).map Slot.name).Nodup :=
  once.sublist (List.eraseP_sublist.map Slot.name)

theorem slot_of_find? {slots : List (Slot σ)} {slot : Slot σ} {name : String}
    (found : (slots.find? fun slot => slot.name = name) = some slot) :
    slot ∈ slots ∧ slot.name = name :=
  ⟨List.mem_of_find?_eq_some found, by simpa using List.find?_some found⟩

theorem find?_name {slots : List (Slot σ)} (once : (slots.map Slot.name).Nodup) {slot : Slot σ}
    (present : slot ∈ slots) : (slots.find? fun other => other.name = slot.name) = some slot := by
  cases found : slots.find? fun other => other.name = slot.name with
  | none => simpa using List.find?_eq_none.mp found slot present
  | some other =>
      obtain ⟨present', same⟩ := slot_of_find? found
      rw [List.inj_on_of_nodup_map once present' present same]

theorem Takes.named {unread : List (Slot σ)} {record result : σ} {members : List (String × Value)}
    (takes : Takes unread record members result) (once : (unread.map Slot.name).Nodup) :
    Named (unread.map Slot.name) members := by
  induction takes with
  | nothing => exact ⟨by simp, by simp⟩
  | @member unread record result name value members slot content found typed others
      inductionHypothesis =>
      have named := inductionHypothesis (nodup_eraseP_name once name)
      obtain ⟨present, rfl⟩ := slot_of_find? found
      -- The slots that are left are slots with other names.
      have left (member : String × Value) (listed : member ∈ members) :
          member.1 ∈ unread.map Slot.name ∧ member.1 ≠ slot.name := by
        obtain ⟨other, unused, same⟩ := List.mem_map.mp (named.known member listed)
        obtain ⟨present', differ⟩ := (mem_eraseP_name once).mp unused
        exact ⟨same ▸ List.mem_map_of_mem present', same ▸ differ⟩
      refine ⟨?_, List.nodup_cons.mpr ⟨?_, named.once⟩⟩
      · intro member listed
        rcases List.mem_cons.mp listed with rfl | listed
        · exact List.mem_map_of_mem present
        · exact (left member listed).1
      · intro repeated
        obtain ⟨member, listed, same⟩ := List.mem_map.mp repeated
        exact (left member listed).2 same

namespace Layout

variable {layout : Layout σ}

theorem eq_of_name_eq {slot other : Slot σ} (member : slot ∈ layout.slots)
    (member' : other ∈ layout.slots) (same : slot.name = other.name) : slot = other :=
  List.inj_on_of_nodup_map layout.once member member' same

/-- A slot that can still be used gets what is given, and one that cannot keeps what it has. -/
theorem given_of_takes {unread : List (Slot σ)} {record result : σ}
    {members : List (String × Value)} (takes : Takes unread record members result)
    (inside : unread.Sublist layout.slots) {slot : Slot σ} (present : slot ∈ layout.slots) :
    (slot ∈ unread → Given members slot.name slot.type (slot.get record) (slot.get result)) ∧
      (slot ∉ unread → slot.get result = slot.get record) := by
  induction takes with
  | nothing => exact ⟨fun _ => rfl, fun _ => rfl⟩
  | @member unread record result name value members used content found typed others
      inductionHypothesis =>
      have once : (unread.map Slot.name).Nodup := layout.once.sublist (inside.map Slot.name)
      obtain ⟨unused, rfl⟩ := slot_of_find? found
      have behind := inductionHypothesis (List.eraseP_sublist.trans inside)
      rw [mem_eraseP_name once] at behind
      by_cases same : slot.name = used.name
      · -- The slot is used up here, and what comes behind leaves it alone.
        obtain rfl := layout.eq_of_name_eq present (inside.subset unused) same
        have kept : slot.get result = content := by
          rw [behind.2 fun left => left.2 rfl, slot.get_put]
        exact ⟨fun _ => given_cons_self.mpr (kept ▸ typed), fun left => absurd unused left⟩
      · rw [given_cons_of_ne same,
          ← layout.apart slot present used (inside.subset unused) same record content]
        exact ⟨fun left => behind.1 ⟨left, same⟩, fun gone => behind.2 fun left => gone left.1⟩

/-- Members with names of unused slots can be taken if they give the slots what they have in the
end, and the slots that are used up have it already. -/
theorem takes_of_given {unread : List (Slot σ)} {record result : σ}
    {members : List (String × Value)} (inside : unread.Sublist layout.slots)
    (named : Named (unread.map Slot.name) members)
    (given : ∀ slot ∈ unread, Given members slot.name slot.type (slot.get record) (slot.get result))
    (settled : ∀ slot ∈ layout.slots, slot ∉ unread → slot.get record = slot.get result) :
    Takes unread record members result := by
  -- Each member takes its slot, which then has what it has in the end and joins the slots that are
  -- used up.
  induction members generalizing unread record with
  | nil =>
      obtain rfl : record = result := by
        refine layout.ext record result fun slot present => ?_
        by_cases unused : slot ∈ unread
        · exact (given slot unused).symm
        · exact settled slot present unused
      exact .nothing
  | cons member members inductionHypothesis =>
      obtain ⟨name, value⟩ := member
      have once : (unread.map Slot.name).Nodup := layout.once.sublist (inside.map Slot.name)
      obtain ⟨slot, unused, rfl⟩ := List.mem_map.mp (named.known _ List.mem_cons_self)
      obtain ⟨fresh, onceBehind⟩ := List.nodup_cons.mp named.once
      have found := find?_name once unused
      refine .member found (given_cons_self.mp (given slot unused)) (inductionHypothesis
        (List.eraseP_sublist.trans inside) ⟨?_, onceBehind⟩ ?_ ?_)
      · intro member listed
        obtain ⟨other, unused', same⟩ :=
          List.mem_map.mp (named.known member (List.mem_cons_of_mem _ listed))
        have differ : other.name ≠ slot.name := by
          intro repeated
          have again : member.1 ∈ members.map Prod.fst := List.mem_map_of_mem listed
          rw [← same, repeated] at again
          exact fresh again
        exact same ▸ List.mem_map_of_mem ((mem_eraseP_name once).mpr ⟨unused', differ⟩)
      · intro other left
        obtain ⟨unused', differ⟩ := (mem_eraseP_name once).mp left
        rw [layout.apart other (inside.subset unused') slot (inside.subset unused) differ]
        exact (given_cons_of_ne differ).mp (given other unused')
      · intro other present gone
        by_cases same : other.name = slot.name
        · obtain rfl := layout.eq_of_name_eq present (inside.subset unused) same
          exact other.get_put record _
        · rw [layout.apart other present slot (inside.subset unused) same]
          exact settled other present fun unused' =>
            gone ((mem_eraseP_name once).mpr ⟨unused', same⟩)

/-- What an object makes of a record: its names are names of slots, none comes twice, and every slot
has what is given or what it had. -/
theorem takes_iff {start record : σ} {members : List (String × Value)} :
    Takes layout.slots start members record ↔ Named (layout.slots.map Slot.name) members ∧
      ∀ slot ∈ layout.slots, Given members slot.name slot.type (slot.get start)
        (slot.get record) := by
  constructor
  · intro takes
    exact ⟨takes.named layout.once, fun slot present =>
      (layout.given_of_takes takes (List.Sublist.refl _) present).1 present⟩
  · rintro ⟨named, given⟩
    exact layout.takes_of_given (List.Sublist.refl _) named given fun slot present gone =>
      absurd present gone

end Layout

end CommandShell.Json

import CommandShell.Json.Record
import CommandShell.Proofs.Json.Scalar

/-!
Reading records. The members of an object are taken one by one, each into the slot of its name, and
every slot is used at most once. So an object is read as a record exactly if its names are names of
slots, no name comes twice and every value has the type of its slot; and a slot without a member
keeps what it had.
-/

namespace CommandShell.Json

/-! Marks between values. -/

theorem Blank.trans {text middle rest : List Char} (front : Blank text middle)
    (behind : Blank middle rest) :
    Blank text rest := by
  induction front with
  | nothing => exact behind
  | space isSpace _ inductionHypothesis => exact .space isSpace (inductionHypothesis behind)

theorem blank_of_skipSpace {cursor : Cursor} {c : Char} {others : List Char}
    (begins : cursor.skipSpace.rest = c :: others) :
    Blank cursor.rest (c :: cursor.skipSpace.advance.rest) := by
  rw [rest_advance begins, ← begins]
  exact blank_skipSpace cursor

theorem blank_of_readColon {cursor cursor' : Cursor}
    (reads : readColon cursor = .ok ((), cursor')) :
    Blank cursor.rest (':' :: cursor'.rest) := by
  unfold readColon at reads
  dsimp only at reads
  split at reads
  · next others begins =>
    obtain ⟨-, rfl⟩ := Prod.mk.inj (Except.ok.inj reads)
    exact blank_of_skipSpace begins
  · contradiction
  · contradiction

theorem Blank.readColon {text rest : List Char} (blank : Blank text (':' :: rest)) (offset : Nat) :
    ∃ offset', Json.readColon ⟨text, offset⟩ = .ok ((), ⟨rest, offset'⟩) := by
  obtain ⟨here, skips⟩ := blank.skipSpace rfl offset
  exact ⟨here + 1, by simp [Json.readColon, skips, Cursor.advance]⟩

/-- What stands between the start of a member or element and the text before it: a comma, unless it
is the first. -/
def Parted : Bool → List Char → List Char → Prop
  | true, text, rest => Blank text rest
  | false, text, rest => ∃ behind, Blank text (',' :: behind) ∧ Blank behind rest

theorem Parted.trans {first : Bool} {text middle rest : List Char}
    (parted : Parted first text middle) (blank : Blank middle rest) : Parted first text rest := by
  cases first with
  | true => exact Blank.trans parted blank
  | false =>
      obtain ⟨behind, comma, space⟩ := parted
      exact ⟨behind, comma, space.trans blank⟩

/-- The members of an object from its opening brace on, or from behind a member on. -/
def MembersFrom : Bool → List (String × Value) → List Char → List Char → Prop
  | true, members, text, rest => Written (.object members) ('\x7b' :: text) rest
  | false, members, text, rest => WrittenMembers members text rest

theorem MembersFrom.close {first : Bool} {text rest : List Char}
    (blank : Blank text ('\x7d' :: rest)) :
    MembersFrom first [] text rest := by
  cases first with
  | true => exact Written.emptyObject blank
  | false => exact WrittenMembers.close blank

theorem MembersFrom.next {first : Bool} {name : String} {value : Value}
    {others : List (String × Value)} {text member more rest : List Char}
    (parted : Parted first text member) (written : WrittenMember name value member more)
    (members : WrittenMembers others more rest) :
    MembersFrom first ((name, value) :: others) text rest := by
  cases first with
  | true => exact Written.object parted written members
  | false =>
      obtain ⟨behind, comma, blank⟩ := parted
      exact WrittenMembers.next comma blank written members

theorem MembersFrom.blank {first : Bool} {text rest : List Char}
    (members : MembersFrom first [] text rest) :
    Blank text ('\x7d' :: rest) := by
  cases first with
  | true =>
      cases members with
      | emptyObject blank => exact blank
  | false =>
      cases members with
      | close blank => exact blank

theorem MembersFrom.parts {first : Bool} {name : String} {value : Value}
    {others : List (String × Value)} {text rest : List Char}
    (members : MembersFrom first ((name, value) :: others) text rest) :
    ∃ member more, Parted first text member ∧ WrittenMember name value member more ∧
      WrittenMembers others more rest := by
  cases first with
  | true =>
      cases members with
      | object blank written members => exact ⟨_, _, blank, written, members⟩
  | false =>
      cases members with
      | next comma blank written members => exact ⟨_, _, ⟨_, comma, blank⟩, written, members⟩

theorem readMemberStart_cases {first more : Bool} {cursor cursor' : Cursor}
    (reads : readMemberStart first cursor = .ok (more, cursor')) :
    (more = false ∧ Blank cursor.rest ('\x7d' :: cursor'.advance.rest)) ∨
      (more = true ∧ Parted first cursor.rest ('\x22' :: cursor'.rest)) := by
  unfold readMemberStart at reads
  dsimp only at reads
  split at reads
  · contradiction
  · next others begins =>
    obtain ⟨rfl, rfl⟩ := Prod.mk.inj (Except.ok.inj reads)
    exact Or.inl ⟨rfl, blank_of_skipSpace begins⟩
  · next c others _ begins =>
    split at reads
    · next isFirst =>
      split at reads
      · next quote =>
        obtain ⟨rfl, rfl⟩ := Prod.mk.inj (Except.ok.inj reads)
        subst isFirst quote
        exact Or.inr ⟨rfl, blank_of_skipSpace begins⟩
      · contradiction
    · next isFirst =>
      split at reads
      · next comma =>
        split at reads
        · contradiction
        · next others' begins' =>
          obtain ⟨rfl, rfl⟩ := Prod.mk.inj (Except.ok.inj reads)
          obtain rfl : first = false := by simpa using isFirst
          subst comma
          exact Or.inr ⟨rfl, _, blank_of_skipSpace begins, blank_of_skipSpace begins'⟩
        · contradiction
        · contradiction
      · contradiction

theorem readMemberStart_close {text rest : List Char} (blank : Blank text ('\x7d' :: rest))
    (first : Bool) (offset : Nat) :
    ∃ offset', readMemberStart first ⟨text, offset⟩ = .ok (false, ⟨'\x7d' :: rest, offset'⟩) := by
  obtain ⟨here, skips⟩ := blank.skipSpace rfl offset
  exact ⟨here, by simp [readMemberStart, skips]⟩

theorem readMemberStart_next {first : Bool} {text rest : List Char}
    (parted : Parted first text ('\x22' :: rest)) (offset : Nat) :
    ∃ offset', readMemberStart first ⟨text, offset⟩ = .ok (true, ⟨rest, offset'⟩) := by
  cases first with
  | true =>
      obtain ⟨here, skips⟩ := Blank.skipSpace parted rfl offset
      exact ⟨here + 1, by simp [readMemberStart, skips, Cursor.advance]⟩
  | false =>
      obtain ⟨behind, comma, blank⟩ := parted
      obtain ⟨here, skips⟩ := comma.skipSpace rfl offset
      obtain ⟨there, skips'⟩ := blank.skipSpace rfl (here + 1)
      exact ⟨there + 1, by simp [readMemberStart, skips, skips', Cursor.advance]⟩

/-! Slots of a record. -/

/-- A slot of a record: its name, the type of its values, and a reader of the type. -/
structure Slot (σ : Type) where
  name : String
  {α : Type}
  reader : Reader α
  type : Value → α → Prop
  reads : Reads reader type
  get : σ → α
  put : σ → α → σ
  get_put : ∀ record value, get (put record value) = value

/-- The slot as a field to be read. -/
def Slot.field {σ : Type} (slot : Slot σ) : RecordField σ where
  name := slot.name
  read record cursor := (slot.reader cursor).map fun read => (slot.put record read.1, read.2)

variable {σ : Type}

/-- Members taken one by one, each into the slot of its name. -/
inductive Takes : List (Slot σ) → σ → List (String × Value) → σ → Prop where
  | nothing {unread : List (Slot σ)} {record : σ} : Takes unread record [] record
  | member {unread : List (Slot σ)} {record result : σ} {name : String} {value : Value}
      {members : List (String × Value)} {slot : Slot σ} {content : slot.α}
      (found : (unread.find? fun slot => slot.name = name) = some slot)
        (typed : slot.type value content)
      (others : Takes (unread.eraseP fun slot => slot.name = name) (slot.put record content) members
        result) :
      Takes unread record ((name, value) :: members) result

theorem find?_field (slots : List (Slot σ)) (name : String) :
    ((slots.map Slot.field).find? fun field => field.name = name) =
      (slots.find? fun slot => slot.name = name).map Slot.field :=
  List.find?_map

theorem eraseP_field (slots : List (Slot σ)) (name : String) :
    ((slots.map Slot.field).eraseP fun field => field.name = name) =
      (slots.eraseP fun slot => slot.name = name).map Slot.field :=
  List.eraseP_map

theorem written_of_read {slot : Slot σ} {record result : σ} {cursor cursor' : Cursor}
    (reads : slot.field.read record cursor = .ok (result, cursor')) :
    ∃ value text content, Blank cursor.rest text ∧ Written value text cursor'.rest ∧
      slot.type value content ∧
      result = slot.put record content := by
  obtain ⟨⟨content, behind⟩, read, same⟩ := map_eq_ok_iff.mp reads
  obtain ⟨rfl, rfl⟩ := Prod.mk.inj same
  obtain ⟨value, text, blank, written, typed⟩ := slot.reads.sound read
  exact ⟨value, text, content, blank, written, typed, rfl⟩

theorem Slot.read_written {slot : Slot σ} {value : Value} {content : slot.α}
    {text begin rest : List Char} (blank : Blank text begin) (written : Written value begin rest)
    (typed : slot.type value content) (record : σ) (offset : Nat) :
    ∃ offset', slot.field.read record ⟨text, offset⟩ =
      .ok (slot.put record content, ⟨rest, offset'⟩) := by
  obtain ⟨offset', reads⟩ := slot.reads.complete blank written typed offset
  exact ⟨offset', map_eq_ok_iff.mpr ⟨_, reads, rfl⟩⟩

theorem takes_of_readMembers {fields : List (RecordField σ)} {unread : List (Slot σ)} {first : Bool}
    {record result : σ} {cursor cursor' : Cursor}
    (reads : readMembers fields (unread.map Slot.field) first record cursor =
      .ok (result, cursor')) :
    ∃ members, MembersFrom first members cursor.rest cursor'.rest ∧
      Takes unread record members result := by
  -- Every member uses a slot up, so there are fewer of them behind it.
  induction size' : unread.length using Nat.strongRecOn generalizing unread first record cursor with
  | ind size inductionHypothesis =>
      rw [readMembers, bind_eq_ok_iff] at reads
      obtain ⟨⟨more, start⟩, starts, reads⟩ := reads
      obtain ⟨rfl, closed⟩ | ⟨rfl, parted⟩ := readMemberStart_cases starts
      · obtain ⟨rfl, rfl⟩ := Prod.mk.inj (Except.ok.inj reads)
        exact ⟨[], .close closed, .nothing⟩
      · obtain ⟨⟨name, behind⟩, letters, reads⟩ := bind_eq_ok_iff.mp reads
        dsimp only at reads
        split at reads
        · next field found =>
          rw [find?_field, Option.map_eq_some_iff] at found
          obtain ⟨slot, found, rfl⟩ := found
          obtain ⟨⟨⟨⟩, begin⟩, colon, reads⟩ := bind_eq_ok_iff.mp reads
          obtain ⟨⟨record', there⟩, read, reads⟩ := bind_eq_ok_iff.mp reads
          obtain ⟨value, text, content, blank, written, typed, rfl⟩ := written_of_read read
          rw [eraseP_field] at reads
          have shorter : (unread.eraseP fun slot => slot.name = name).length < size := by
            have member := List.mem_of_find?_eq_some found
            rw [List.length_eraseP_of_mem member (List.find?_some found), ← size']
            exact Nat.sub_lt (List.length_pos_of_mem member) Nat.one_pos
          obtain ⟨members, others, takes⟩ := inductionHypothesis _ shorter reads rfl
          exact ⟨(name, value) :: members,
            .next parted ⟨letters_of_readText letters, blank_of_readColon colon, blank, written⟩
              others,
            .member found typed takes⟩
        · split at reads <;> contradiction

theorem Takes.readMembers {unread : List (Slot σ)} {record result : σ}
    {members : List (String × Value)} (takes : Takes unread record members result)
    (fields : List (RecordField σ)) {first : Bool} {text rest : List Char}
    (written : MembersFrom first members text rest) (offset : Nat) :
    ∃ offset', Json.readMembers fields (unread.map Slot.field) first record ⟨text, offset⟩ =
      .ok (result, ⟨rest, offset'⟩) := by
  induction takes generalizing first text offset with
  | nothing =>
      obtain ⟨here, starts⟩ := readMemberStart_close written.blank first offset
      exact ⟨here + 1, by rw [Json.readMembers, starts]; rfl⟩
  | @member unread record result name value members slot content found typed others
      inductionHypothesis =>
      obtain ⟨member, more, parted, ⟨letters, colon, blank, written⟩, behind⟩ := written.parts
      have behind : MembersFrom false members more rest := behind
      obtain ⟨start, starts⟩ := readMemberStart_next parted offset
      obtain ⟨named, letters⟩ := letters.readText start
      obtain ⟨begin, colon⟩ := colon.readColon named
      obtain ⟨there, reads⟩ := Slot.read_written blank written typed record begin
      obtain ⟨offset', readsOthers⟩ := inductionHypothesis behind there
      refine ⟨offset', ?_⟩
      have known : ((unread.map Slot.field).find? fun field => field.name = name) =
          some slot.field := by
        rw [find?_field, found, Option.map_some]
      rw [Json.readMembers, starts]
      simp only [bind, Except.bind, letters, colon, Bool.not_true, Bool.false_eq_true, if_false]
      split
      · next field found' =>
        obtain rfl : field = slot.field := Option.some.inj (found'.symm.trans known)
        simp only [reads, eraseP_field]
        exact readsOthers
      · next missing => simp [missing] at known

/-! Records as lists. -/

/-- The elements of a list from its opening bracket on, or from behind an element on. -/
def ElementsFrom : Bool → List Value → List Char → List Char → Prop
  | true, elements, text, rest => Written (.array elements) ('[' :: text) rest
  | false, elements, text, rest => WrittenElements elements text rest

theorem ElementsFrom.close {first : Bool} {text rest : List Char}
    (blank : Blank text (']' :: rest)) :
    ElementsFrom first [] text rest := by
  cases first with
  | true => exact Written.emptyArray blank
  | false => exact WrittenElements.close blank

theorem ElementsFrom.next {first : Bool} {value : Value} {others : List Value}
    {text element more rest : List Char} (parted : Parted first text element)
    (written : Written value element more) (elements : WrittenElements others more rest) :
    ElementsFrom first (value :: others) text rest := by
  cases first with
  | true => exact Written.array parted written elements
  | false =>
      obtain ⟨behind, comma, blank⟩ := parted
      exact WrittenElements.next comma blank written elements

theorem ElementsFrom.blank {first : Bool} {text rest : List Char}
    (elements : ElementsFrom first [] text rest) :
    Blank text (']' :: rest) := by
  cases first with
  | true =>
      cases elements with
      | emptyArray blank => exact blank
  | false =>
      cases elements with
      | close blank => exact blank

theorem ElementsFrom.parts {first : Bool} {value : Value} {others : List Value}
    {text rest : List Char} (elements : ElementsFrom first (value :: others) text rest) :
    ∃ element more, Parted first text element ∧ Written value element more ∧
      WrittenElements others more rest := by
  cases first with
  | true =>
      cases elements with
      | array blank written elements => exact ⟨_, _, blank, written, elements⟩
  | false =>
      cases elements with
      | next comma blank written elements => exact ⟨_, _, ⟨_, comma, blank⟩, written, elements⟩

theorem readElementStart_cases {first more : Bool} {cursor cursor' : Cursor}
    (reads : readElementStart first cursor = .ok (more, cursor')) :
    (more = false ∧ Blank cursor.rest (']' :: cursor'.advance.rest)) ∨
      (more = true ∧ Parted first cursor.rest cursor'.rest) := by
  unfold readElementStart at reads
  dsimp only at reads
  split at reads
  · contradiction
  · next others begins =>
    obtain ⟨rfl, rfl⟩ := Prod.mk.inj (Except.ok.inj reads)
    exact Or.inl ⟨rfl, blank_of_skipSpace begins⟩
  · next c others _ begins =>
    split at reads
    · next isFirst =>
      obtain ⟨rfl, rfl⟩ := Prod.mk.inj (Except.ok.inj reads)
      subst isFirst
      exact Or.inr ⟨rfl, blank_skipSpace cursor⟩
    · next isFirst =>
      split at reads
      · next comma =>
        split at reads
        · contradiction
        · contradiction
        · obtain ⟨rfl, rfl⟩ := Prod.mk.inj (Except.ok.inj reads)
          obtain rfl : first = false := by simpa using isFirst
          subst comma
          exact Or.inr ⟨rfl, _, blank_of_skipSpace begins, blank_skipSpace _⟩
      · contradiction

theorem readElementStart_close {text rest : List Char} (blank : Blank text (']' :: rest))
    (first : Bool) (offset : Nat) :
    ∃ offset', readElementStart first ⟨text, offset⟩ = .ok (false, ⟨']' :: rest, offset'⟩) := by
  obtain ⟨here, skips⟩ := blank.skipSpace rfl offset
  exact ⟨here, by simp [readElementStart, skips]⟩

theorem readElementStart_next {first : Bool} {value : Value} {text element rest : List Char}
    (parted : Parted first text element) (written : Written value element rest) (offset : Nat) :
    ∃ offset', readElementStart first ⟨text, offset⟩ = .ok (true, ⟨element, offset'⟩) := by
  obtain ⟨c, others, rfl, solid, isElement⟩ := written.exists_eq_cons
  cases first with
  | true =>
      obtain ⟨here, skips⟩ := Blank.skipSpace parted solid offset
      exact ⟨here, by simp [readElementStart, skips]⟩
  | false =>
      obtain ⟨behind, comma, blank⟩ := parted
      obtain ⟨here, skips⟩ := comma.skipSpace rfl offset
      obtain ⟨there, skips'⟩ := blank.skipSpace solid (here + 1)
      exact ⟨there, by simp [readElementStart, skips, skips', Cursor.advance, isElement]⟩

theorem blank_of_readListEnd {cursor cursor' : Cursor}
    (reads : readListEnd cursor = .ok ((), cursor')) :
    Blank cursor.rest (']' :: cursor'.rest) := by
  unfold readListEnd at reads
  dsimp only at reads
  split at reads
  · next others begins =>
    obtain ⟨-, rfl⟩ := Prod.mk.inj (Except.ok.inj reads)
    exact blank_of_skipSpace begins
  · split at reads <;> contradiction
  · contradiction
  · contradiction

theorem Blank.readListEnd {text rest : List Char} (blank : Blank text (']' :: rest))
    (offset : Nat) :
    ∃ offset', Json.readListEnd ⟨text, offset⟩ = .ok ((), ⟨rest, offset'⟩) := by
  obtain ⟨here, skips⟩ := blank.skipSpace rfl offset
  exact ⟨here + 1, by simp [Json.readListEnd, skips, Cursor.advance]⟩

/-- Elements taken in turn. There may be fewer of them than slots. -/
inductive TakesInTurn : List (Slot σ) → σ → List Value → σ → Prop where
  | nothing {slots : List (Slot σ)} {record : σ} : TakesInTurn slots record [] record
  | element {slot : Slot σ} {slots : List (Slot σ)} {record result : σ} {value : Value}
      {elements : List Value}
      {content : slot.α} (typed : slot.type value content)
      (others : TakesInTurn slots (slot.put record content) elements result) :
      TakesInTurn (slot :: slots) record (value :: elements) result

theorem takesInTurn_of_readElements {slots : List (Slot σ)} {first : Bool} {record result : σ}
    {cursor cursor' : Cursor}
    (reads : readElements first record (slots.map Slot.field) cursor = .ok (result, cursor')) :
    ∃ elements, ElementsFrom first elements cursor.rest cursor'.rest ∧
      TakesInTurn slots record elements result := by
  induction slots generalizing first record cursor with
  | nil =>
      obtain ⟨⟨⟨⟩, behind⟩, closed, same⟩ := bind_eq_ok_iff.mp reads
      obtain ⟨rfl, rfl⟩ := Prod.mk.inj (Except.ok.inj same)
      exact ⟨[], .close (blank_of_readListEnd closed), .nothing⟩
  | cons slot slots inductionHypothesis =>
      obtain ⟨⟨more, start⟩, starts, reads⟩ := bind_eq_ok_iff.mp reads
      obtain ⟨rfl, closed⟩ | ⟨rfl, parted⟩ := readElementStart_cases starts
      · obtain ⟨rfl, rfl⟩ := Prod.mk.inj (Except.ok.inj reads)
        exact ⟨[], .close closed, .nothing⟩
      · obtain ⟨⟨record', there⟩, read, reads⟩ := bind_eq_ok_iff.mp reads
        obtain ⟨value, text, content, blank, written, typed, rfl⟩ := written_of_read read
        obtain ⟨elements, others, takes⟩ := inductionHypothesis reads
        exact ⟨value :: elements, .next (parted.trans blank) written others, .element typed takes⟩

theorem TakesInTurn.readElements {slots : List (Slot σ)} {record result : σ} {elements : List Value}
    (takes : TakesInTurn slots record elements result) {first : Bool} {text rest : List Char}
    (written : ElementsFrom first elements text rest) (offset : Nat) :
    ∃ offset', Json.readElements first record (slots.map Slot.field) ⟨text, offset⟩ =
      .ok (result, ⟨rest, offset'⟩) := by
  induction takes generalizing first text offset with
  | @nothing slots record =>
      cases slots with
      | nil =>
          obtain ⟨here, closed⟩ := written.blank.readListEnd offset
          exact ⟨here, bind_eq_ok_iff.mpr ⟨_, closed, rfl⟩⟩
      | cons slot slots =>
          obtain ⟨here, starts⟩ := readElementStart_close written.blank first offset
          exact ⟨here + 1, bind_eq_ok_iff.mpr ⟨_, starts, rfl⟩⟩
  | @element slot slots record result value elements content typed others inductionHypothesis =>
      obtain ⟨element, more, parted, written, behind⟩ := written.parts
      have behind : ElementsFrom false elements more rest := behind
      obtain ⟨start, starts⟩ := readElementStart_next parted written offset
      obtain ⟨there, reads⟩ := Slot.read_written .nothing written typed record start
      obtain ⟨offset', readsOthers⟩ := inductionHypothesis behind there
      exact ⟨offset', bind_eq_ok_iff.mpr ⟨_, starts, bind_eq_ok_iff.mpr ⟨_, reads, readsOthers⟩⟩⟩

/-! Records. -/

/-- A record from what it is if nothing is given: an object with a member for each slot that is
given, or a list of the slots in turn. -/
def IsRecord (slots : List (Slot σ)) (start : σ) : Value → σ → Prop
  | .object members, record => Takes slots start members record
  | .array elements, record => TakesInTurn slots start elements record
  | _, _ => False

theorem reads_readRecord (label : String) (slots : List (Slot σ)) (start : σ) :
    Reads (readRecord label (slots.map Slot.field) start) (IsRecord slots start) where
  sound := by
    intro cursor cursor' result reads
    unfold readRecord at reads
    dsimp only at reads
    split at reads
    · next others begins =>
      obtain ⟨members, written, takes⟩ := takes_of_readMembers reads
      exact ⟨.object members, _, blank_of_skipSpace begins, written, takes⟩
    · next others begins =>
      obtain ⟨elements, written, takes⟩ := takesInTurn_of_readElements reads
      exact ⟨.array elements, _, blank_of_skipSpace begins, written, takes⟩
    · obtain ⟨_, _, known⟩ := readAs_eq_ok_iff.mp reads
      contradiction
  complete := by
    intro value text begin rest result blank written typed offset
    obtain ⟨here, skips⟩ := written.skipSpace blank offset
    cases value with
    | object members =>
        have starts : ∃ text', begin = '\x7b' :: text' ∧ MembersFrom true members text' rest := by
          cases written with
          | emptyObject space => exact ⟨_, rfl, .emptyObject space⟩
          | object space written members => exact ⟨_, rfl, .object space written members⟩
        obtain ⟨text', rfl, members⟩ := starts
        obtain ⟨behind, reads⟩ := Takes.readMembers typed (slots.map Slot.field) members (here + 1)
        exact ⟨behind, by simpa [readRecord, skips, Cursor.advance] using reads⟩
    | array elements =>
        have starts : ∃ text', begin = '[' :: text' ∧ ElementsFrom true elements text' rest := by
          cases written with
          | emptyArray space => exact ⟨_, rfl, .emptyArray space⟩
          | array space written elements => exact ⟨_, rfl, .array space written elements⟩
        obtain ⟨text', rfl, elements⟩ := starts
        obtain ⟨behind, reads⟩ := TakesInTurn.readElements typed elements (here + 1)
        exact ⟨behind, by simpa [readRecord, skips, Cursor.advance] using reads⟩
    | _ => exact typed.elim

/-! Names out of a list. -/

/-- One of the names, as a text or as the only name in an object, with `null`. -/
def IsVariant {α : Type} (variants : List (String × α)) (value : Value) (result : α) : Prop :=
  ∃ name, (value = .string name ∨ value = .object [(name, .null)]) ∧
    ∃ variant, (variants.find? fun variant => variant.1 = name) = some variant ∧ variant.2 = result

theorem letters_of_readOnlyName {name : String} {cursor cursor' : Cursor}
    (reads : readOnlyName cursor = .ok (name, cursor')) :
    ∃ text, Blank cursor.rest ('\x22' :: text) ∧ Letters name.toList text cursor'.rest := by
  unfold readOnlyName at reads
  dsimp only at reads
  split at reads
  · next others begins => exact ⟨_, blank_of_skipSpace begins, letters_of_readText reads⟩
  · contradiction
  · contradiction
  · contradiction

theorem reads_readVariant {α : Type} (variants : List (String × α)) :
    Reads (readVariant variants) (IsVariant variants) where
  sound := by
    intro cursor cursor' result reads
    unfold readVariant at reads
    dsimp only at reads
    split at reads
    · next others begins =>
      obtain ⟨⟨name, behind⟩, letters, reads⟩ := bind_eq_ok_iff.mp reads
      obtain ⟨variant, named, same⟩ := bind_eq_ok_iff.mp reads
      obtain ⟨rfl, rfl⟩ := Prod.mk.inj (Except.ok.inj same)
      dsimp only at named
      split at named
      · next variant found =>
        obtain rfl := Except.ok.inj named
        exact ⟨.string name, _, blank_of_skipSpace begins, .string (letters_of_readText letters),
          name, Or.inl rfl, variant, found, rfl⟩
      · contradiction
    · next others begins =>
      obtain ⟨⟨name, behind⟩, onlyName, reads⟩ := bind_eq_ok_iff.mp reads
      obtain ⟨variant, named, reads⟩ := bind_eq_ok_iff.mp reads
      obtain ⟨⟨⟨⟩, there⟩, colon, reads⟩ := bind_eq_ok_iff.mp reads
      obtain ⟨⟨⟨⟩, ending⟩, null, reads⟩ := bind_eq_ok_iff.mp reads
      obtain ⟨text, opening, letters⟩ := letters_of_readOnlyName onlyName
      obtain ⟨_, begin, blank, written, rfl⟩ := reads_readNull.sound null
      dsimp only at named reads
      split at named
      · next variant found =>
        obtain rfl := Except.ok.inj named
        split at reads
        · next others' begins' =>
          obtain ⟨rfl, rfl⟩ := Prod.mk.inj (Except.ok.inj reads)
          have member : WrittenMember name .null ('\x22' :: text) ending.rest :=
            .mk letters (blank_of_readColon colon) blank written
          exact ⟨.object [(name, .null)], _, blank_of_skipSpace begins,
            .object opening member (.close (blank_of_skipSpace begins')), name, Or.inr rfl, variant,
            found, rfl⟩
        · contradiction
        · contradiction
      · contradiction
    · contradiction
    · contradiction
  complete := by
    rintro value text begin rest result blank written ⟨name, rfl | rfl, variant, found, rfl⟩ offset
    · cases written with
      | string letters =>
          obtain ⟨here, skips⟩ := blank.skipSpace rfl offset
          obtain ⟨behind, letters⟩ := letters.readText (here + 1)
          exact ⟨behind, by
            simp [readVariant, skips, Cursor.advance, letters, found, bind, Except.bind, pure,
              Except.pure]⟩
    · cases written with
      | object opening written members =>
          obtain ⟨letters, colon, space, written⟩ := written
          obtain ⟨here, skips⟩ := blank.skipSpace rfl offset
          obtain ⟨open', skips'⟩ := opening.skipSpace rfl (here + 1)
          obtain ⟨behind, letters⟩ := letters.readText (open' + 1)
          obtain ⟨there, colon⟩ := colon.readColon behind
          obtain ⟨ending, null⟩ : ∃ ending, readNull ⟨_, there⟩ = .ok ((), ⟨_, ending⟩) :=
            reads_readNull.complete space written rfl there
          have only : MembersFrom false [] _ rest := members
          obtain ⟨close, skips''⟩ := only.blank.skipSpace rfl ending
          exact ⟨close + 1, by
            simp [readVariant, readOnlyName, skips, skips', skips'', Cursor.advance, letters, found,
              colon, null, bind, Except.bind, pure, Except.pure]⟩

/-! Documents. -/

theorem Blank.skipSpace_nil {text : List Char} (blank : Blank text []) (offset : Nat) :
    (Cursor.skipSpace ⟨text, offset⟩).rest = [] := by
  generalize ends : ([] : List Char) = rest at blank
  induction blank with
  | nothing =>
      subst ends
      rfl
  | space isSpace blank inductionHypothesis => 
      subst ends
      exact (List.dropWhile_cons_of_pos isSpace).trans (inductionHypothesis rfl)

/-- A document is read exactly if it is one of a value of the type. -/
theorem Reads.readDocument_eq_ok_iff {α : Type} {reader : Reader α} {type : Value → α → Prop}
    (reads : Reads reader type) {source : List Char} {result : α} :
    readDocument reader source = .ok result ↔
      ∃ value, IsDocument value source ∧ type value result := by
  rw [readDocument, bind_eq_ok_iff]
  constructor
  · rintro ⟨⟨result', cursor⟩, read, ends⟩
    obtain ⟨value, text, blank, written, typed⟩ := reads.sound read
    dsimp only at ends
    split at ends
    · next empty =>
      obtain rfl := Except.ok.inj ends
      have space := blank_skipSpace cursor
      rw [List.isEmpty_iff.mp empty] at space
      exact ⟨value, ⟨text, cursor.rest, blank, written, space⟩, typed⟩
    · contradiction
  · rintro ⟨value, ⟨begin, rest, blank, written, space⟩, typed⟩
    obtain ⟨offset', read⟩ := reads.complete blank written typed 0
    refine ⟨_, read, ?_⟩
    dsimp only
    rw [space.skipSpace_nil]
    rfl

end CommandShell.Json

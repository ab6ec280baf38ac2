import CommandShell.Json.Scalar

/-!
Records in a JSON document: an object with a member for each field that is given, or a list of the
fields in their order. Fields that are not given keep the value they have.
-/

namespace CommandShell.Json

/-- A field of a record: its name, and how its value is read into the record. -/
structure RecordField (σ : Type) where
  name : String
  read : σ → Reader σ

def readColon : Reader Unit := fun cursor =>
  let cursor := cursor.skipSpace
  match cursor.rest with
  | ':' :: _ => .ok ((), cursor.advance)
  | [] => .error (cursor.ahead .endInObject)
  | _ => .error (cursor.ahead .colon)

/-- Whether another member follows; if so, the place is behind its opening quote, and else it is at
the closing brace. -/
def readMemberStart (first : Bool) : Reader Bool := fun cursor =>
  let cursor := cursor.skipSpace
  match cursor.rest with
  | [] => .error (cursor.ahead .endInObject)
  | '\x7d' :: _ => .ok (false, cursor)
  | c :: _ =>
    if first then
      if c = '\x22' then .ok (true, cursor.advance) else .error (cursor.ahead .nameNotString)
    else if c = ',' then
      let cursor := cursor.advance.skipSpace
      match cursor.rest with
      | [] => .error (cursor.ahead .endInValue)
      | '\x22' :: _ => .ok (true, cursor.advance)
      | '\x7d' :: _ => .error (cursor.ahead .trailingComma)
      | _ => .error (cursor.ahead .nameNotString)
    else .error (cursor.ahead .commaOrBrace)

/-- Where a complaint about a name is placed: behind the white space that follows it, and behind the
brace if the object ends there. -/
def nameComplaint (cursor : Cursor) (cause : Cause) : Complaint :=
  let cursor := cursor.skipSpace
  if cursor.rest.head? = some '\x7d' then cursor.advance.behind cause else cursor.behind cause

/-- The members of an object, where `unread` are the fields that were not given yet. -/
def readMembers {σ : Type} (fields unread : List (RecordField σ)) (first : Bool) (record : σ)
    (cursor : Cursor) : Except Complaint (σ × Cursor) := do
  let (more, cursor) ← readMemberStart first cursor
  if !more then return (record, cursor.advance)
  let (name, cursor) ← readText cursor
  match _found : unread.find? fun field => field.name = name with
  | some field =>
    let ((), cursor) ← readColon cursor
    let (record, cursor) ← field.read record cursor
    readMembers fields (unread.eraseP fun field => field.name = name) false record cursor
  | none =>
    if fields.any fun field => field.name = name then
      throw (nameComplaint cursor (.duplicateField name))
    else throw (nameComplaint cursor (.unknownField name (fields.map RecordField.name)))
termination_by unread.length
decreasing_by
  have member := List.mem_of_find?_eq_some _found
  have named := List.find?_some _found
  rw [List.length_eraseP_of_mem member named]
  have := List.length_pos_of_mem member
  omega

def readElementStart (first : Bool) : Reader Bool := fun cursor =>
  let cursor := cursor.skipSpace
  match cursor.rest with
  | [] => .error (cursor.ahead .endInList)
  | ']' :: _ => .ok (false, cursor)
  | c :: _ =>
    if first then .ok (true, cursor)
    else if c = ',' then
      let cursor := cursor.advance.skipSpace
      match cursor.rest with
      | [] => .error (cursor.ahead .endInValue)
      | ']' :: _ => .error (cursor.ahead .trailingComma)
      | _ => .ok (true, cursor)
    else .error (cursor.ahead .commaOrBracket)

def readListEnd : Reader Unit := fun cursor =>
  let cursor := cursor.skipSpace
  match cursor.rest with
  | ']' :: _ => .ok ((), cursor.advance)
  | ',' :: _ =>
    let cursor := cursor.advance.skipSpace
    if cursor.rest.head? = some ']' then .error (cursor.ahead .trailingComma)
    else .error (cursor.ahead .trailingCharacters)
  | [] => .error (cursor.ahead .endInList)
  | _ => .error (cursor.ahead .trailingCharacters)

/-- The elements of a list, one for each field in turn. -/
def readElements {σ : Type} (first : Bool) (record : σ) : List (RecordField σ) → Reader σ
  | [] => fun cursor => do
    let ((), cursor) ← readListEnd cursor
    return (record, cursor)
  | field :: fields => fun cursor => do
    let (more, cursor) ← readElementStart first cursor
    if !more then return (record, cursor.advance)
    let (record, cursor) ← field.read record cursor
    readElements false record fields cursor

/-- A record, from the values it has if nothing is given. -/
def readRecord {σ : Type} (label : String) (fields : List (RecordField σ)) (start : σ) : Reader σ :=
  fun cursor =>
    let cursor := cursor.skipSpace
    match cursor.rest with
    | '\x7b' :: _ => readMembers fields fields true start cursor.advance
    | '[' :: _ => readElements true start fields cursor.advance
    | _ => readAs (fun _ => none) (insteadOf ("struct " ++ label)) cursor

/-- The only name in an object. -/
def readOnlyName : Reader String := fun cursor =>
  let cursor := cursor.skipSpace
  match cursor.rest with
  | '\x22' :: _ => readText cursor.advance
  | '\x7d' :: _ => .error (cursor.ahead .noValue)
  | [] => .error (cursor.ahead .endInObject)
  | _ => .error (cursor.ahead .nameNotString)

/-- A name out of a list, written as a text or as an object with that name and `null`. -/
def readVariant {α : Type} (variants : List (String × α)) : Reader α := fun cursor =>
  let named (name : String) (behind : Cursor) : Except Complaint α :=
    match variants.find? fun variant => variant.1 = name with
    | some variant => .ok variant.2
    | none => .error (behind.behind (.unknownVariant name (variants.map Prod.fst)))
  let cursor := cursor.skipSpace
  match cursor.rest with
  | '\x22' :: _ => do
    let (name, behind) ← readText cursor.advance
    return (← named name behind, behind)
  | '\x7b' :: _ => do
    let (name, behind) ← readOnlyName cursor.advance
    let value ← named name behind
    let ((), behind) ← readColon behind
    let ((), behind) ← readNull behind
    let behind := behind.skipSpace
    match behind.rest with
    | '\x7d' :: _ => return (value, behind.advance)
    | [] => throw (behind.behind .endInObject)
    | _ => throw (behind.behind .noValue)
  | [] => .error (cursor.ahead .endInValue)
  | _ => .error (cursor.ahead .noValue)

/-- A whole document. -/
def readDocument {α : Type} (reader : Reader α) (source : List Char) : Except Complaint α := do
  let (value, cursor) ← reader (.ofText source)
  let cursor := cursor.skipSpace
  if cursor.rest.isEmpty then return value else throw (cursor.ahead .trailingCharacters)

end CommandShell.Json

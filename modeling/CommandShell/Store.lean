/-!
The variable store: a map from names to values, listed in the order of the names. A name is cut at
its first `=`, so a record `NAME=VALUE` and its bare name speak of the same variable.
-/

namespace CommandShell

/-- The order of texts by the numbers of their characters. It is the order of their encoded
bytes. -/
def textBefore : List Char → List Char → Bool
  | _, [] => false
  | [], _ :: _ => true
  | c :: s, d :: t => Nat.blt c.toNat d.toNat || (c == d && textBefore s t)

/-- The name in a record: the text before its first `=`, or all of it. -/
def recordKey (record : String) : String :=
  String.ofList (record.toList.takeWhile fun c => c != '=')

/-- The text behind so many bytes of its encoding. There is none inside a character or behind the
end. -/
def dropBytes? : Nat → List Char → Option (List Char)
  | 0, text => some text
  | _ + 1, [] => none
  | count + 1, c :: text =>
    if c.utf8Size ≤ count + 1 then dropBytes? (count + 1 - c.utf8Size) text else none

/-- The value in a record: the text behind its name and one byte more, if it goes that far. -/
def recordValue? (record : String) : Option String :=
  (dropBytes? ((recordKey record).utf8ByteSize + 1) record.toList).map String.ofList

structure Store where
  entries : List (String × String)
  deriving DecidableEq, Repr

namespace Store

def empty : Store := ⟨[]⟩

/-- Put a pair in its place, over an earlier one with the same key. -/
def insertEntry (key value : String) : List (String × String) → List (String × String)
  | [] => [(key, value)]
  | (other, old) :: entries =>
    if other = key then (key, value) :: entries
    else if textBefore key.toList other.toList then (key, value) :: (other, old) :: entries
    else (other, old) :: insertEntry key value entries

/-- Give a variable a value. Without one it becomes empty. -/
def set (store : Store) (name : String) (value : Option String) : Store :=
  ⟨insertEntry (recordKey name) (value.getD "") store.entries⟩

def get? (store : Store) (name : String) : Option String :=
  (store.entries.find? fun entry => entry.1 = recordKey name).map Prod.snd

def importRecord (store : Store) (record : String) : Store :=
  store.set (recordKey record) (recordValue? record)

/-- Take over records in order, so that of two with the same name the later counts. -/
def importRecords (store : Store) (records : List String) : Store :=
  records.foldl importRecord store

def formatRecord (name value : String) : String := name ++ "=" ++ value

/-- The store of a process that was started with these variables. -/
def ofEnvironment (environment : List (String × String)) : Store :=
  empty.importRecords (environment.map fun pair => formatRecord pair.1 pair.2)

def size (store : Store) : Nat := store.entries.length

def isEmpty (store : Store) : Bool := store.entries.isEmpty

end Store

end CommandShell

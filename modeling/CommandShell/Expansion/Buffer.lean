import CommandShell.Expansion
import CommandShell.Fault
import CommandShell.Machine.Bytes

/-!
Expansion in memory. The bytes of the words lie in one buffer, each text closed by a NUL. A pass
over them makes every separator a NUL and keeps where the arguments are, so that an argument is read
from its place in the buffer: as a text, or as the byte string that another program is handed.
-/

namespace CommandShell

/-- The bytes that end an argument: the six ASCII spaces and NUL. -/
def isSeparatorByte (byte : UInt8) : Bool :=
  [0x20, 0x09, 0x0a, 0x0b, 0x0c, 0x0d, 0x00].contains byte

/-- The places in a buffer from one on, up to another. -/
structure ByteSpan where
  start : Nat
  stop : Nat
  deriving DecidableEq, Repr

/-- Bytes, and where in them the arguments are. -/
structure ArgumentBuffer where
  bytes : Array UInt8 := #[]
  spans : Array ByteSpan := #[]
  deriving DecidableEq, Repr

namespace ArgumentBuffer

/-- Add a text, closed by a NUL. -/
def put (buffer : ArgumentBuffer) (text : String) : ArgumentBuffer :=
  { buffer with bytes := (buffer.bytes ++ text.toUTF8.data).push 0 }

def putWord (store : Store) (buffer : ArgumentBuffer) (word : Word) : ArgumentBuffer :=
  match word.contribution? store with
  | some text => buffer.put text
  | none => buffer

/-- A pass over the bytes of a buffer. -/
structure Pass where
  /-- The bytes gone over, with NUL for every separator, and the arguments that are closed. -/
  marked : ArgumentBuffer := {}
  /-- Where the argument begins that is not closed yet. -/
  start : Option Nat := none

def Pass.step (pass : Pass) (byte : UInt8) : Pass :=
  let ⟨bytes, spans⟩ := pass.marked
  match pass.start, isSeparatorByte byte with
  | none, false => ⟨⟨bytes.push byte, spans⟩, some bytes.size⟩
  | some start, true => ⟨⟨bytes.push 0, spans.push ⟨start, bytes.size⟩⟩, none⟩
  | none, true => ⟨⟨bytes.push 0, spans⟩, none⟩
  | some start, false => ⟨⟨bytes.push byte, spans⟩, some start⟩

/-- Find the arguments in a buffer. One that is still open at the end is closed there. -/
def tokenize (buffer : ArgumentBuffer) : ArgumentBuffer :=
  let pass := buffer.bytes.foldl Pass.step {}
  match pass.start with
  | some start =>
    { pass.marked with spans := pass.marked.spans.push ⟨start, pass.marked.bytes.size⟩ }
  | none => pass.marked

def expand (store : Store) (words : List Word) : ArgumentBuffer :=
  (words.foldl (putWord store) {}).tokenize

def slice (buffer : ArgumentBuffer) (span : ByteSpan) : Bytes :=
  (buffer.bytes.extract span.start span.stop).toList

/-- One of the arguments, or the empty text for bytes that encode none. -/
def argument? (buffer : ArgumentBuffer) (index : Nat) : Option String :=
  buffer.spans[index]?.map fun span => (buffer.slice span).toText?.getD ""

/-- The argument that names what is to be run. -/
def first? (buffer : ArgumentBuffer) : Option String := buffer.argument? 0

def arguments (buffer : ArgumentBuffer) : List String :=
  (List.range buffer.spans.size).filterMap buffer.argument?

/-- A byte string that another program can be handed. A NUL would end it. -/
def handOver (bytes : Bytes) : Except Fault Bytes :=
  match bytes.findIdx? (· == 0) with
  | some place =>
    .error (.internal
      ("argument contains NUL: nul byte found in provided data at position: " ++ toString place))
  | none => .ok bytes

/-- All the arguments, as another program is handed them. -/
def byteStrings (buffer : ArgumentBuffer) : Except Fault (List Bytes) :=
  buffer.spans.toList.mapM fun span => handOver (buffer.slice span)

end ArgumentBuffer

end CommandShell

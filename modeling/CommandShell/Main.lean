import CommandShell.Machine.Run
import CommandShell.Machine.Standard
import CommandShell.Startup

/-!
The command line: the shell on a machine of its own, which starts with the standard files and reads
what the program reads.
-/

open CommandShell

/-- Read a stream to its end. -/
partial def readStream (stream : IO.FS.Stream) (chunks : ByteArray) : IO ByteArray := do
  let chunk ← stream.read 65536
  if chunk.isEmpty then return chunks else readStream stream (chunks ++ chunk)

def main (words : List String) : IO UInt32 := do
  let input ← readStream (← IO.getStdin) ByteArray.empty
  let environment := [("PATH", "/usr/bin:/bin"), ("LC_ALL", "C")]
  let machine := Machine.start Files.standard Files.root environment (.pipe input.toList)
  let (_, machine) := machine.run (Startup.run words environment none)
  let ((output, errors), machine) := machine.settle.takeWritten
  (← IO.getStdout).write (ByteArray.mk output.toArray)
  (← IO.getStderr).write (ByteArray.mk errors.toArray)
  return (machine.exitCode?.getD 1).toNat.toUInt32

import CommandShell.Main
import CommandShell.Expansion.Buffer
import CommandShell.Proofs.Text.Encoding
import CommandShell.Proofs.Expansion.Buffer
import CommandShell.Proofs.Script.Printer
import CommandShell.Proofs.Session.Agreement
import CommandShell.Proofs.Shell.Reach
import CommandShell.Proofs.Shell.Writes
import CommandShell.Script.Outline
import CommandShell.Session.Lines
import CommandShell.Proofs.Shell.Exit
import CommandShell.Proofs.Shell.Process
import CommandShell.Proofs.Shell.LastStatus
import CommandShell.Proofs.Shell.Children
import CommandShell.Proofs.Jobs
import CommandShell.Proofs.Shell.Reaping
import CommandShell.Proofs.Shell.Settled
import CommandShell.Proofs.Peg.Shape
import CommandShell.Proofs.Script.Denotation
import CommandShell.Proofs.Script.Layout
import CommandShell.Proofs.Script.Incomplete
import CommandShell.Proofs.Shell.Splitting
import CommandShell.Proofs.Shell.StatusRange
import CommandShell.Proofs.Shell.ExitCode
import CommandShell.Proofs.Shell.Runs
import CommandShell.Proofs.Shell.Parallel
import CommandShell.Proofs.Shell.OpenFiles
import CommandShell.Proofs.Shell.Wiring
import CommandShell.Proofs.Session.Units
import CommandShell.Proofs.Shell.Conditional
import CommandShell.Proofs.Script.Outline
import CommandShell.Proofs.Script.Dump
import CommandShell.Proofs.Options.Decoding
import CommandShell.Proofs.Script.BareWord
import CommandShell.Proofs.Text.ByteOrder
import CommandShell.Proofs.Store.Map
import CommandShell.Proofs.Shell.Interruption
import CommandShell.Proofs.Shell.Directory
import CommandShell.Proofs.Shell.Origin
import CommandShell.Proofs.Shell.Flags
import CommandShell.Proofs.Script.Building
import CommandShell.Proofs.Script.Termination

import CommandShell.Text.Styled

/-!
The command line of the shell: its options, and what can be wrong with it.
-/

namespace CommandShell.CommandLine

open Text (Span Styled)

def plain (text : String) : Span := ⟨.plain, text⟩

inductive Item where
  | commands
  | dump
  | optionsFile
  | help
  | version
  | script
  deriving DecidableEq, Repr

namespace Item

def long? : Item → Option String
  | .dump => some "dump-ast"
  | .optionsFile => some "rc"
  | .help => some "help"
  | .version => some "version"
  | _ => none

def ofLong? : String → Option Item
  | "dump-ast" => some .dump
  | "rc" => some .optionsFile
  | "help" => some .help
  | "version" => some .version
  | _ => none

def ofShort? : Char → Option Item
  | 'c' => some .commands
  | 'h' => some .help
  | 'V' => some .version
  | _ => none

def takesValue : Item → Bool
  | .commands => true
  | .optionsFile => true
  | _ => false

def shownName (item : Item) : String := "--" ++ item.long?.getD ""

/-- How messages write it. -/
def shown : Item → String
  | .commands => "-c <COMMANDS>"
  | .dump => "--dump-ast"
  | .optionsFile => "--rc <FILE>"
  | .help => "--help"
  | .version => "--version"
  | .script => "[SCRIPT]"

/-- How it is written where its name stands out. -/
def styled : Item → Styled
  | .commands => [⟨.strong, "-c"⟩, plain " <COMMANDS>"]
  | .optionsFile => [⟨.strong, "--rc"⟩, plain " <FILE>"]
  | .script => [plain "[SCRIPT]"]
  | item => [⟨.strong, item.shown⟩]

/-- How it is written among other choices. -/
def shownChoice : Item → String
  | .script => "SCRIPT"
  | item => item.shown

/-- What can be set, as opposed to what is only asked. -/
def settings : List Item := [.script, .commands, .dump, .optionsFile]

end Item

structure Arguments where
  script : Option String := none
  commands : Option String := none
  /-- Print each script before it is run. -/
  dump : Bool := false
  optionsFile : Option String := none
  deriving DecidableEq, Repr

inductive Request where
  | run (arguments : Arguments)
  | help
  | version
  deriving DecidableEq, Repr

def spaced (parts : List Styled) : Styled := [plain " "].intercalate parts

def usageLine (parts : List Styled) : Styled :=
  [⟨.heading, "Usage:"⟩, plain " ", ⟨.strong, "pish"⟩, plain " "] ++ spaced parts

/-- The usage line: of all options, or of those that were used. -/
def usage (used : List Item) : Styled :=
  let options := (used.filter (· ≠ .script)).eraseDups
  let script := if used.contains .script then [plain "<SCRIPT>"] else Item.script.styled
  if used.isEmpty then usageLine [[plain "[OPTIONS]"], Item.script.styled]
  else usageLine (options.map Item.styled ++ [script])

/-- The usage line of an item beside any of the settings, which are one choice in it. -/
def usageBesideSettings (item : Item) : Styled :=
  let choice := [plain ("<" ++ String.intercalate "|" (Item.settings.map Item.shownChoice) ++ ">")]
  usageLine (if Item.settings.contains item then [choice] else [item.styled, choice])

inductive Mistake where
  /-- A word that is no option, or one too many. A similar option may be meant, or the word may be
  meant as a value. -/
  | unexpected (word : String) (similar : Option Item) (asValue : Bool) (used : List Item)
  | missingValue (item : Item)
  /-- A value for an option that takes none, with the items that were set before. -/
  | unneededValue (value : String) (item : Item) (before : List Item)
  | repeated (item : Item)
  | conflict (item other : Item) (used : List Item)
  deriving DecidableEq, Repr

namespace Mistake

/-- A part of a message that starts a new paragraph and says what to do. -/
def tip (parts : Styled) : Styled := [plain "\n\n  ", ⟨.good, "tip:"⟩, plain " "] ++ parts

def reason : Mistake → Styled
  | .unexpected word similar asValue _ =>
    let advice :=
      match similar with
      | some item =>
        tip [plain "a similar argument exists: '", ⟨.good, item.shownName⟩, plain "'"]
      | none =>
        if asValue then
          tip [plain "to pass '", ⟨.bad, word⟩, plain "' as a value, use '", ⟨.good, "-- " ++ word⟩,
            plain "'"]
        else []
    [plain "unexpected argument '", ⟨.bad, word⟩, plain "' found"] ++ advice
  | .missingValue item =>
    [plain "a value is required for '", ⟨.bad, item.shown⟩, plain "' but none was supplied"]
  | .unneededValue value item _ =>
    [plain "unexpected value '", ⟨.bad, value⟩, plain "' for '", ⟨.strong, item.shown⟩,
      plain "' found; no more were expected"]
  | .repeated item =>
    [plain "the argument '", ⟨.bad, item.shown⟩, plain "' cannot be used multiple times"]
  | .conflict item other _ =>
    [plain "the argument '", ⟨.bad, item.shown⟩, plain "' cannot be used with '",
      ⟨.bad, other.shown⟩, plain "'"]

/-- The usage line that goes with it. -/
def usagePart? : Mistake → Option Styled
  | .unexpected _ _ _ used => some (usage used)
  | .missingValue _ => none
  | .unneededValue _ item before =>
    some (if before.isEmpty then usage [item] else usageBesideSettings item)
  | .repeated _ => some (usage [])
  | .conflict _ _ used => some (usage used)

def message (mistake : Mistake) : Styled :=
  let usage := match mistake.usagePart? with | some line => plain "\n\n" :: line | none => []
  [⟨.alarm, "error:"⟩, plain " "] ++ mistake.reason ++ usage ++
    [plain "\n\nFor more information, try '", ⟨.strong, "--help"⟩, plain "'.\n"]

end Mistake

def versionText : Styled := [plain "pish 0.1.0\n"]

def helpText : Styled :=
  [plain "A small process-orchestrating linux shell written in rust\n\n"] ++ usage [] ++
    [plain "\n\n", ⟨.heading, "Arguments:"⟩,
      plain "\n  [SCRIPT]  Script to run. Without one, commands come from stdin\n\n",
      ⟨.heading, "Options:"⟩,
      plain "\n  ", ⟨.strong, "-c"⟩, plain " <COMMANDS>    Run COMMANDS and exit\n      ",
      ⟨.strong, "--dump-ast"⟩,
      plain "   Print each parsed script as JSON on stderr before running it\n      ",
      ⟨.strong, "--rc"⟩,
      plain " <FILE>  Shell options file (JSON). Defaults to ~/.pishrc.json if it exists\n  ",
      ⟨.strong, "-h"⟩, plain ", ", ⟨.strong, "--help"⟩, plain "       Print help\n  ",
      ⟨.strong, "-V"⟩, plain ", ", ⟨.strong, "--version"⟩, plain "    Print version\n"]

/-- Whether the environment asks for texts that stand out, though no terminal shows them. -/
def asksForStyles (environment : List (String × String)) : Bool :=
  let given (name : String) : Bool := (environment.lookup name).any fun value => !value.isEmpty
  given "CLICOLOR_FORCE" && !given "NO_COLOR"

end CommandShell.CommandLine

import CommandShell.Fault
import CommandShell.Json.Record
import CommandShell.Options.Basic

/-!
Options read from a JSON document. What is not written keeps its default, and a name that is no
option is refused.
-/

namespace CommandShell.Options

open Json (RecordField Reader)

def editModes : List (String × EditMode) := [("emacs", .emacs), ("vi", .vi)]

/-- A field whose value does not depend on the value it had. -/
def plainField {σ α : Type} (name : String) (reader : Reader α) (put : σ → α → σ) :
    RecordField σ where
  name := name
  read record cursor := (reader cursor).map fun read => (put record read.1, read.2)

def historyFields : List (RecordField HistoryOptions) :=
  [plainField "max_hist" Json.readNatural fun options size => { options with size },
    plainField "hist_ignore_dupes" Json.readBool fun options ignoreRepeats =>
      { options with ignoreRepeats },
    plainField "auto_hist" Json.readBool fun options automatic => { options with automatic }]

def promptFields : List (RecordField PromptOptions) :=
  [plainField "edit_mode" (Json.readVariant editModes) fun options editMode =>
      { options with editMode },
    plainField "ps1" Json.readString fun options primary => { options with primary }]

def runFields : List (RecordField RunOptions) :=
  [plainField "reap_on_exit" Json.readBool fun options waitAtExit => { options with waitAtExit }]

def fields : List (RecordField Options) :=
  [plainField "core" (Json.readRecord "ShOptsCore" historyFields {}) fun options history =>
      { options with history },
    plainField "prompt" (Json.readRecord "ShOptsPrompt" promptFields {}) fun options prompt =>
      { options with prompt },
    plainField "exec" (Json.readRecord "ShOptsExec" runFields {}) fun options run =>
      { options with run }]

def read (source : List Char) : Except Json.Complaint Options :=
  Json.readDocument (Json.readRecord "ShOpts" fields {}) source

def decode (source : String) : Except Fault Options :=
  match read source.toList with
  | .ok options => .ok options
  | .error complaint =>
    .error (.internal ("invalid shell options: " ++ complaint.message source.toList))

end CommandShell.Options

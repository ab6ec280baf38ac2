import CommandShell.Options.Decode
import CommandShell.Proofs.Json.Layout
import CommandShell.Proofs.Json.Printer
import CommandShell.Proofs.Json.Unambiguous

/-!
Options are what is written, and the default where nothing is written. A text of options is read
exactly if it is a JSON document with known names only, none of them twice, and with a value of the
right type behind each of them; the order of the members and white space do not matter. What is
written out of options reads as the same options.
-/

namespace CommandShell.Options

open Json

/-! What a document says. -/

/-- The name of a mode, or an object with the name and `null`. -/
def IsMode (value : Value) (mode : EditMode) : Prop :=
  ∃ name, (name, mode) ∈ editModes ∧ (value = .string name ∨ value = .object [(name, .null)])

def IsHistory (value : Value) (options : HistoryOptions) : Prop :=
  ∃ members, value = .object members ∧
    Named ["max_hist", "hist_ignore_dupes", "auto_hist"] members ∧
    Given members "max_hist" IsNatural 1000 options.size ∧
    Given members "hist_ignore_dupes" IsFlag true options.ignoreRepeats ∧
    Given members "auto_hist" IsFlag true options.automatic

def IsPrompt (value : Value) (options : PromptOptions) : Prop :=
  ∃ members, value = .object members ∧ Named ["edit_mode", "ps1"] members ∧
    Given members "edit_mode" IsMode .emacs options.editMode ∧
    Given members "ps1" IsText "$ " options.primary

def IsRun (value : Value) (options : RunOptions) : Prop :=
  ∃ members, value = .object members ∧ Named ["reap_on_exit"] members ∧
    Given members "reap_on_exit" IsFlag true options.waitAtExit

/-- The value says the options. -/
def IsOptions (value : Value) (options : Options) : Prop :=
  ∃ members, value = .object members ∧ Named ["core", "prompt", "exec"] members ∧
    Given members "core" IsHistory {} options.history ∧
      Given members "prompt" IsPrompt {} options.prompt ∧
    Given members "exec" IsRun {} options.run

/-- A text that has objects, not lists, for the options and for each of their sections. -/
def Sectioned (text : String) : Prop :=
  ∀ value, IsDocument value text.toList → ∃ members, value = .object members ∧
    ∀ name ∈ ["core", "prompt", "exec"], ∀ part, (name, part) ∈ members →
      ∃ inner, part = .object inner

/-! The slots of each section. -/

theorem reads_editMode : Reads (readVariant editModes) IsMode := by
  refine (reads_readVariant editModes).congr fun value mode => ⟨?_, ?_⟩
  · rintro ⟨name, spelled, ⟨_, _⟩, found, rfl⟩
    obtain rfl : _ = name := by simpa using List.find?_some found
    exact ⟨_, List.mem_of_find?_eq_some found, spelled⟩
  · rintro ⟨name, known, spelled⟩
    simp only [editModes, List.mem_cons, Prod.mk.injEq, List.not_mem_nil, or_false] at known
    rcases known with ⟨rfl, rfl⟩ | ⟨rfl, rfl⟩ <;> exact ⟨_, spelled, _, rfl, rfl⟩

def historyLayout : Layout HistoryOptions where
  slots := [
    { name := "max_hist", reader := readNatural, type := IsNatural, reads := reads_readNatural,
      get := HistoryOptions.size, put := fun options size => { options with size },
      get_put := fun _ _ => rfl },
    { name := "hist_ignore_dupes", reader := readBool, type := IsFlag, reads := reads_readBool,
      get := HistoryOptions.ignoreRepeats, put := fun options ignoreRepeats =>
        { options with ignoreRepeats },
      get_put := fun _ _ => rfl },
    { name := "auto_hist", reader := readBool, type := IsFlag, reads := reads_readBool,
      get := HistoryOptions.automatic, put := fun options automatic => { options with automatic },
      get_put := fun _ _ => rfl }]
  once := by decide
  apart := by simp
  ext := by
    rintro ⟨⟩ ⟨⟩ same
    simpa using same

def promptLayout : Layout PromptOptions where
  slots := [
    { name := "edit_mode", reader := readVariant editModes, type := IsMode, reads := reads_editMode,
      get := PromptOptions.editMode, put := fun options editMode => { options with editMode },
      get_put := fun _ _ => rfl },
    { name := "ps1", reader := readString, type := IsText, reads := reads_readString,
      get := PromptOptions.primary, put := fun options primary => { options with primary },
      get_put := fun _ _ => rfl }]
  once := by decide
  apart := by simp
  ext := by
    rintro ⟨⟩ ⟨⟩ same
    simpa using same

def runLayout : Layout RunOptions where
  slots := [
    { name := "reap_on_exit", reader := readBool, type := IsFlag, reads := reads_readBool,
      get := RunOptions.waitAtExit, put := fun options waitAtExit => { options with waitAtExit },
      get_put := fun _ _ => rfl }]
  once := by decide
  apart := by simp
  ext := by
    rintro ⟨⟩ ⟨⟩ same
    simpa using same

def layout : Layout Options where
  slots := [
    { name := "core", reader := readRecord "ShOptsCore" historyFields {},
      type := IsRecord historyLayout.slots {},
      reads := reads_readRecord "ShOptsCore" historyLayout.slots {}, get := Options.history,
      put := fun options history => { options with history }, get_put := fun _ _ => rfl },
    { name := "prompt", reader := readRecord "ShOptsPrompt" promptFields {},
      type := IsRecord promptLayout.slots {},
      reads := reads_readRecord "ShOptsPrompt" promptLayout.slots {}, get := Options.prompt,
      put := fun options prompt => { options with prompt }, get_put := fun _ _ => rfl },
    { name := "exec", reader := readRecord "ShOptsExec" runFields {},
      type := IsRecord runLayout.slots {},
      reads := reads_readRecord "ShOptsExec" runLayout.slots {}, get := Options.run,
      put := fun options run => { options with run }, get_put := fun _ _ => rfl }]
  once := by decide
  apart := by simp
  ext := by
    rintro ⟨⟩ ⟨⟩ same
    simpa using same

theorem read_eq_ok_iff {source : List Char} {options : Options} :
    read source = .ok options ↔
      ∃ value, IsDocument value source ∧ IsRecord layout.slots {} value options :=
  (reads_readRecord "ShOpts" layout.slots {}).readDocument_eq_ok_iff

theorem isRecord_history_iff {members : List (String × Value)} {options : HistoryOptions} :
    IsRecord historyLayout.slots {} (.object members) options ↔
      IsHistory (.object members) options := by
  rw [IsRecord, historyLayout.takes_iff]
  simp [IsHistory, historyLayout]

theorem isRecord_prompt_iff {members : List (String × Value)} {options : PromptOptions} :
    IsRecord promptLayout.slots {} (.object members) options ↔
      IsPrompt (.object members) options := by
  rw [IsRecord, promptLayout.takes_iff]
  simp [IsPrompt, promptLayout]

theorem isRecord_run_iff {members : List (String × Value)} {options : RunOptions} :
    IsRecord runLayout.slots {} (.object members) options ↔ IsRun (.object members) options := by
  rw [IsRecord, runLayout.takes_iff]
  simp [IsRun, runLayout]

/-- Where the sections are objects, the options are read exactly if the value says them. -/
theorem isRecord_iff {members : List (String × Value)} {options : Options}
    (objects : ∀ name ∈ ["core", "prompt", "exec"], ∀ part, (name, part) ∈ members →
      ∃ inner, part = .object inner) :
    IsRecord layout.slots {} (.object members) options ↔ IsOptions (.object members) options := by
  -- A section could be a list as well, which the hypothesis rules out.
  have history : Given members "core" (IsRecord historyLayout.slots {}) {} options.history ↔
      Given members "core" IsHistory {} options.history := by
    refine given_congr fun part member => ?_
    obtain ⟨inner, rfl⟩ := objects "core" (by decide) part member
    exact isRecord_history_iff
  have prompt : Given members "prompt" (IsRecord promptLayout.slots {}) {} options.prompt ↔
      Given members "prompt" IsPrompt {} options.prompt := by
    refine given_congr fun part member => ?_
    obtain ⟨inner, rfl⟩ := objects "prompt" (by decide) part member
    exact isRecord_prompt_iff
  have run : Given members "exec" (IsRecord runLayout.slots {}) {} options.run ↔
      Given members "exec" IsRun {} options.run := by
    refine given_congr fun part member => ?_
    obtain ⟨inner, rfl⟩ := objects "exec" (by decide) part member
    exact isRecord_run_iff
  rw [IsRecord, layout.takes_iff]
  simp [IsOptions, layout, history, prompt, run]

theorem decode_eq_ok {text : String} {options : Options} :
    decode text = .ok options ↔ read text.toList = .ok options := by
  unfold decode
  split <;> simp_all

/-! What is written out. -/

def modeName : EditMode → String
  | .emacs => "emacs"
  | .vi => "vi"

/-- The value that says all the options. -/
def document (options : Options) : Value :=
  .object [
    ("core", .object [("max_hist", .number (Nat.toDigits 10 options.history.size)),
      ("hist_ignore_dupes", .bool options.history.ignoreRepeats),
      ("auto_hist", .bool options.history.automatic)]),
    ("prompt", .object [("edit_mode", .string (modeName options.prompt.editMode)),
      ("ps1", .string options.prompt.primary)]),
    ("exec", .object [("reap_on_exit", .bool options.run.waitAtExit)])]

/-- All the options, without white space. -/
def encode (options : Options) : String :=
  let flag (value : Bool) := (Json.bool value).write 0
  String.ofList (compactObject [
    ("core", compactObject [("max_hist", Nat.toDigits 10 options.history.size),
      ("hist_ignore_dupes", flag options.history.ignoreRepeats),
      ("auto_hist", flag options.history.automatic)]),
    ("prompt", compactObject [("edit_mode", quote (modeName options.prompt.editMode)),
      ("ps1", quote options.prompt.primary)]),
    ("exec", compactObject [("reap_on_exit", flag options.run.waitAtExit)])])

theorem toDigits_zero {n : Nat} {rest : List Char} (begins : Nat.toDigits 10 n = '0' :: rest) :
    rest = [] := by
  induction n using Nat.strongRecOn generalizing rest with
  | ind n inductionHypothesis =>
      rw [Nat.toDigits_eq_if (by decide)] at begins
      split at begins
      · exact (List.cons.inj begins).2.symm
      · next large =>
        obtain ⟨first, others, front⟩ :=
          List.exists_cons_of_ne_nil (Nat.toDigits_ne_nil (b := 10) (n := n / 10))
        rw [front, List.cons_append] at begins
        obtain ⟨rfl, -⟩ := List.cons.inj begins
        obtain rfl := inductionHypothesis (n / 10) (by omega) front
        -- A single zero in front is the number nought, and there is more in front of the last
        -- digit.
        have nought : n / 10 = 0 := by
          rw [← Nat.ofDigitChars_ten_toDigits (n := n / 10), front]
          rfl
        omega

theorem number_toDigits (n : Nat) : Number (Nat.toDigits 10 n) :=
  Whole.number ⟨⟨Nat.toDigits_ne_nil, fun _ => Nat.isDigit_of_mem_toDigits (by decide) (by decide)⟩,
    fun _ => toDigits_zero⟩

theorem isDocument_encode (options : Options) :
    IsDocument options.document options.encode.toList := by
  rw [encode, String.toList_ofList]
  have number : Spells (.number (Nat.toDigits 10 options.history.size))
      (Nat.toDigits 10 options.history.size) :=
    fun _ => .number (number_toDigits _)
  have flag (value : Bool) : Spells (.bool value) ((Json.bool value).write 0) :=
    spells_write (.bool value) 0
  refine (SpellsEach.spells ?_).isDocument
  refine .cons "core" (SpellsEach.spells ?_) (.cons "prompt" (SpellsEach.spells ?_)
    (.cons "exec" (SpellsEach.spells ?_) .nil))
  · exact .cons "max_hist" number
      (.cons "hist_ignore_dupes" (flag _) (.cons "auto_hist" (flag _) .nil))
  · exact .cons "edit_mode" (spells_quote _) (.cons "ps1" (spells_quote _) .nil)
  · exact .cons "reap_on_exit" (flag _) .nil

theorem isMode_modeName (mode : EditMode) : IsMode (.string (modeName mode)) mode := by
  cases mode <;> exact ⟨_, by decide, Or.inl rfl⟩

theorem isOptions_document {options : Options} (fits : options.history.size ≤ greatestNatural) :
    IsOptions options.document options := by
  have size : IsNatural (.number (Nat.toDigits 10 options.history.size)) options.history.size :=
    ⟨_, rfl, fun _ => Nat.isDigit_of_mem_toDigits (by decide) (by decide),
      Nat.ofDigitChars_ten_toDigits, fits⟩
  refine ⟨_, rfl, ⟨by simp, by simp⟩, given_of_lookup rfl ?_, given_of_lookup rfl ?_,
    given_of_lookup rfl ?_⟩
  · exact ⟨_, rfl, ⟨by simp, by simp⟩, given_of_lookup rfl size, given_of_lookup rfl rfl,
      given_of_lookup rfl rfl⟩
  · exact ⟨_, rfl, ⟨by simp, by simp⟩, given_of_lookup rfl (isMode_modeName _),
      given_of_lookup rfl rfl⟩
  · exact ⟨_, rfl, ⟨by simp, by simp⟩, given_of_lookup rfl rfl⟩

theorem sectioned_of_isDocument {text : String} {members : List (String × Value)}
    (isDocument : IsDocument (.object members) text.toList)
    (objects : ∀ name ∈ ["core", "prompt", "exec"], ∀ part, (name, part) ∈ members →
      ∃ inner, part = .object inner) : Sectioned text := by
  intro value isDocument'
  exact ⟨members, isDocument.unique isDocument', objects⟩

theorem decode_of_sectioned {text : String} (sectioned : Sectioned text) {options : Options} :
    decode text = .ok options ↔
      ∃ value, IsDocument value text.toList ∧ IsOptions value options := by
  rw [decode_eq_ok, read_eq_ok_iff]
  refine exists_congr fun value => and_congr_right fun isDocument => ?_
  obtain ⟨members, rfl, objects⟩ := sectioned value isDocument
  exact isRecord_iff objects

/-- Options are decoded exactly if the text is a document that says them, and what is encoded is
decoded again. -/
theorem decode_eq_ok_iff :
    (∀ text, Sectioned text → ∀ options,
      decode text = .ok options ↔ ∃ value, IsDocument value text.toList ∧ IsOptions value options) ∧
      ∀ options : Options, options.history.size ≤ greatestNatural →
        decode options.encode = .ok options := by
  refine ⟨fun text sectioned options => decode_of_sectioned sectioned, fun options fits => ?_⟩
  have isDocument := isDocument_encode options
  have sectioned : Sectioned options.encode := sectioned_of_isDocument isDocument (by simp)
  exact (decode_of_sectioned sectioned).mpr ⟨_, isDocument, isOptions_document fits⟩

/-- Two of the sections and some of their members, in another order, with an escape and a mode as an
object. -/
def partialText : String :=
  String.ofList (compactObject [
    ("prompt", compactObject [("ps1", ['\x22', '\\', 'u', '0', '0', '3', 'e', ' ', '\x22']),
      ("edit_mode", compactObject [("vi", ['n', 'u', 'l', 'l'])])]),
    ("core", compactObject [("max_hist", ['5'])])])

theorem decode_partialText :
    Sectioned partialText ∧ decode partialText =
      .ok { history := { size := 5 }, prompt := { editMode := .vi, primary := "> " } } := by
  have primary : Spells (.string "> ") ['\x22', '\\', 'u', '0', '0', '3', 'e', ' ', '\x22'] := by
    intro rest _
    have letters : "> ".toList = ['>', ' '] := rfl
    refine .string ?_
    rw [letters]
    exact .letter (.code (n := 62) rfl rfl rfl)
      (.letter (.plain (by decide) (by decide) (by decide)) .close)
  have mode := (SpellsEach.cons "vi" (spells_write .null 0) .nil).spells
  have prompt := (SpellsEach.cons "ps1" primary (.cons "edit_mode" mode .nil)).spells
  have size : Spells (.number ['5']) ['5'] := fun _ => .number (number_toDigits 5)
  have history := (SpellsEach.cons "max_hist" size .nil).spells
  have isDocument := (SpellsEach.cons "prompt" prompt (.cons "core" history .nil)).spells.isDocument
  rw [← String.toList_ofList (l := compactObject _)] at isDocument
  have sectioned : Sectioned partialText := sectioned_of_isDocument isDocument (by simp)
  refine ⟨sectioned, (decode_eq_ok_iff.1 partialText sectioned _).mpr ⟨_, isDocument, ?_⟩⟩
  refine ⟨_, rfl, ⟨by simp, by simp⟩, given_of_lookup rfl ?_, given_of_lookup rfl ?_, rfl⟩
  · exact ⟨_, rfl, ⟨by simp, by simp⟩, given_of_lookup rfl ⟨_, rfl, by simp, rfl, by decide⟩, rfl,
      rfl⟩
  · exact ⟨_, rfl, ⟨by simp, by simp⟩, given_of_lookup rfl ⟨"vi", by decide, Or.inr rfl⟩,
      given_of_lookup rfl rfl⟩

end CommandShell.Options

import CommandShell.Proofs.Shell.Splitting
import CommandShell.Proofs.Text.Encoding
import Mathlib.Data.List.Forall2

/-!
What expansion comes to. The arguments of words are the longest parts without a separator of the
texts they add, word after word, and the buffer has the bytes of each of them at a place inside the
text of one word.
-/

namespace CommandShell

namespace Expansion

/-- The longest parts of a text with no separator in them, in order. -/
def runs (text : List Char) : List (List Char) :=
  (text.splitOnP isSeparator).filter fun run => !run.isEmpty

/-- The arguments that one word stands for. -/
def wordRuns (store : Store) (word : Word) : List (List Char) :=
  match word.contribution? store with
  | some text => runs text.toList
  | none => []

variable {run : List Char}

theorem runs_solid (solid : ∀ c ∈ run, isSeparator c = false) :
    runs run = if run = [] then [] else [run] := by
  rw [runs, List.splitOnP_eq_singleton solid]
  cases run with
  | nil => rfl
  | cons c run => rfl

theorem runs_append {separator : Char} (separates : isSeparator separator = true)
    (first rest : List Char) :
    runs (first ++ separator :: rest) = runs first ++ runs rest := by
  rw [runs, List.splitOnP_append_cons _ _ separates, List.filter_append]
  rfl

theorem separated_induction {motive : List Char → Prop}
    (solid : ∀ run, (∀ c ∈ run, isSeparator c = false) → motive run)
    (separated : ∀ run separator rest, (∀ c ∈ run, isSeparator c = false) →
      isSeparator separator = true →
      motive rest → motive (run ++ separator :: rest)) (text : List Char) : motive text := by
  -- The run in front of the text grows until a separator is found.
  have behind : ∀ run, (∀ c ∈ run, isSeparator c = false) → motive (run ++ text) := by
    induction text with
    | nil =>
        intro run held
        rw [List.append_nil]
        exact solid run held
    | cons c text inductionHypothesis =>
        intro run held
        by_cases separates : isSeparator c = true
        · exact separated run c text held separates (inductionHypothesis [] (by simp))
        · have longer : ∀ d ∈ run ++ [c], isSeparator d = false := by
            intro d inside
            rcases List.mem_append.mp inside with before | last
            · exact held d before
            · rw [List.mem_singleton.mp last]
              exact Bool.eq_false_iff.mpr separates
          simpa using inductionHypothesis (run ++ [c]) longer
  exact behind [] (by simp)

theorem cut_run {separator : Char} (solid : ∀ c ∈ run, isSeparator c = false)
    (separates : isSeparator separator = true) (rest : List Char) :
    cut [] (run ++ separator :: rest) = (runs run).map String.ofList ++ cut [] rest := by
  rw [cut_append solid, runs_solid solid, List.append_nil, cut, if_pos separates]
  by_cases empty : run = []
  · simp [empty]
  · simp [empty]

theorem cut_text (text rest : List Char) :
    cut [] (text ++ '\x00' :: rest) = (runs text).map String.ofList ++ cut [] rest := by
  induction text using separated_induction with
  | solid run solid => exact cut_run solid rfl rest
  | separated run separator later solid separates inductionHypothesis =>
      rw [List.append_assoc, List.cons_append, cut_run solid separates, inductionHypothesis,
        runs_append separates, List.map_append, List.append_assoc]

/-- The arguments of words are the runs in their texts. -/
theorem arguments_eq_runs (store : Store) (words : List Word) :
    arguments store words = (words.flatMap (wordRuns store)).map String.ofList := by
  unfold arguments
  induction words with
  | nil => rfl
  | cons word words inductionHypothesis =>
      rw [List.flatMap_cons, List.flatMap_cons, List.map_append, ← inductionHypothesis,
        Word.laidOut, wordRuns]
      cases word.contribution? store with
      | none => rfl
      | some text =>
          rw [List.append_assoc]
          exact cut_text text.toList _

end Expansion

open Expansion (runs wordRuns)

open Bytes (encode)

/-- The part of a text has no separator in it, and could not be longer. -/
structure IsRun (before run after : List Char) : Prop where
  nonempty : run ≠ []
  solid : ∀ c ∈ run, isSeparator c = false
  begins : ∀ c ∈ before.getLast?, isSeparator c = true
  ends : ∀ c ∈ after.head?, isSeparator c = true

/-- The span is that of a run in a text, in bytes that have the text at an offset. -/
def ByteSpan.Covers (offset : Nat) (text : List Char) (span : ByteSpan) (run : List Char) : Prop :=
  ∃ before after, text = before ++ run ++ after ∧ IsRun before run after ∧
    span.start = offset + (encode before).length ∧ span.stop = span.start + (encode run).length

theorem solid_encode {run : List Char} (solid : ∀ c ∈ run, isSeparator c = false) :
    ∀ byte ∈ encode run, isSeparatorByte byte = false := by
  intro byte inside
  obtain ⟨c, member, inside⟩ := List.mem_flatMap.mp inside
  exact isSeparatorByte_of_mem (solid c member) inside

theorem encode_ne_nil {run : List Char} (nonempty : run ≠ []) : encode run ≠ [] := by
  cases run with
  | nil => contradiction
  | cons c run => simp

theorem ByteSpan.Covers.behind {span : ByteSpan} {offset : Nat} {front text run : List Char}
    {separator : Char} (separates : isSeparator separator = true)
    (covers : span.Covers (offset + (encode (front ++ [separator])).length) text run) :
    span.Covers offset (front ++ separator :: text) run := by
  obtain ⟨before, after, rfl, isRun, start, stop⟩ := covers
  refine ⟨front ++ separator :: before, after, by simp, { isRun with begins := ?_ }, ?_, stop⟩
  · intro c last
    cases before with
    | nil =>
        obtain rfl : separator = c := by simpa using last
        exact separates
    | cons d before => exact isRun.begins c (by simpa using last)
  · simp [start, Nat.add_assoc]

theorem ByteSpan.covers_front {offset : Nat} {run rest : List Char}
    (solid : ∀ c ∈ run, isSeparator c = false) (ends : ∀ c ∈ rest.head?, isSeparator c = true) :
    List.Forall₂ (ByteSpan.Covers offset (run ++ rest))
      ((runs run).map fun run => ⟨offset, offset + (encode run).length⟩) (runs run) := by
  rw [List.forall₂_map_left_iff, List.forall₂_same, Expansion.runs_solid solid]
  intro run' inside
  split at inside
  · exact absurd inside List.not_mem_nil
  · next nonempty =>
      obtain rfl := List.mem_singleton.mp inside
      exact ⟨[], rest, rfl, ⟨nonempty, solid, by simp, ends⟩, rfl, rfl⟩

namespace ArgumentBuffer

/-- What a byte becomes when the pass has gone over it. -/
def blanked (byte : UInt8) : UInt8 := if isSeparatorByte byte then 0 else byte

namespace Pass

variable {pass : Pass} {byte : UInt8}

theorem step_solid (solid : isSeparatorByte byte = false) :
    pass.step byte =
      ⟨⟨pass.marked.bytes.push byte, pass.marked.spans⟩,
        some (pass.start.getD pass.marked.bytes.size)⟩ := by
  obtain ⟨⟨bytes, spans⟩, start⟩ := pass
  cases start with
  | none => simp [step, solid]
  | some start => simp [step, solid]

theorem step_separator (separates : isSeparatorByte byte = true) :
    pass.step byte =
      ⟨⟨pass.marked.bytes.push 0, pass.marked.spans ++
        (pass.start.toArray.map fun start => ⟨start, pass.marked.bytes.size⟩)⟩, none⟩ := by
  obtain ⟨⟨bytes, spans⟩, start⟩ := pass
  cases start with
  | none => simp [step, separates]
  | some start => simp [step, separates]

theorem bytes_foldl (bytes : Bytes) :
    (bytes.foldl step pass).marked.bytes.toList = pass.marked.bytes.toList ++
      bytes.map blanked := by
  induction bytes generalizing pass with
  | nil => simp
  | cons byte bytes inductionHypothesis =>
      have one : (pass.step byte).marked.bytes = pass.marked.bytes.push (blanked byte) := by
        unfold blanked
        split
        · next separates => rw [step_separator separates]
        · next solid => rw [step_solid (Bool.eq_false_iff.mpr solid)]
      rw [List.foldl_cons, inductionHypothesis, one]
      simp

theorem size_foldl (bytes : Bytes) :
    (bytes.foldl step pass).marked.bytes.size = pass.marked.bytes.size + bytes.length := by
  have same := congrArg List.length (@bytes_foldl pass bytes)
  simpa using same

theorem foldl_solid {bytes : Bytes} (solid : ∀ byte ∈ bytes, isSeparatorByte byte = false)
    (nonempty : bytes ≠ []) :
    (bytes.foldl step pass).start = some (pass.start.getD pass.marked.bytes.size) ∧
      (bytes.foldl step pass).marked.spans = pass.marked.spans := by
  induction bytes generalizing pass with
  | nil => exact absurd rfl nonempty
  | cons byte bytes inductionHypothesis =>
      have one := @step_solid pass byte (solid byte List.mem_cons_self)
      rw [List.foldl_cons]
      by_cases last : bytes = []
      · simp [last, one]
      · have later := @inductionHypothesis (pass.step byte)
          (fun byte inside => solid byte (List.mem_cons_of_mem _ inside)) last
        rw [one] at later ⊢
        exact later

theorem foldl_run {run : List Char} {separator : Char} (closed : pass.start = none)
    (solid : ∀ c ∈ run, isSeparator c = false) (separates : isSeparator separator = true) :
    ((encode (run ++ [separator])).foldl step pass).start = none ∧
      ((encode (run ++ [separator])).foldl step pass).marked.spans.toList =
        pass.marked.spans.toList ++
        (runs run).map fun run =>
          ⟨pass.marked.bytes.size, pass.marked.bytes.size + (encode run).length⟩ := by
  obtain ⟨byte, single, separates'⟩ := utf8EncodeChar_of_isSeparator separates
  rw [Bytes.encode_append, Bytes.encode_cons, Bytes.encode_nil, single, List.foldl_append,
    List.append_nil, List.foldl_cons, List.foldl_nil, step_separator separates',
    Expansion.runs_solid solid]
  by_cases empty : run = []
  · simp [empty, closed]
  · obtain ⟨begun, same⟩ :=
      @foldl_solid pass (encode run) (solid_encode solid) (encode_ne_nil empty)
    simp [begun, same, closed, size_foldl, empty]

/-- The arguments in a text that is closed by a NUL are its runs, each at its place. -/
theorem foldl_text (text : List Char) (closed : pass.start = none) :
    ((encode (text ++ ['\x00'])).foldl step pass).start = none ∧
      ∃ spans, ((encode (text ++ ['\x00'])).foldl step pass).marked.spans.toList =
          pass.marked.spans.toList ++ spans ∧
        List.Forall₂ (ByteSpan.Covers pass.marked.bytes.size text) spans (runs text) := by
  induction text using Expansion.separated_induction generalizing pass with
  | solid run solid =>
      obtain ⟨closed', spans⟩ := @foldl_run pass run '\x00' closed solid rfl
      have covers := @ByteSpan.covers_front pass.marked.bytes.size run [] solid (by simp)
      exact ⟨closed', _, spans, by simpa using covers⟩
  | separated run separator rest solid separates inductionHypothesis =>
      obtain ⟨closed', spans⟩ := foldl_run closed solid separates
      obtain ⟨closed'', spans', more, covers⟩ := inductionHypothesis closed'
      have parts : run ++ separator :: rest ++ ['\x00'] = (run ++ [separator]) ++
          (rest ++ ['\x00']) := by simp
      rw [parts, Bytes.encode_append, List.foldl_append, Expansion.runs_append separates]
      refine ⟨closed'', _, by rw [more, spans, List.append_assoc], ?_⟩
      refine List.rel_append (ByteSpan.covers_front solid (by simpa using separates)) ?_
      refine covers.imp fun span run' later => ?_
      rw [size_foldl] at later
      exact later.behind separates

end Pass

variable {store : Store}

theorem bytes_putWord (buffer : ArgumentBuffer) (word : Word) :
    (putWord store buffer word).bytes.toList = buffer.bytes.toList ++
      encode (word.laidOut store) := by
  unfold putWord Word.laidOut
  cases word.contribution? store with
  | none => simp
  | some text =>
      have nul : encode ['\x00'] = [0] := rfl
      simp [put, ← Bytes.data_toUTF8, nul]

theorem bytes_foldl_putWord (buffer : ArgumentBuffer) (words : List Word) :
    (words.foldl (putWord store) buffer).bytes.toList =
      buffer.bytes.toList ++ encode (words.flatMap (Word.laidOut store)) := by
  induction words generalizing buffer with
  | nil => simp
  | cons word words inductionHypothesis =>
      rw [List.foldl_cons, inductionHypothesis, bytes_putWord]
      simp

/-- The span is that of a run in the text of one of the words, where its bytes are in the buffer. -/
def Holds (store : Store) (words : List Word) (span : ByteSpan) (run : List Char) : Prop :=
  ∃ before word after text, words = before ++ word :: after ∧ word.contribution? store = some text ∧
    span.Covers (encode (before.flatMap (Word.laidOut store))).length text.toList run

theorem foldl_words (before words : List Word) {pass : Pass} (closed : pass.start = none)
    (size : pass.marked.bytes.size = (encode (before.flatMap (Word.laidOut store))).length) :
    ((encode (words.flatMap (Word.laidOut store))).foldl Pass.step pass).start = none ∧
      ∃ spans,
        ((encode (words.flatMap (Word.laidOut store))).foldl Pass.step pass).marked.spans.toList =
          pass.marked.spans.toList ++ spans ∧
        List.Forall₂ (Holds store (before ++ words)) spans (words.flatMap (wordRuns store)) := by
  induction words generalizing before pass with
  | nil => exact ⟨closed, [], by simp, .nil⟩
  | cons word words inductionHypothesis =>
      rw [List.flatMap_cons, List.flatMap_cons, Bytes.encode_append, List.foldl_append]
      have parts : before ++ word :: words = before ++ [word] ++ words := by simp
      cases added : word.contribution? store with
      | none =>
          have nothing : word.laidOut store = [] := by rw [Word.laidOut, added]
          have noRuns : wordRuns store word = [] := by rw [wordRuns, added]
          rw [nothing, noRuns, parts]
          exact inductionHypothesis (before ++ [word]) closed (by simpa [nothing] using size)
      | some text =>
          have laid : word.laidOut store = text.toList ++ ['\x00'] := by rw [Word.laidOut, added]
          have own : wordRuns store word = runs text.toList := by rw [wordRuns, added]
          obtain ⟨closed', spans, first, covers⟩ := Pass.foldl_text text.toList closed
          rw [← laid] at closed' first
          have size' := @Pass.size_foldl pass (encode (word.laidOut store))
          obtain ⟨closed'', spans', more, holds⟩ :=
            inductionHypothesis (before ++ [word]) closed' (by rw [size', size]; simp)
          refine ⟨closed'', spans ++ spans', by rw [more, first, List.append_assoc], ?_⟩
          rw [own, parts]
          refine List.rel_append (covers.imp fun span run covered => ?_) holds
          rw [size] at covered
          exact ⟨before, word, words, text, by simp, added, covered⟩

/-- Every text is closed, so that no argument is left open at the end. -/
theorem expand_eq (store : Store) (words : List Word) :
    expand store words =
      ((encode (words.flatMap (Word.laidOut store))).foldl Pass.step {}).marked := by
  have bytes := @bytes_foldl_putWord store {} words
  obtain ⟨closed, _⟩ := @foldl_words store [] words {} rfl rfl
  rw [expand, tokenize, ← Array.foldl_toList, bytes]
  simp only [List.nil_append, closed]

theorem spans_expand (store : Store) (words : List Word) :
    List.Forall₂ (Holds store words)
      (expand store words).spans.toList (words.flatMap (wordRuns store)) := by
  obtain ⟨_, spans, found, holds⟩ := @foldl_words store [] words {} rfl rfl
  rw [expand_eq, found]
  exact holds

theorem bytes_expand (store : Store) (words : List Word) :
    (expand store words).bytes.toList = (encode (words.flatMap (Word.laidOut store))).map
      blanked := by
  rw [expand_eq, Pass.bytes_foldl]
  rfl

variable {words : List Word} {span : ByteSpan} {run : List Char}

theorem Holds.parts (holds : Holds store words span run) :
    ∃ before after, encode (words.flatMap (Word.laidOut store)) = before ++ encode run ++ after ∧
      span.start = before.length ∧ span.stop = before.length + (encode run).length := by
  obtain ⟨before, word, after, text, rfl, added, first, last, whole, _, start, stop⟩ := holds
  refine ⟨encode (before.flatMap (Word.laidOut store) ++ first),
    encode (last ++ '\x00' :: after.flatMap (Word.laidOut store)), ?_, ?_, ?_⟩
  · simp [Word.laidOut, added, whole]
  · simp [start]
  · simp [stop, start]

theorem Holds.solid (holds : Holds store words span run) :
    ∀ byte ∈ encode run, isSeparatorByte byte = false := by
  obtain ⟨_, _, _, _, _, _, _, _, _, isRun, _⟩ := holds
  exact solid_encode isRun.solid

theorem Holds.slice_eq (holds : Holds store words span run) :
    (expand store words).slice span = encode run := by
  obtain ⟨before, after, bytes, start, stop⟩ := holds.parts
  -- Only separators are blanked, and there are none in the bytes of the run.
  have kept : (encode run).map blanked = encode run := by
    have same : ∀ byte ∈ encode run, blanked byte = id byte := fun byte inside =>
      if_neg (Bool.eq_false_iff.mp (holds.solid byte inside))
    rw [List.map_congr_left same, List.map_id]
  rw [slice, Array.toList_extract, bytes_expand, bytes, start, stop]
  simp [kept]

theorem Holds.toText? (holds : Holds store words span run) :
    ((expand store words).slice span).toText? = some (String.ofList run) := by
  rw [holds.slice_eq, Bytes.toText?_encode]

theorem Holds.handOver (holds : Holds store words span run) :
    handOver ((expand store words).slice span) = .ok (Bytes.ofText (String.ofList run)) := by
  have none : (encode run).findIdx? (· == 0) = none := by
    rw [List.findIdx?_eq_none_iff]
    intro byte inside
    have solid := holds.solid byte inside
    rw [beq_eq_false_iff_ne]
    rintro rfl
    contradiction
  rw [holds.slice_eq, ArgumentBuffer.handOver, none, Bytes.ofText_eq, String.toList_ofList]

theorem Holds.bounds (holds : Holds store words span run) :
    span.start < span.stop ∧ span.stop ≤ (expand store words).bytes.size := by
  obtain ⟨before, after, bytes, start, stop⟩ := holds.parts
  have nonempty : 0 < (encode run).length := by
    obtain ⟨_, _, _, _, _, _, _, _, _, isRun, _⟩ := holds
    exact List.length_pos_iff.mpr (encode_ne_nil isRun.nonempty)
  have size := congrArg List.length (bytes_expand store words)
  rw [bytes] at size
  simp only [Array.length_toList, List.length_map, List.length_append] at size
  omega

theorem arguments_eq (buffer : ArgumentBuffer) :
    buffer.arguments = buffer.spans.toList.map fun span => (buffer.slice span).toText?.getD "" := by
  have listed (spans : List ByteSpan) (read : ByteSpan → String) :
      ((List.range spans.length).filterMap fun index => spans[index]?.map read) =
        spans.map read := by
    induction spans with
    | nil => rfl
    | cons span spans inductionHypothesis =>
        rw [List.length_cons, List.range_succ_eq_map, List.filterMap_cons, List.filterMap_map]
        simpa [Function.comp_def] using inductionHypothesis
  rw [← listed]
  simp only [Array.length_toList, Array.getElem?_toList]
  rfl

theorem first?_eq (buffer : ArgumentBuffer) : buffer.first? = buffer.arguments.head? := by
  rw [arguments_eq, List.head?_map, first?, argument?, List.head?_eq_getElem?,
    Array.getElem?_toList]

theorem arguments_of_holds {spans : List ByteSpan} {runs : List (List Char)}
    (holds : List.Forall₂ (Holds store words) spans runs) :
    (spans.map fun span => ((expand store words).slice span).toText?.getD "") =
      runs.map String.ofList := by
  induction holds with
  | nil => rfl
  | cons first _ inductionHypothesis =>
      rw [List.map_cons, List.map_cons, first.toText?, inductionHypothesis]
      rfl

theorem handOver_of_holds {spans : List ByteSpan} {runs : List (List Char)}
    (holds : List.Forall₂ (Holds store words) spans runs) :
    (spans.mapM fun span => handOver ((expand store words).slice span)) =
      .ok ((runs.map String.ofList).map Bytes.ofText) := by
  induction holds with
  | nil => rfl
  | cons first _ inductionHypothesis =>
      rw [List.mapM_cons, first.handOver, inductionHypothesis]
      rfl

theorem within_of_holds {spans : List ByteSpan} {runs : List (List Char)}
    (holds : List.Forall₂ (Holds store words) spans runs) :
    ∀ span ∈ spans, span.start < span.stop ∧ span.stop ≤ (expand store words).bytes.size ∧
      ∃ argument, ((expand store words).slice span).toText? = some argument := by
  induction holds with
  | nil => simp
  | cons first _ inductionHypothesis =>
      intro span inside
      rcases List.mem_cons.mp inside with rfl | later
      · exact ⟨first.bounds.1, first.bounds.2, _, first.toText?⟩
      · exact inductionHypothesis span later

/-- Expansion, in the buffer and as the shell uses it, gives the runs of the texts of the words in
order. Each argument is a run of characters in the text of one word, and its span is where the bytes
of these characters are, inside the buffer. So they always encode a text, the first argument is the
first one of the list, and every argument can be handed over. -/
theorem expand_runs (store : Store) (words : List Word) :
    (expand store words).arguments = (words.flatMap (wordRuns store)).map String.ofList ∧
    Expansion.arguments store words = (expand store words).arguments ∧
    List.Forall₂ (Holds store words)
      (expand store words).spans.toList (words.flatMap (wordRuns store)) ∧
    (∀ span ∈ (expand store words).spans, span.start < span.stop ∧
      span.stop ≤ (expand store words).bytes.size ∧
      ∃ argument, ((expand store words).slice span).toText? = some argument) ∧
    (expand store words).first? = (expand store words).arguments.head? ∧
    (expand store words).byteStrings = .ok ((expand store words).arguments.map Bytes.ofText) := by
  have holds := spans_expand store words
  have arguments :
      (expand store words).arguments = (words.flatMap (wordRuns store)).map String.ofList := by
    rw [arguments_eq, arguments_of_holds holds]
  refine ⟨arguments, ?_, holds, ?_, first?_eq _, ?_⟩
  · rw [arguments, Expansion.arguments_eq_runs]
  · intro span inside
    exact within_of_holds holds span (Array.mem_toList_iff.mpr inside)
  · rw [arguments]
    exact handOver_of_holds holds

end ArgumentBuffer

end CommandShell

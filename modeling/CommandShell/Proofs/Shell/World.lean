import CommandShell.Shell.Routine

/-!
Work in a world that answers its calls. Two kinds of work that differ only in what they write on the
way, and not in what they do with the replies, end in the same way whatever the world is like. Where
one of them writes texts that must not be lost, the world has to be one in which they are not.
-/

namespace CommandShell

/-- A way for everything outside of the shell to behave. -/
structure World where
  State : Type
  /-- The reply to a call, if there ever is one, and the state of the world behind it. -/
  respond : State → (call : Call) → Option (call.Reply × State)
  /-- A text can be written, or not, in any state, and nobody acts upon it. -/
  respond_write : ∀ state stream text,
    ∃ reply, respond state (.write stream text) = some (reply, state)

namespace World

/-- Whatever is written to the stream for errors gets there. -/
def Prints (world : World) : Prop :=
  ∀ state text, world.respond state (.write .errors text) = some (.ok (), state)

/-- A world in which nothing can be done but write. -/
def bare : World where
  State := Unit
  respond
    | _, .write _ _ => some (.ok (), ())
    | _, _ => none
  respond_write _ _ _ := ⟨.ok (), rfl⟩

theorem bare_prints : bare.Prints := fun _ _ => rfl

/-- The reply that a call gets in the end, if it is repeated as long as the reply asks for it. -/
inductive Answers (world : World) (call : Call) (again : call.Reply → Bool) :
    world.State → call.Reply → world.State → Prop where
  | last {state state' : world.State} {reply : call.Reply}
      (responds : world.respond state call = some (reply, state')) (settled : again reply = false) :
      Answers world call again state reply state'
  | more {state state' final : world.State} {reply reply' : call.Reply}
      (responds : world.respond state call = some (reply, state')) (repeats : again reply = true)
      (later : Answers world call again state' reply' final) :
      Answers world call again state reply' final

/-- How work ends in a world, from one state of the world to another. -/
def Ends (world : World) {α : Type} (state : world.State) : Work α → α → world.State → Prop
  | Action.done value, result, final => value = result ∧ state = final
  | Action.ask call again next, result, final =>
    ∃ reply state', world.Answers call again state reply state' ∧
      world.Ends state' (next reply) result final

variable {world : World} {α β : Type}

theorem answers_write {stream : Stream} {text : String} {state state' : world.State}
    {reply : (Call.write stream text).Reply} :
    world.Answers (.write stream text) (fun _ => false) state reply state' ↔
      world.respond state (.write stream text) = some (reply, state') := by
  constructor
  · intro answers
    cases answers with
    | last responds settled => exact responds
    | more responds repeats later => simp at repeats
  · intro responds
    exact .last responds rfl

theorem ends_write {stream : Stream} {text : String} {work : Work α} {state final : world.State}
    {result : α} :
    world.Ends state ((Work.write stream text).bind fun _ => work) result final ↔
      world.Ends state work result final := by
  obtain ⟨reply, responds⟩ := world.respond_write state stream text
  constructor
  · rintro ⟨reply', state', answers, ends⟩
    have responds' := answers_write.mp answers
    rw [responds] at responds'
    obtain ⟨rfl, rfl⟩ := Prod.mk.inj (Option.some.inj responds')
    exact ends
  · intro ends
    exact ⟨reply, state, answers_write.mpr responds, ends⟩

theorem ends_tell {text : String} {work : Work α} {state final : world.State} {result : α}
    (prints : world.Prints) :
    world.Ends state ((Work.tell .errors text).bind fun _ => work) result final ↔
      world.Ends state work result final := by
  constructor
  · rintro ⟨reply', state', answers, ends⟩
    have responds := answers_write.mp answers
    rw [prints state text] at responds
    obtain ⟨rfl, rfl⟩ := Prod.mk.inj (Option.some.inj responds)
    exact ends
  · intro ends
    exact ⟨.ok (), state, answers_write.mpr (prints state text), ends⟩

theorem ends_map {work : Work α} {change : α → β} {state final : world.State} {result : β} :
    world.Ends state (work.bind fun value => .done (change value)) result final ↔
      ∃ value, world.Ends state work value final ∧ change value = result := by
  induction work generalizing state with
  | done value =>
      constructor
      · rintro ⟨same, ended⟩
        exact ⟨value, ⟨rfl, ended⟩, same⟩
      · rintro ⟨_, ⟨rfl, ended⟩, same⟩
        exact ⟨same, ended⟩
  | ask call again next inductionHypothesis =>
      simp only [Action.ask_bind, Ends, inductionHypothesis]
      constructor
      · rintro ⟨reply, state', answers, value, ends, same⟩
        exact ⟨value, ⟨reply, state', answers, ends⟩, same⟩
      · rintro ⟨value, ⟨reply, state', answers, ends⟩, same⟩
        exact ⟨reply, state', answers, value, ends, same⟩

end World

/-- Work that adds to other work no more than texts it writes on the way. Only if it is told to dump
are there some that must not be lost. -/
inductive Work.Adds {α : Type} (dump : Bool) : Work α → Work α → Prop where
  | done (result : α) : Adds dump (Action.done result) (Action.done result)
  | ask {call : Call} {again : call.Reply → Bool} {next next' : call.Reply → Work α}
      (later : ∀ reply, Adds dump (next reply) (next' reply)) :
      Adds dump (Action.ask call again next) (Action.ask call again next')
  | write (stream : Stream) (text : String) {plain work : Work α} (later : Adds dump plain work) :
      Adds dump plain ((Work.write stream text).bind fun _ => work)
  | tell (text : String) {plain work : Work α} (told : dump = true) (later : Adds dump plain work) :
      Adds dump plain ((Work.tell .errors text).bind fun _ => work)

namespace Work.Adds

variable {α β : Type} {dump : Bool}

theorem refl (work : Work α) : work.Adds dump work := by
  induction work with
  | done result => exact .done result
  | ask call again next inductionHypothesis => exact .ask inductionHypothesis

theorem bind {plain work : Work α} {next next' : α → Work β} (first : Work.Adds dump plain work)
    (later : ∀ result, Work.Adds dump (next result) (next' result)) :
    Work.Adds dump (plain.bind next) (work.bind next') := by
  induction first with
  | done result => exact later result
  | ask _ inductionHypothesis => exact .ask inductionHypothesis
  | write stream text _ inductionHypothesis => exact .write stream text inductionHypothesis
  | tell text told _ inductionHypothesis =>
      rw [Action.bind_assoc]
      exact .tell text told inductionHypothesis

/-- In every world in which nothing is lost that must not be, both end in the same way. -/
theorem ends_iff {plain work : Work α} (adds : Work.Adds dump plain work) {world : World}
    (prints : dump = true → world.Prints) {state final : world.State} {result : α} :
    world.Ends state work result final ↔ world.Ends state plain result final := by
  induction adds generalizing state with
  | done result => rfl
  | ask _ inductionHypothesis => simp only [World.Ends, inductionHypothesis]
  | write stream text _ inductionHypothesis => rw [World.ends_write, inductionHypothesis]
  | tell text told _ inductionHypothesis => rw [World.ends_tell (prints told), inductionHypothesis]

end Work.Adds

/-- A routine that adds to another no more than texts it writes on the way. -/
def Routine.Adds {α : Type} (dump : Bool) (plain routine : Routine α) : Prop :=
  ∀ shell, Work.Adds dump (plain shell) (routine shell)

namespace Routine.Adds

variable {α β : Type} {dump : Bool}

theorem refl (routine : Routine α) : routine.Adds dump routine := fun shell => .refl (routine shell)

theorem bind {plain routine : Routine α} {next next' : α → Routine β}
    (first : plain.Adds dump routine) (later : ∀ result, (next result).Adds dump (next' result)) :
    (plain >>= next).Adds dump (routine >>= next') := by
  intro shell
  refine Work.Adds.bind (first shell) fun outcome => ?_
  cases outcome.1 with
  | ok result => exact later result outcome.2
  | error cause => exact .refl _

theorem tell (text : String) {plain routine : Routine α} (told : dump = true)
    (later : plain.Adds dump routine) :
    plain.Adds dump (Routine.lift (Work.tell .errors text) >>= fun _ => routine) := by
  intro shell
  rw [Routine.lift_bind_apply]
  exact .tell text told (later shell)

end Routine.Adds

end CommandShell

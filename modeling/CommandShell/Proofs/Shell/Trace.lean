import CommandShell.Proofs.Shell.Bounds

/-!
Runs of a routine, told by the calls it makes and the replies it gets. The replies may be any that
the calls allow, so what holds of every run holds however the outside world behaves; and they leave
nothing open, so no run goes on from where another has ended.
-/

namespace CommandShell

/-- A call and a reply to it. -/
structure Event where
  call : Call
  reply : call.Reply

/-- The events of a call that is repeated as long as the reply asks for it, and the reply it gets in
the end. -/
inductive Call.Gets (call : Call) (again : call.Reply → Bool) : List Event → call.Reply → Prop where
  | last {reply : call.Reply} (settled : again reply = false) :
      Gets call again [⟨call, reply⟩] reply
  | more {reply reply' : call.Reply} {events : List Event} (repeats : again reply = true)
      (later : Gets call again events reply') : Gets call again (⟨call, reply⟩ :: events) reply'

namespace Work

variable {α β : Type}

/-- Work comes to a result by way of the events. -/
def Leads : Work α → List Event → α → Prop
  | Action.done value, events, result => events = [] ∧ value = result
  | Action.ask call again next, events, result =>
    ∃ first second reply, events = first ++ second ∧ call.Gets again first reply ∧
      Leads (next reply) second result

theorem leads_bind {work : Work α} {next : α → Work β} {events : List Event} {result : β} :
    Leads (work.bind next) events result ↔
      ∃ first second value, events = first ++ second ∧ Leads work first value ∧
        Leads (next value) second result := by
  induction work generalizing events with
  | done value =>
      constructor
      · intro leads
        exact ⟨[], events, value, rfl, ⟨rfl, rfl⟩, leads⟩
      · rintro ⟨_, second, _, rfl, ⟨rfl, rfl⟩, leads⟩
        exact leads
  | ask call again rest inductionHypothesis =>
      constructor
      · rintro ⟨first, _, reply, rfl, gets, leads⟩
        obtain ⟨second, third, value, rfl, leads, later⟩ := (inductionHypothesis reply).mp leads
        exact ⟨first ++ second, third,
          value, by simp, ⟨first, second, reply, rfl, gets, leads⟩, later⟩
      · rintro ⟨_, third, value, rfl, ⟨first, second, reply, rfl, gets, leads⟩, later⟩
        exact ⟨first, second ++ third, reply, by simp, gets,
          (inductionHypothesis reply).mpr ⟨second, third, value, rfl, leads, later⟩⟩

theorem Leads.of_always {work : Work α} {holds : α → Prop} {events : List Event} {result : α}
    (leads : Leads work events result) (always : work.Always holds) : holds result := by
  induction work generalizing events with
  | done value =>
      obtain ⟨_, rfl⟩ := leads
      exact always
  | ask call again next inductionHypothesis =>
      obtain ⟨_, _, reply, _, _, leads⟩ := leads
      exact inductionHypothesis reply leads (always reply)

end Work

theorem Call.gets_once {call : Call} {events : List Event} {reply : call.Reply} :
    call.Gets (fun _ => false) events reply ↔ events = [⟨call, reply⟩] := by
  constructor
  · intro gets
    cases gets with
    | last => rfl
    | more repeats => simp at repeats
  · rintro rfl
    exact .last rfl

theorem Call.Gets.mem {call : Call} {again : call.Reply → Bool} {events : List Event}
    {reply : call.Reply} (gets : call.Gets again events reply) : ⟨call, reply⟩ ∈ events := by
  induction gets with
  | last => exact List.mem_singleton_self _
  | more _ _ inductionHypothesis => exact List.mem_cons_of_mem _ inductionHypothesis

theorem Call.Gets.of_replies {call : Call} {again : call.Reply → Bool} {replies : List call.Reply}
    {reply : call.Reply} (repeated : ∀ reply ∈ replies, again reply = true)
    (settled : again reply = false) :
    call.Gets again (replies.map (Event.mk call) ++ [⟨call, reply⟩]) reply := by
  induction replies with
  | nil => exact .last settled
  | cons first replies inductionHypothesis =>
      obtain ⟨repeats, repeated⟩ := List.forall_mem_cons.mp repeated
      exact .more repeats (inductionHypothesis repeated)

theorem Call.Gets.exists_last {call : Call} {again : call.Reply → Bool} {events : List Event}
    {reply : call.Reply} (gets : call.Gets again events reply) :
    ∃ before, events = before ++ [⟨call, reply⟩] := by
  induction gets with
  | last => exact ⟨[], rfl⟩
  | more _ _ inductionHypothesis =>
      obtain ⟨before, rfl⟩ := inductionHypothesis
      exact ⟨_ :: before, rfl⟩

theorem Call.Gets.settled {call : Call} {again : call.Reply → Bool} {events : List Event}
    {reply : call.Reply} (gets : call.Gets again events reply) : again reply = false := by
  induction gets with
  | last settled => exact settled
  | more _ _ inductionHypothesis => exact inductionHypothesis

/-- Of two ways in which a call is answered, none goes on where the other has ended. -/
theorem Call.Gets.unique {call : Call} {again : call.Reply → Bool}
    {first second more more' : List Event} {reply reply' : call.Reply}
    (gets : call.Gets again first reply) (gets' : call.Gets again second reply')
    (same : first ++ more = second ++ more') : first = second ∧ reply = reply' := by
  induction gets generalizing second with
  | last settled =>
      cases gets' with
      | last =>
          simp only [List.cons_append, List.nil_append, List.cons.injEq, Event.mk.injEq, heq_eq_eq,
            true_and] at same
          exact ⟨by rw [same.1], same.1⟩
      | more repeats =>
          simp only [List.cons_append, List.cons.injEq, Event.mk.injEq, heq_eq_eq, true_and] at same
          rw [← same.1, settled] at repeats
          contradiction
  | more repeats later inductionHypothesis =>
      cases gets' with
      | last settled =>
          simp only [List.cons_append, List.cons.injEq, Event.mk.injEq, heq_eq_eq, true_and] at same
          rw [same.1, settled] at repeats
          contradiction
      | more repeats' later' =>
          simp only [List.cons_append, List.cons.injEq, Event.mk.injEq, heq_eq_eq, true_and] at same
          obtain ⟨rfl, rfl⟩ := inductionHypothesis later' same.2
          exact ⟨by rw [same.1], rfl⟩

theorem Work.leads_ask {call : Call} {events : List Event} {reply : call.Reply} :
    Work.Leads (Work.ask call) events reply ↔ events = [⟨call, reply⟩] := by
  constructor
  · rintro ⟨first, _, _, rfl, gets, rfl, rfl⟩
    rw [List.append_nil]
    exact Call.gets_once.mp gets
  · rintro rfl
    exact ⟨[⟨call, reply⟩], [], reply, rfl, Call.gets_once.mpr rfl, rfl, rfl⟩

theorem Work.leads_tell {stream : Stream} {text : String} {events : List Event} {result : Unit} :
    Work.Leads (Work.tell stream text) events result ↔ events = [⟨.write stream text, .ok ()⟩] := by
  refine Work.leads_bind.trans ?_
  constructor
  · rintro ⟨_, _, reply, rfl, asked, later⟩
    obtain rfl := Work.leads_ask.mp asked
    match reply, later with
    | .ok (), later => rw [later.1, List.append_nil]
    | .error _, ⟨_, _, never, _⟩ => exact nomatch (show Empty from never)
  · rintro rfl
    exact ⟨_, [], .ok (), rfl, Work.leads_ask.mpr rfl, rfl, rfl⟩

/-- Events determine how work goes on: a run is no proper beginning of another. -/
theorem Work.Leads.unique {α : Type} {work : Work α} {first second more more' : List Event}
    {result result' : α} (leads : Work.Leads work first result)
    (leads' : Work.Leads work second result') (same : first ++ more = second ++ more') :
    first = second ∧ result = result' := by
  induction work generalizing first second with
  | done value =>
      obtain ⟨rfl, rfl⟩ := leads
      obtain ⟨rfl, rfl⟩ := leads'
      exact ⟨rfl, rfl⟩
  | ask call again next inductionHypothesis =>
      obtain ⟨start, rest, reply, rfl, gets, leads⟩ := leads
      obtain ⟨start', rest', reply', rfl, gets', leads'⟩ := leads'
      rw [List.append_assoc, List.append_assoc] at same
      obtain ⟨rfl, rfl⟩ := gets.unique gets' same
      obtain ⟨rfl, rfl⟩ := inductionHypothesis reply leads leads' (List.append_cancel_left same)
      exact ⟨rfl, rfl⟩

/-- Behind some events, work makes a call. -/
def Work.Asks {α : Type} : Work α → List Event → Call → Prop
  | Action.done _, _, _ => False
  | Action.ask call again next, events, asked =>
    (∃ replies : List call.Reply, (∀ reply ∈ replies, again reply = true) ∧
      events = replies.map (Event.mk call) ∧ asked = call) ∨
    ∃ first second reply, events = first ++ second ∧ call.Gets again first reply ∧
      Asks (next reply) second asked

namespace Work

variable {α β : Type} {work : Work α} {next : α → Work β} {events first more : List Event}
  {asked : Call}

theorem Leads.not_asks {value : α} (leads : Leads work first value) :
    ¬ Asks work (first ++ more) asked := by
  induction work generalizing first with
  | done result => exact id
  | ask call again rest inductionHypothesis =>
      obtain ⟨start, later, reply, rfl, gets, leads⟩ := leads
      rintro (⟨replies, repeated, same, _⟩ | ⟨start', later', reply', same, gets', asks⟩)
      · -- The last reply to the call is none of those for which it is repeated.
        have member : ⟨call, reply⟩ ∈ replies.map (Event.mk call) := by
          rw [← same, List.append_assoc]
          exact List.mem_append_left _ gets.mem
        obtain ⟨reply', inside, same⟩ := List.mem_map.mp member
        obtain rfl : reply' = reply := by simpa using same
        have going := repeated reply' inside
        rw [gets.settled] at going
        contradiction
      · rw [List.append_assoc] at same
        obtain ⟨rfl, rfl⟩ := gets.unique gets' same
        rw [← List.append_cancel_left same] at asks
        exact inductionHypothesis reply leads asks

theorem asks_bind :
    Asks (work.bind next) events asked ↔ Asks work events asked ∨
      ∃ first second value, events = first ++ second ∧ Leads work first value ∧
        Asks (next value) second asked := by
  induction work generalizing events with
  | done value =>
      constructor
      · intro asks
        exact Or.inr ⟨[], events, value, rfl, ⟨rfl, rfl⟩, asks⟩
      · rintro (impossible | ⟨_, second, _, rfl, ⟨rfl, rfl⟩, asks⟩)
        · exact impossible.elim
        · exact asks
  | ask call again rest inductionHypothesis =>
      constructor
      · rintro (here | ⟨start, later, reply, rfl, gets, asks⟩)
        · exact Or.inl (Or.inl here)
        · rcases (inductionHypothesis reply).mp asks with
              asks | ⟨first, second, value, rfl, leads, asks⟩
          · exact Or.inl (Or.inr ⟨start, later, reply, rfl, gets, asks⟩)
          · exact Or.inr ⟨start ++ first, second,
              value, by simp, ⟨start, first, reply, rfl, gets, leads⟩, asks⟩
      · rintro ((here | ⟨start, later, reply, rfl, gets, asks⟩) |
          ⟨_, second, value, rfl, ⟨start, later, reply, rfl, gets, leads⟩, asks⟩)
        · exact Or.inl here
        · exact Or.inr ⟨start, later, reply, rfl, gets,
            (inductionHypothesis reply).mpr (Or.inl asks)⟩
        · exact Or.inr ⟨start, later ++ second, reply, by simp, gets,
            (inductionHypothesis reply).mpr (Or.inr ⟨later, second, value, rfl, leads, asks⟩)⟩

/-- Behind a run of its first part, work makes the calls of the second. -/
theorem Leads.asks_bind {value : α} (leads : Leads work first value) :
    Asks (work.bind next) (first ++ more) asked ↔ Asks (next value) more asked := by
  rw [Work.asks_bind]
  constructor
  · rintro (asks | ⟨first', second, value', same, leads', asks⟩)
    · exact absurd asks leads.not_asks
    · obtain ⟨rfl, rfl⟩ := leads.unique leads' same
      rw [List.append_cancel_left same]
      exact asks
  · intro asks
    exact Or.inr ⟨first, more, value, rfl, leads, asks⟩

theorem asks_exit {code : Int} : Asks (Work.exit code) events asked ↔
    events = [] ∧ asked = .exit code := by
  constructor
  · rintro (⟨replies, _, rfl, same⟩ | ⟨_, _, reply, _⟩)
    · cases replies with
      | nil => exact ⟨rfl, same⟩
      | cons reply replies => exact nomatch (show Empty from reply)
    · exact nomatch (show Empty from reply)
  · rintro ⟨rfl, rfl⟩
    exact Or.inl ⟨[], by simp, rfl, rfl⟩

theorem Asks.not_leads_of_abort {reason : String} {value : α}
    (asks : Asks work first (.abort reason)) :
    ¬ Leads work (first ++ more) value := by
  induction work generalizing first with
  | done result => exact asks.elim
  | ask call again rest inductionHypothesis =>
      rintro ⟨start, later, reply, same, gets, leads⟩
      rcases asks with ⟨_, _, _, rfl⟩ | ⟨start', later', reply', rfl, gets', asks⟩
      · exact nomatch (show Empty from reply)
      · rw [List.append_assoc] at same
        obtain ⟨rfl, rfl⟩ := gets.unique gets' same.symm
        rw [← List.append_cancel_left same] at leads
        exact inductionHypothesis reply asks leads

/-- Events with which work begins: each is a reply to the call that is made behind those before
it. -/
def Begins (work : Work α) (events : List Event) : Prop :=
  ∀ before event after, events = before ++ event :: after → Asks work before event.call

theorem Begins.replies_or_gets {call : Call} {again : call.Reply → Bool}
    {rest : call.Reply → Work α} (begins : Begins (Action.ask call again rest) events) :
    (∃ replies : List call.Reply, (∀ reply ∈ replies, again reply = true) ∧
      events = replies.map (Event.mk call)) ∨
    ∃ first second reply, events = first ++ second ∧ call.Gets again first reply := by
  rcases List.eq_nil_or_concat events with rfl | ⟨before, ⟨own, reply⟩, rfl⟩
  · exact Or.inl ⟨[], by simp, rfl⟩
  rw [List.concat_eq_append] at begins ⊢
  rcases begins before _ [] rfl with
    ⟨replies, repeated, rfl, same⟩ | ⟨first, second, answer, rfl, gets, _⟩
  · obtain rfl := same
    by_cases repeats : again reply = true
    · refine Or.inl ⟨replies ++ [reply], ?_, by simp⟩
      exact List.forall_mem_append.mpr ⟨repeated, by simpa using repeats⟩
    · refine Or.inr ⟨_, [], reply, (List.append_nil _).symm, ?_⟩
      exact .of_replies repeated (Bool.eq_false_iff.mpr repeats)
  · exact Or.inr ⟨first, _, answer, List.append_assoc .., gets⟩

theorem Begins.leads_or_asks (begins : Begins work events) :
    (∃ value, Leads work events value) ∨ ∃ call, Asks work events call := by
  induction work generalizing events with
  | done value =>
      cases events with
      | nil => exact Or.inl ⟨value, rfl, rfl⟩
      | cons event events => exact (begins [] event events rfl).elim
  | ask call again rest inductionHypothesis =>
      rcases begins.replies_or_gets with
          ⟨replies, repeated, rfl⟩ | ⟨first, second, reply, rfl, gets⟩
      · exact Or.inr ⟨call, Or.inl ⟨replies, repeated, rfl, rfl⟩⟩
      · have answered : Leads (Action.callWhile call again) first reply :=
          ⟨first, [], reply, (List.append_nil _).symm, gets, rfl, rfl⟩
        have later : Begins (rest reply) second := by
          rintro before event after rfl
          exact answered.asks_bind.mp (begins (first ++ before) event after (by simp))
        rcases inductionHypothesis reply later with ⟨value, leads⟩ | ⟨asked, asks⟩
        · exact Or.inl ⟨value, first, second, reply, rfl, gets, leads⟩
        · exact Or.inr ⟨asked, Or.inr ⟨first, second, reply, rfl, gets, asks⟩⟩

end Work

namespace Routine

variable {α β : Type} {shell shell' : Shell} {events : List Event}

/-- A routine comes to an outcome and a state by way of the events. -/
def Leads (routine : Routine α) (shell : Shell) (events : List Event) (outcome : Except Fault α)
    (shell' : Shell) : Prop :=
  Work.Leads (routine shell) events (outcome, shell')

theorem leads_pure {result : α} {outcome : Except Fault α} :
    (pure result : Routine α).Leads shell events outcome shell' ↔
      events = [] ∧ outcome = .ok result ∧ shell' = shell := by
  simp [Leads, Work.Leads, eq_comm]

theorem leads_fail {cause : Fault} {outcome : Except Fault α} :
    (fail cause : Routine α).Leads shell events outcome shell' ↔
      events = [] ∧ outcome = .error cause ∧ shell' = shell := by
  simp [Leads, Work.Leads, eq_comm]

theorem leads_modify {change : Shell → Shell} {outcome : Except Fault Unit} :
    (modify change).Leads shell events outcome shell' ↔
      events = [] ∧ outcome = .ok () ∧ shell' = change shell := by
  simp [Leads, modify, Work.Leads, eq_comm]

theorem leads_lift {work : Work α} {outcome : Except Fault α} :
    (lift work).Leads shell events outcome shell' ↔
      ∃ value, Work.Leads work events value ∧ outcome = .ok value ∧ shell' = shell := by
  simp only [Leads, lift, Work.leads_bind, Work.Leads, Prod.mk.injEq]
  constructor
  · rintro ⟨first, second, value, rfl, leads, rfl, rfl, rfl⟩
    exact ⟨value, by simpa using leads, rfl, rfl⟩
  · rintro ⟨value, leads, rfl, rfl⟩
    exact ⟨events, [], value, by simp, leads, rfl, rfl, rfl⟩

theorem leads_ask {call : Call} {outcome : Except Fault call.Reply} :
    (ask call).Leads shell events outcome shell' ↔
      ∃ reply, events = [⟨call, reply⟩] ∧ outcome = .ok reply ∧ shell' = shell := by
  simp only [ask, leads_lift, Work.leads_ask]

theorem leads_write {stream : Stream} {text : String} {outcome : Except Fault Unit} :
    (lift (Work.write stream text)).Leads shell events outcome shell' ↔
      (∃ reply, events = [⟨.write stream text, reply⟩]) ∧ outcome = .ok () ∧ shell' = shell := by
  simp only [leads_lift, Work.write, Work.ask, Action.call, Action.ask_bind, Action.done_bind,
    Work.Leads, Call.gets_once]
  constructor
  · rintro ⟨_, ⟨_, _, reply, rfl, rfl, rfl, _⟩, rfl, rfl⟩
    exact ⟨⟨reply, by simp⟩, rfl, rfl⟩
  · rintro ⟨⟨reply, rfl⟩, rfl, rfl⟩
    exact ⟨(), ⟨_, [], reply, by simp, rfl, rfl, trivial⟩, rfl, rfl⟩

theorem leads_tell {stream : Stream} {text : String} {outcome : Except Fault Unit} :
    (lift (Work.tell stream text)).Leads shell events outcome shell' ↔
      events = [⟨.write stream text, .ok ()⟩] ∧ outcome = .ok () ∧ shell' = shell := by
  simp only [leads_lift, Work.leads_tell]
  constructor
  · rintro ⟨_, rfl, rfl, rfl⟩
    exact ⟨rfl, rfl, rfl⟩
  · rintro ⟨rfl, rfl, rfl⟩
    exact ⟨(), rfl, rfl, rfl⟩

theorem leads_attempt {routine : Routine α} {outcome : Except Fault (Except Fault α)} :
    routine.attempt.Leads shell events outcome shell' ↔
      ∃ inner, routine.Leads shell events inner shell' ∧ outcome = .ok inner := by
  simp only [Leads, attempt, Work.leads_bind, Work.Leads, Prod.mk.injEq]
  constructor
  · rintro ⟨first, second, ⟨inner, middle⟩, rfl, leads, rfl, rfl, rfl⟩
    exact ⟨inner, by simpa using leads, rfl⟩
  · rintro ⟨inner, leads, rfl⟩
    exact ⟨events, [], (inner, shell'), by simp, leads, rfl, rfl, rfl⟩

theorem leads_bind {routine : Routine α} {next : α → Routine β} {outcome : Except Fault β} :
    (routine >>= next).Leads shell events outcome shell' ↔
      (∃ first second value middle, events = first ++ second ∧
        routine.Leads shell first (.ok value) middle ∧
        (next value).Leads middle second outcome shell') ∨
      ∃ cause, routine.Leads shell events (.error cause) shell' ∧ outcome = .error cause := by
  simp only [Leads, bind_apply, Work.leads_bind]
  constructor
  · rintro ⟨first, second, ⟨inner, middle⟩, rfl, leads, later⟩
    cases inner with
    | ok value => exact Or.inl ⟨first, second, value, middle, rfl, leads, later⟩
    | error cause =>
        obtain ⟨rfl, same⟩ := later
        obtain ⟨rfl, rfl⟩ := Prod.mk.inj same
        exact Or.inr ⟨cause, by simpa using leads, rfl⟩
  · rintro (⟨first, second, value, middle, rfl, leads, later⟩ | ⟨cause, leads, rfl⟩)
    · exact ⟨first, second, (.ok value, middle), rfl, leads, later⟩
    · exact ⟨events, [], (.error cause, shell'), by simp, leads, rfl, rfl⟩

theorem leads_bind_ok {routine : Routine α} {next : α → Routine β} {result : β} :
    (routine >>= next).Leads shell events (.ok result) shell' ↔
      ∃ first second value middle, events = first ++ second ∧
        routine.Leads shell first (.ok value) middle ∧
        (next value).Leads middle second (.ok result) shell' := by
  rw [leads_bind, or_iff_left]
  rintro ⟨cause, _, impossible⟩
  cases impossible

theorem leads_bind_pure {routine : Routine α} {value : β} {outcome : Except Fault β} :
    (routine >>= fun _ => pure value).Leads shell events outcome shell' ↔
      ∃ inner, routine.Leads shell events inner shell' ∧ outcome = inner.map fun _ => value := by
  rw [leads_bind]
  constructor
  · rintro (⟨first, _, result, _, rfl, leads, later⟩ | ⟨cause, leads, rfl⟩)
    · obtain ⟨rfl, rfl, rfl⟩ := leads_pure.mp later
      exact ⟨.ok result, by simpa using leads, rfl⟩
    · exact ⟨.error cause, leads, rfl⟩
  · rintro ⟨inner, leads, rfl⟩
    cases inner with
    | ok result =>
        exact Or.inl ⟨events, [], result, shell', by simp, leads, leads_pure.mpr ⟨rfl, rfl, rfl⟩⟩
    | error cause => exact Or.inr ⟨cause, leads, rfl⟩

theorem leads_get_bind {next : Shell → Routine α} {outcome : Except Fault α} :
    (get >>= next).Leads shell events outcome shell' ↔
      (next shell).Leads shell events outcome shell' :=
  Iff.rfl

theorem leads_modify_bind {change : Shell → Shell} {next : Unit → Routine α}
    {outcome : Except Fault α} :
    (modify change >>= next).Leads shell events outcome shell' ↔
      (next ()).Leads (change shell) events outcome shell' :=
  Iff.rfl

theorem leads_ask_bind {call : Call} {next : call.Reply → Routine α} {outcome : Except Fault α} :
    (ask call >>= next).Leads shell events outcome shell' ↔
      ∃ reply rest, events = ⟨call, reply⟩ :: rest ∧
        (next reply).Leads shell rest outcome shell' := by
  rw [leads_bind]
  constructor
  · rintro (⟨_, rest, value, _, rfl, asked, later⟩ | ⟨_, asked, _⟩)
    · obtain ⟨reply, rfl, same, rfl⟩ := leads_ask.mp asked
      obtain rfl : value = reply := Except.ok.inj same
      exact ⟨value, rest, rfl, later⟩
    · obtain ⟨_, _, impossible, _⟩ := leads_ask.mp asked
      cases impossible
  · rintro ⟨reply, rest, rfl, later⟩
    exact Or.inl ⟨[⟨call, reply⟩], rest, reply, shell, rfl, leads_ask.mpr ⟨reply, rfl, rfl, rfl⟩,
      later⟩

theorem leads_attempt_bind {routine : Routine α} {next : Except Fault α → Routine β}
    {outcome : Except Fault β} :
    (routine.attempt >>= next).Leads shell events outcome shell' ↔
      ∃ first second inner middle, events = first ++ second ∧
        routine.Leads shell first inner middle ∧
        (next inner).Leads middle second outcome shell' := by
  rw [leads_bind]
  constructor
  · rintro (⟨first, second, inner, middle, rfl, attempted, later⟩ | ⟨cause, attempted, _⟩)
    · obtain ⟨inner', leads, same⟩ := leads_attempt.mp attempted
      obtain rfl := Except.ok.inj same
      exact ⟨first, second, inner, middle, rfl, leads, later⟩
    · obtain ⟨_, _, impossible⟩ := leads_attempt.mp attempted
      cases impossible
  · rintro ⟨first, second, inner, middle, rfl, leads, later⟩
    exact Or.inl ⟨first, second, inner, middle, rfl, leads_attempt.mpr ⟨inner, leads, rfl⟩, later⟩

namespace Leads

variable {routine : Routine α} {outcome : Except Fault α}

theorem bind {next : α → Routine β} {first second : List Event} {value : α} {middle : Shell}
    {outcome : Except Fault β} (leads : routine.Leads shell first (.ok value) middle)
    (later : (next value).Leads middle second outcome shell') :
    (routine >>= next).Leads shell (first ++ second) outcome shell' :=
  leads_bind.mpr (Or.inl ⟨first, second, value, middle, rfl, leads, later⟩)

theorem bind_error {next : α → Routine β} {cause : Fault}
    (leads : routine.Leads shell events (.error cause) shell') :
    (routine >>= next).Leads shell events (.error cause) shell' :=
  leads_bind.mpr (Or.inr ⟨cause, leads, rfl⟩)

theorem within {bounds : Bounds} (leads : routine.Leads shell events outcome shell')
    (within : routine.Within bounds) :
    bounds.change shell shell' ∧ ∀ cause, outcome = .error cause → bounds.failure cause := by
  have run : Work.Leads (routine shell) events (outcome, shell') := leads
  exact run.of_always (within shell)

end Leads

end Routine

end CommandShell

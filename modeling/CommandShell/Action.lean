/-!
Work that needs the outside world: a tree of calls, where each call is followed by what is done for
every reply it may get. A call can ask to be repeated as long as its reply is of some kind; how
often that happens is up to the outside world, and the tree is finite all the same.
-/

namespace CommandShell

/-- More rounds than any work that ends goes through. -/
def patience : Nat := Nat.pow 10 12

inductive Action (Call : Type) (Reply : Call → Type) (α : Type) where
  | done (result : α)
  /-- Make a call, again while the reply asks for it, and then go on with the reply. -/
  | ask (call : Call) (again : Reply call → Bool) (next : Reply call → Action Call Reply α)

namespace Action

variable {Call : Type} {Reply : Call → Type} {α β γ : Type}

def call (request : Call) : Action Call Reply (Reply request) :=
  .ask request (fun _ => false) .done

/-- A call that is repeated while the reply asks for it. -/
def callWhile (request : Call) (again : Reply request → Bool) : Action Call Reply (Reply request) :=
  .ask request again .done

def bind : Action Call Reply α → (α → Action Call Reply β) → Action Call Reply β
  | .done result, next => next result
  | .ask request again rest, next => .ask request again fun reply => (rest reply).bind next

instance : Monad (Action Call Reply) where
  pure := .done
  bind := bind

@[simp]
theorem done_bind (result : α) (next : α → Action Call Reply β) :
    (Action.done result).bind next = next result := rfl

@[simp]
theorem ask_bind (request : Call) (again : Reply request → Bool)
    (rest : Reply request → Action Call Reply α) (next : α → Action Call Reply β) :
    (Action.ask request again rest).bind next =
      .ask request again fun reply => (rest reply).bind next := rfl

@[simp]
theorem bind_done (action : Action Call Reply α) : action.bind .done = action := by
  induction action with
  | done result => rfl
  | ask request again rest inductionHypothesis => simp [inductionHypothesis]

theorem bind_assoc (action : Action Call Reply α) (first : α → Action Call Reply β)
    (second : β → Action Call Reply γ) :
    (action.bind first).bind second = action.bind fun result => (first result).bind second := by
  induction action with
  | done result => rfl
  | ask request again rest inductionHypothesis => simp [inductionHypothesis]

end Action

end CommandShell

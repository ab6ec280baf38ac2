import CommandShell.Proofs.Shell.Writes

/-!
What a script writes to a variable is never cut when the variable is expanded. It is an argument
that came of an expansion itself, or the text of a status, and there is no separator in either.
-/

namespace CommandShell

/-- A text with no separator in it. -/
def Unsplit (text : String) : Prop := ∀ c ∈ text.toList, isSeparator c = false

theorem isSeparator_eq_false_iff {c : Char} :
    isSeparator c = false ↔ c ∉ [' ', '\t', '\n', '\x0b', '\x0c', '\r', '\x00'] := by
  simp [isSeparator, and_assoc]

theorem unsplit_repr (number : Nat) : Unsplit number.repr := by
  intro c membership
  rw [Nat.repr_eq_ofList_toDigits, String.toList_ofList] at membership
  have digit := Nat.isDigit_of_mem_toDigits (by decide) (by decide) membership
  rw [isSeparator_eq_false_iff]
  intro listed
  simp only [List.mem_cons, List.not_mem_nil, or_false] at listed
  rcases listed with rfl | rfl | rfl | rfl | rfl | rfl | rfl <;> contradiction

theorem unsplit_toString (status : Int) : Unsplit (toString status) := by
  cases status with
  | ofNat number => exact unsplit_repr number
  | negSucc number =>
      intro c membership
      rw [Int.toString_eq_repr, Int.repr, String.toList_append, List.mem_append] at membership
      rcases membership with sign | digit
      · obtain rfl : c = '-' := by simpa using sign
        rfl
      · exact unsplit_repr _ c digit

namespace Expansion

theorem unsplit_of_mem_cut {pending text : List Char} (held : ∀ c ∈ pending, isSeparator c = false)
    {argument : String} (membership : argument ∈ cut pending text) : Unsplit argument := by
  have closed {pending : List Char} (held : ∀ c ∈ pending, isSeparator c = false) :
      Unsplit (String.ofList pending.reverse) := by
    intro c inside
    exact held c (by simpa using inside)
  fun_induction cut pending text with
  | case1 => exact absurd membership List.not_mem_nil
  | case2 pending _ =>
      obtain rfl := List.mem_singleton.mp membership
      exact closed held
  | case3 pending c rest separates empty inductionHypothesis =>
      exact inductionHypothesis (by simp) membership
  | case4 pending c rest separates going inductionHypothesis =>
      rcases List.mem_cons.mp membership with rfl | later
      · exact closed held
      · exact inductionHypothesis (by simp) later
  | case5 pending c rest goesOn inductionHypothesis =>
      refine inductionHypothesis ?_ membership
      intro d inside
      rcases List.mem_cons.mp inside with rfl | before
      · simpa using goesOn
      · exact held d before

theorem unsplit_of_mem_arguments {store : Store} {words : List Word} {argument : String}
    (membership : argument ∈ arguments store words) : Unsplit argument :=
  unsplit_of_mem_cut (by simp) membership

theorem cut_append {text : List Char} (unsplit : ∀ c ∈ text, isSeparator c = false)
    (pending rest : List Char) :
    cut pending (text ++ rest) = cut (text.reverse ++ pending) rest := by
  induction text generalizing pending with
  | nil => rfl
  | cons c text inductionHypothesis =>
      have solid : isSeparator c = false := unsplit c List.mem_cons_self
      have later := inductionHypothesis (fun d inside => unsplit d (List.mem_cons_of_mem _ inside))
      rw [List.cons_append, cut, solid, if_neg Bool.false_ne_true, later]
      simp

theorem arguments_reference {store : Store} {name value : String}
    (held : store.get? name = some value) (unsplit : Unsplit value) :
    arguments store [.reference name] = if value = "" then [] else [value] := by
  have laid : [Word.reference name].flatMap (Word.laidOut store) = value.toList ++ ['\x00'] := by
    simp [Word.laidOut, Word.contribution?, held]
  rw [arguments, laid, cut_append unsplit]
  split
  · next empty =>
      subst empty
      rfl
  · next going =>
      have nonempty : value.toList ≠ [] := by simpa using going
      simp [cut, isSeparator, nonempty]

end Expansion

namespace Task

/-- The values of the rounds to come were arguments. -/
def Unsplit : Task → Prop
  | .rounds _ _ _ values => ∀ value ∈ values, CommandShell.Unsplit value
  | _ => True

theorem Part.unsplit {part whole : Task} (inside : part.Part whole) (unsplit : whole.Unsplit) :
    part.Unsplit := by
  cases inside with
  | loop => exact fun value membership => Expansion.unsplit_of_mem_arguments membership
  | laterRound => exact fun value membership => unsplit value (List.mem_cons_of_mem _ membership)
  | _ => trivial

theorem Binds.unsplit {task : Task} {name : String} {value : Option String}
    (binds : task.Binds name value) (unsplit : task.Unsplit) :
    CommandShell.Unsplit (value.getD "") := by
  unfold Binds at binds
  split at binds
  · obtain ⟨_, store, rfl⟩ := binds
    cases first : (Expansion.arguments store _).head? with
    | none => simp [CommandShell.Unsplit]
    | some argument => exact Expansion.unsplit_of_mem_arguments (List.mem_of_mem_head? first)
  · obtain ⟨_, store, argument, membership, rfl⟩ := binds
    exact Expansion.unsplit_of_mem_arguments membership
  · obtain ⟨_, argument, membership, rfl⟩ := binds
    exact unsplit argument membership
  · contradiction

end Task

/-- A variable other than the directory keeps its value, or gets one with no separator in it. -/
def Bounds.unsplit : Bounds where
  change first second := ∀ name, recordKey name ≠ "PWD" →
    second.store.get? name = first.store.get? name ∨
      ∃ value, second.store.get? name = some value ∧ Unsplit value
  failure _ := True
  refl _ _ _ := Or.inl rfl
  trans := by
    intro first second third before after name other
    rcases after name other with kept | written
    · rw [kept]
      exact before name other
    · exact Or.inr written

theorem Bounds.unsplit_setVariable {value : Option String} (unsplit : Unsplit (value.getD ""))
    (shell : Shell) (name : String) :
    Bounds.unsplit.change shell (shell.setVariable name value) := by
  intro other _
  by_cases same : recordKey other = recordKey name
  · right
    refine ⟨value.getD "", ?_, unsplit⟩
    have found := Store.get?_set shell.store name value
    rw [Store.get?] at found ⊢
    rw [same]
    exact found
  · exact Or.inl (Store.get?_set_of_ne same shell.store value)

theorem Bounds.unsplit_allows : Bounds.unsplit.conduct.Allows Task.Unsplit where
  hereditary := Task.Part.unsplit
  plain _ _ := trivial
  waits _ := trivial
  forks _ _ _ _ _ := trivial
  inPlace _ _ _ _ _ := ⟨trivial, trivial⟩
  status shell status :=
    @Bounds.unsplit_setVariable (some (toString status)) (unsplit_toString status) shell "?"
  jobs _ _ _ _ := Or.inl rfl
  bindings admitted binds shell := Bounds.unsplit_setVariable (binds.unsplit admitted) shell _
  directory shell value _ other := Or.inl (Store.get?_set_of_ne other shell.store value)
  exit _ := trivial

/-- However a script ends, and whatever replies it got, a variable other than the directory has the
value it had, or one that a reference to it passes on whole. -/
theorem Script.run_unsplit (script : Script) (shell : Shell) {name : String}
    (noDirectory : recordKey name ≠ "PWD") :
    (script.run shell).Always fun outcome =>
      outcome.2.store.get? name = shell.store.get? name ∨
        ∃ value, outcome.2.store.get? name = some value ∧
          (∀ c ∈ value.toList, c ∉ [' ', '\t', '\n', '\x0b', '\x0c', '\r', '\x00']) ∧
          Expansion.arguments outcome.2.store [.reference name] =
            if value = "" then [] else [value] := by
  have within : script.run.Within .unsplit :=
    (Bounds.unsplit_allows.task script.task trivial).within
  refine (within shell).imp ?_
  rintro outcome ⟨changed, _⟩
  rcases changed name noDirectory with kept | ⟨value, held, unsplit⟩
  · exact Or.inl kept
  · refine Or.inr ⟨value, held, ?_, Expansion.arguments_reference held unsplit⟩
    intro c membership
    exact isSeparator_eq_false_iff.mp (unsplit c membership)

theorem Script.run_unsplit_loop :
    recordKey "z" ≠ "PWD" ∧
    (Script.run [.mk (.loop false (.literal "x") [.reference "y"]
      [.mk (.assignment "z" [.reference "x"]) false]) false]
        (.start {} [("y", "a b"), ("z", "c d")])).Always
      fun outcome =>
        outcome.2.store.get? "z" = (Shell.start {} [("y", "a b"), ("z", "c d")]).store.get? "z" ∨
        ∃ value, outcome.2.store.get? "z" = some value ∧
          (∀ c ∈ value.toList, c ∉ [' ', '\t', '\n', '\x0b', '\x0c', '\r', '\x00']) ∧
          Expansion.arguments outcome.2.store [.reference "z"] =
            if value = "" then [] else [value] :=
  ⟨by decide, Script.run_unsplit _ _ (by decide)⟩

end CommandShell

/-!
# `Keyring.Proofs.Run`: running actions step by step

An action that may fail and may change a state runs to a result and a state; a
failure keeps the state that was reached. The lemmas run an action from its
first step on, by what that step runs to.
-/

set_option autoImplicit false

namespace Keyring

/-- Two steps of which either may fail succeed exactly if the first one does and then the
second. -/
theorem bind_eq_ok_iff {ε α β : Type} {act : Except ε α} {rest : α → Except ε β} {y : β} :
    (act >>= rest) = .ok y ↔ ∃ x, act = .ok x ∧ rest x = .ok y := by
  cases act with
  | error e => exact ⟨nofun, fun ⟨_, h, _⟩ => absurd h nofun⟩
  | ok x => exact ⟨fun h => ⟨x, rfl, h⟩, fun ⟨_, hx, h⟩ => Except.ok.inj hx ▸ h⟩

variable {ε ρ α β : Type} {act : ExceptT ε (StateM ρ) α} {state state' : ρ}

/-- An action that only gives a value leaves the state as it is. -/
theorem run_pure (x : α) (state : ρ) :
    (pure x : ExceptT ε (StateM ρ) α).run state = (.ok x, state) :=
  rfl

/-- Reading the state leaves it as it is. With it a program that begins by reading is the
program that is given the state. -/
theorem run_get (state : ρ) : (get : ExceptT ε (StateM ρ) ρ).run state = (.ok state, state) :=
  rfl

/-- A step that gives a value and changes the state does not fail. -/
theorem run_modifyGet (f : ρ → α × ρ) (state : ρ) :
    (modifyGet f : ExceptT ε (StateM ρ) α).run state = (.ok (f state).1, (f state).2) :=
  rfl

/-- What an action and the rest after it run to. The state after a failure is kept, which is
what the proofs about failures go by. -/
theorem run_bind (act : ExceptT ε (StateM ρ) α) (rest : α → ExceptT ε (StateM ρ) β) (state : ρ) :
    (act >>= rest).run state =
      match act.run state with
      | (.ok x, state') => (rest x).run state'
      | (.error e, state') => (.error e, state') := by
  show (match (act.run state).1 with
    | .ok x => (rest x).run
    | .error e => pure (.error e)) (act.run state).2 = _
  obtain ⟨result, state'⟩ := act.run state
  cases result <;> rfl

/-- After a step that succeeds comes the rest, in the state that the step left. -/
theorem run_bind_ok {x : α} (h : act.run state = (.ok x, state'))
    (rest : α → ExceptT ε (StateM ρ) β) : (act >>= rest).run state = (rest x).run state' := by
  rw [run_bind, h]

/-- A step that fails ends the action, in the state that the step left. -/
theorem run_bind_error {e : ε} (h : act.run state = (.error e, state'))
    (rest : α → ExceptT ε (StateM ρ) β) : (act >>= rest).run state = (.error e, state') := by
  rw [run_bind, h]

/-- What succeeds has a first step that succeeds, and then the rest does. -/
theorem exists_of_run_bind_ok {rest : α → ExceptT ε (StateM ρ) β} {y : β}
    (h : (act >>= rest).run state = (.ok y, state')) :
    ∃ x mid, act.run state = (.ok x, mid) ∧ (rest x).run mid = (.ok y, state') := by
  rw [run_bind] at h
  generalize act.run state = outcome at h
  obtain ⟨result, mid⟩ := outcome
  cases result with
  | error e => cases congrArg Prod.fst h
  | ok x => exact ⟨x, mid, rfl, h⟩

/-- What an action and a handler of its failures run to. The handler starts in the state that
the failure left. -/
theorem run_tryCatch (act : ExceptT ε (StateM ρ) α) (handler : ε → ExceptT ε (StateM ρ) α)
    (state : ρ) :
    (tryCatch act handler).run state =
      match act.run state with
      | (.ok x, state') => (.ok x, state')
      | (.error e, state') => (handler e).run state' := by
  show (match (act.run state).1 with
    | .ok x => pure (Except.ok x)
    | .error e => (handler e).run) (act.run state).2 = _
  obtain ⟨result, state'⟩ := act.run state
  cases result <;> rfl

/-! ### What a run keeps -/

/-- Every run of the action keeps a property of the state, also a run that fails. -/
def Keeps (inv : ρ → Prop) (act : ExceptT ε (StateM ρ) α) : Prop :=
  ∀ state, inv state → inv (act.run state).2

variable {inv : ρ → Prop}

/-- An action that only gives a value keeps everything. The state is the one that it was. -/
theorem keeps_pure (x : α) : Keeps inv (pure x : ExceptT ε (StateM ρ) α) := fun _ h => h

/-- An action that only fails keeps everything. The state is the one that it was. -/
theorem keeps_throw (e : ε) : Keeps inv (throw e : ExceptT ε (StateM ρ) α) := fun _ h => h

/-- Two steps keep what each of them keeps, also if the first one fails. -/
theorem Keeps.bind {rest : α → ExceptT ε (StateM ρ) β} (hact : Keeps inv act)
    (hrest : ∀ x, Keeps inv (rest x)) : Keeps inv (act >>= rest) := by
  intro state h
  have hmid := hact state h
  rw [run_bind]
  generalize act.run state = outcome at hmid
  obtain ⟨result, state'⟩ := outcome
  cases result with
  | error e => exact hmid
  | ok x => exact hrest x state' hmid

/-- The rest need only keep the property for what the first step can give. -/
theorem Keeps.bind_of {rest : α → ExceptT ε (StateM ρ) β} (hact : Keeps inv act)
    (hrest : ∀ state x, (act.run state).1 = .ok x → Keeps inv (rest x)) :
    Keeps inv (act >>= rest) := by
  intro state h
  have hmid := hact state h
  have hgives := hrest state
  rw [run_bind]
  generalize act.run state = outcome at hmid hgives
  obtain ⟨result, state'⟩ := outcome
  cases result with
  | error e => exact hmid
  | ok x => exact hgives x rfl state' hmid

/-- An action with a handler keeps what the two keep. The handler starts from the state in
which the action failed, and that state has the property too. -/
theorem Keeps.tryCatch {handler : ε → ExceptT ε (StateM ρ) α} (hact : Keeps inv act)
    (hhandler : ∀ e, Keeps inv (handler e)) : Keeps inv (tryCatch act handler) := by
  intro state h
  have hmid := hact state h
  rw [run_tryCatch]
  generalize act.run state = outcome at hmid
  obtain ⟨result, state'⟩ := outcome
  cases result with
  | error e => exact hhandler e state' hmid
  | ok x => exact hmid

/-- If every handler fails, what succeeds is the action itself. A handler that takes back a
wallet is of this kind, since it ends by failing with the error that it was given. -/
theorem run_eq_ok_of_tryCatch {handler : ε → ExceptT ε (StateM ρ) α}
    (hhandler : ∀ e state x, ((handler e).run state).1 ≠ .ok x) {x : α}
    (h : ((tryCatch act handler).run state).1 = .ok x) : (act.run state).1 = .ok x := by
  rw [run_tryCatch] at h
  generalize act.run state = outcome at h ⊢
  obtain ⟨result, state'⟩ := outcome
  cases result with
  | error e => exact absurd h (hhandler e state' x)
  | ok y => exact h

/-- What ends in a failure fails. If the first part fails the second is not reached, and
otherwise it fails itself. -/
theorem run_bind_throw_ne_ok (act : ExceptT ε (StateM ρ) α) (e : ε) (state : ρ) (x : β) :
    ((act >>= fun _ => throw e : ExceptT ε (StateM ρ) β).run state).1 ≠ .ok x := by
  rw [run_bind]
  obtain ⟨result, state'⟩ := act.run state
  cases result <;> exact nofun

/-! ### What a run gives -/

/-- What the action gives has a property, in every run that succeeds. -/
def Yields (good : α → Prop) (act : ExceptT ε (StateM ρ) α) : Prop :=
  ∀ state x, (act.run state).1 = .ok x → good x

variable {good : α → Prop} {better : β → Prop}

/-- A value that has the property is yielded. It yields no other value. -/
theorem yields_pure {x : α} (h : good x) : Yields good (pure x : ExceptT ε (StateM ρ) α) :=
  fun _ _ heq => Except.ok.inj heq ▸ h

/-- What fails gives nothing that would have to have the property. The hypothesis that
something was given is false. -/
theorem yields_throw (e : ε) : Yields good (throw e : ExceptT ε (StateM ρ) α) :=
  fun _ _ h => absurd h nofun

/-- The rest need only yield the property for what the first step yields. -/
theorem Yields.bind {rest : α → ExceptT ε (StateM ρ) β} (hact : Yields good act)
    (hrest : ∀ x, good x → Yields better (rest x)) : Yields better (act >>= rest) := by
  intro state y h
  have hgood := hact state
  rw [run_bind] at h
  generalize act.run state = outcome at h hgood
  obtain ⟨result, state'⟩ := outcome
  cases result with
  | error e => exact absurd h nofun
  | ok x => exact hrest x (hgood x rfl) state' y h

/-- It is enough that the rest yields the property for whatever the first step gives. -/
theorem yields_bind (act : ExceptT ε (StateM ρ) α) {rest : α → ExceptT ε (StateM ρ) β}
    (hrest : ∀ x, Yields better (rest x)) : Yields better (act >>= rest) := by
  have hact : Yields (fun _ => True) act := fun _ _ _ => trivial
  exact hact.bind fun x _ => hrest x

end Keyring

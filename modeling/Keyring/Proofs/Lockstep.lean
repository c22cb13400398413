import Keyring.Proofs.Run

/-!
# `Keyring.Proofs.Lockstep`: two runs side by side

Two actions that start from related states come to results that agree, and to related states
again: both fail with the same error, or both succeed with related values. A statement about what
two runs have in common is proved step by step, like one about a single run.

* `Lockstep.bind`, `Lockstep.tryCatch`: the rules for actions made of actions.
-/

set_option autoImplicit false

namespace Keyring

variable {ε ρ α α' β β' : Type}

/-- Two results are the same error, or two values that are related. -/
inductive Agree (values : α → β → Prop) : Except ε α → Except ε β → Prop
  | error (e : ε) : Agree values (.error e) (.error e)
  | ok {x : α} {y : β} (h : values x y) : Agree values (.ok x) (.ok y)

/-- Results agree in a weaker relation if they agree in a stronger one. -/
theorem Agree.mono {values values' : α → β → Prop} {result : Except ε α} {result' : Except ε β}
    (h : Agree values result result') (hvalues : ∀ x y, values x y → values' x y) :
    Agree values' result result' := by
  cases h with
  | error e => exact .error e
  | ok hxy => exact .ok (hvalues _ _ hxy)

/-- Results agree still when their errors are told in another way. An error is the same on
both sides, so it is told in the same way. -/
theorem Agree.mapError {ε' : Type} {values : α → β → Prop} {result : Except ε α}
    {result' : Except ε β} (h : Agree values result result') (f : ε → ε') :
    Agree values (result.mapError f) (result'.mapError f) := by
  cases h with
  | error e => exact .error (f e)
  | ok hxy => exact .ok hxy

/-- A result agrees with itself, if every value is related to itself. It is used where both
runs do the same to the same data. -/
theorem agree_refl {values : α → α → Prop} (hvalues : ∀ x, values x x) (result : Except ε α) :
    Agree values result result := by
  cases result with
  | error e => exact .error e
  | ok x => exact .ok (hvalues x)

/-- From related states two actions come to results that agree, and to related states. -/
def Lockstep (states : ρ → ρ → Prop) (values : α → β → Prop) (act : ExceptT ε (StateM ρ) α)
    (act' : ExceptT ε (StateM ρ) β) : Prop :=
  ∀ a b, states a b →
    Agree values (act.run a).1 (act'.run b).1 ∧ states (act.run a).2 (act'.run b).2

variable {states : ρ → ρ → Prop} {values : α → β → Prop} {values' : α' → β' → Prop}
  {act : ExceptT ε (StateM ρ) α} {act' : ExceptT ε (StateM ρ) β}

/-- Two actions that only give values go in lockstep if the values are related. -/
theorem lockstep_pure {x : α} {y : β} (h : values x y) :
    Lockstep states values (pure x : ExceptT ε (StateM ρ) α) (pure y) :=
  fun _ _ hstates => ⟨.ok h, hstates⟩

/-- Two actions that fail with one error go in lockstep. The states are left as they are, so
they are related as before. -/
theorem lockstep_throw (e : ε) :
    Lockstep states values (throw e : ExceptT ε (StateM ρ) α) (throw e) :=
  fun _ _ hstates => ⟨.error e, hstates⟩

/-- A step that gives a value and changes the state goes in lockstep with another if both the
values and the new states are related. -/
theorem lockstep_modifyGet {f : ρ → α × ρ} {g : ρ → β × ρ}
    (h : ∀ a b, states a b → values (f a).1 (g b).1 ∧ states (f a).2 (g b).2) :
    Lockstep states values (modifyGet f : ExceptT ε (StateM ρ) α) (modifyGet g) :=
  fun a b hstates => ⟨.ok (h a b hstates).1, (h a b hstates).2⟩

/-- An action goes in lockstep with itself, if related states are the same. This covers the
steps that do not touch what the two runs differ in. -/
theorem lockstep_self {values : α → α → Prop} (hstates : ∀ a b, states a b → a = b)
    (hvalues : ∀ x, values x x) (act : ExceptT ε (StateM ρ) α)
    (hact : ∀ a, states a a) : Lockstep states values act act := by
  intro a b h
  rw [hstates a b h]
  exact ⟨agree_refl hvalues _, hact _⟩

/-- Actions go in lockstep if their first steps do, and what comes after related values. If
the first steps fail, they fail with one error and nothing comes after them. -/
theorem Lockstep.bind {rest : α → ExceptT ε (StateM ρ) α'} {rest' : β → ExceptT ε (StateM ρ) β'}
    (hact : Lockstep states values act act')
    (hrest : ∀ x y, values x y → Lockstep states values' (rest x) (rest' y)) :
    Lockstep states values' (act >>= rest) (act' >>= rest') := by
  intro a b hstates
  obtain ⟨hagree, hmid⟩ := hact a b hstates
  rw [run_bind, run_bind]
  generalize act.run a = outcome at hagree hmid
  generalize act'.run b = outcome' at hagree hmid
  obtain ⟨result, mid⟩ := outcome
  obtain ⟨result', mid'⟩ := outcome'
  cases hagree with
  | error e => exact ⟨.error e, hmid⟩
  | ok hxy => exact hrest _ _ hxy mid mid' hmid

/-- Actions with handlers go in lockstep, since the handlers see the same error. With
`Lockstep.bind` every program that is built from related calls is covered. -/
theorem Lockstep.tryCatch {handler : ε → ExceptT ε (StateM ρ) α}
    {handler' : ε → ExceptT ε (StateM ρ) β} (hact : Lockstep states values act act')
    (hhandler : ∀ e, Lockstep states values (handler e) (handler' e)) :
    Lockstep states values (tryCatch act handler) (tryCatch act' handler') := by
  intro a b hstates
  obtain ⟨hagree, hmid⟩ := hact a b hstates
  rw [run_tryCatch, run_tryCatch]
  generalize act.run a = outcome at hagree hmid
  generalize act'.run b = outcome' at hagree hmid
  obtain ⟨result, mid⟩ := outcome
  obtain ⟨result', mid'⟩ := outcome'
  cases hagree with
  | error e => exact hhandler e mid mid' hmid
  | ok hxy => exact ⟨.ok hxy, hmid⟩

end Keyring

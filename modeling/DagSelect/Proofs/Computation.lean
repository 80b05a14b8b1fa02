/-
Module: DagSelect.Proofs.Computation
Purpose: How the computations of the library are taken apart in proofs. A computation with a state
  ends with a result or with a failure, and both ends are described at once, so that one statement
  says what a computation achieves and why it can fail. An attempt to match is inverted into the
  attempts that it is made of.
Main exports: Ends, Ends.bind, Ends.refuse, Ends.liftM, run_bind_eq_ok, run_bind_congr,
  Fault.Orderly, Confined, Attempt.Finds, Attempt.finds_bind, Attempt.confined_bind
-/
import DagSelect.Pattern.Attempt
import Mathlib.Data.List.Forall2

namespace DagSelect

/-! ### Computations with a state -/

section Ends

variable {ε σ α β : Type}

/-- What holds of a result and what holds of a failure, each with the state that it leaves. -/
def Ends (returned : α → σ → Prop) (failed : ε → σ → Prop) : EStateM.Result ε σ α → Prop
  | .ok a state => returned a state
  | .error cause state => failed cause state

namespace Ends

variable {returned : α → σ → Prop} {failed : ε → σ → Prop} {state state' : σ}

@[simp] theorem ok_iff {a : α} :
    Ends returned failed (.ok a state : EStateM.Result ε σ α) ↔ returned a state := Iff.rfl

@[simp] theorem error_iff {cause : ε} :
    Ends returned failed (.error cause state : EStateM.Result ε σ α) ↔ failed cause state := Iff.rfl

instance [∀ a state, Decidable (returned a state)] [∀ cause state, Decidable (failed cause state)] :
    (result : EStateM.Result ε σ α) → Decidable (Ends returned failed result)
  | .ok a state => inferInstanceAs (Decidable (returned a state))
  | .error cause state => inferInstanceAs (Decidable (failed cause state))

/-- The description of a computation applies to its result. -/
theorem of_ok {result : EStateM.Result ε σ α} {a : α} (ends : Ends returned failed result)
    (run : result = .ok a state) : returned a state := by
  rw [run] at ends
  exact ends

/-- The description of a computation applies to its failure. -/
theorem of_error {result : EStateM.Result ε σ α} {cause : ε} (ends : Ends returned failed result)
    (run : result = .error cause state) : failed cause state := by
  rw [run] at ends
  exact ends

/-- A description may be weakened at both ends. -/
theorem mono {returned' : α → σ → Prop} {failed' : ε → σ → Prop}
    {result : EStateM.Result ε σ α} (ends : Ends returned failed result)
    (onResult : ∀ a state, returned a state → returned' a state)
    (onFailure : ∀ cause state, failed cause state → failed' cause state) :
    Ends returned' failed' result := by
  cases result with
  | ok a state => exact onResult a state ends
  | error cause state => exact onFailure cause state ends

/-- One computation after another. -/
theorem bind {first : EStateM ε σ α} {next : α → EStateM ε σ β} {middle : α → σ → Prop}
    {returned : β → σ → Prop} (begins : Ends middle failed (first.run state))
    (continues : ∀ a state', middle a state' → Ends returned failed ((next a).run state')) :
    Ends returned failed ((first >>= next).run state) := by
  rw [EStateM.run_bind]
  cases firstRun : first.run state with
  | ok a state' =>
      rw [firstRun] at begins
      exact continues a state' begins
  | error cause state' =>
      rw [firstRun] at begins
      exact begins

/-- What is described is the result. -/
theorem with_run {result : EStateM.Result ε σ α} (ends : Ends returned failed result) :
    Ends (fun a state => result = .ok a state ∧ returned a state) failed result := by
  cases result with
  | ok a state => exact ⟨rfl, ends⟩
  | error cause state => exact ends

/-- A computation that cannot fail. -/
theorem exists_ok {result : EStateM.Result ε σ α}
    (ends : Ends returned (fun (_ : ε) _ => False) result) :
    ∃ a state, result = .ok a state ∧ returned a state := by
  cases result with
  | ok a state => exact ⟨a, state, rfl, ends⟩
  | error cause state => exact False.elim ends

/-- A computation that cannot succeed. -/
theorem exists_error {result : EStateM.Result ε σ α}
    (ends : Ends (fun (_ : α) _ => False) failed result) :
    ∃ cause state, result = .error cause state ∧ failed cause state := by
  cases result with
  | ok a state => exact False.elim ends
  | error cause state => exact ⟨cause, state, rfl, ends⟩

end Ends

/-- A sequence that ends with a result went through its first part. -/
theorem run_bind_eq_ok {first : EStateM ε σ α} {next : α → EStateM ε σ β} {state final : σ}
    {b : β} :
    (first >>= next).run state = .ok b final ↔
      ∃ a middle, first.run state = .ok a middle ∧ (next a).run middle = .ok b final := by
  rw [EStateM.run_bind]
  cases first.run state with
  | ok a middle =>
      constructor
      · intro run
        exact ⟨a, middle, rfl, run⟩
      · rintro ⟨_, _, same, run⟩
        cases same
        exact run
  | error cause middle => simp

/-- A sequence that begins with a refusal and ends with a result was not refused. -/
theorem run_refuse_eq_ok {refused : Prop} [Decidable refused] {cause : ε}
    {next : PUnit → EStateM ε σ α} {rest : EStateM ε σ α} {state final : σ} {a : α} :
    (if refused then throw cause >>= next else rest).run state = .ok a final ↔
      ¬ refused ∧ rest.run state = .ok a final := by
  by_cases holds : refused
  · simp [holds]
  · simp [holds]

/-- A sequence that begins with a refusal fails there or goes on. -/
theorem Ends.refuse {returned : α → σ → Prop} {failed : ε → σ → Prop} {refused : Prop}
    [Decidable refused] {cause : ε} {next : PUnit → EStateM ε σ α} {rest : EStateM ε σ α} {state : σ}
    (refuses : refused → failed cause state)
    (continues : ¬ refused → Ends returned failed (rest.run state)) :
    Ends returned failed ((if refused then throw cause >>= next else rest).run state) := by
  by_cases holds : refused
  · rw [if_pos holds]
    exact refuses holds
  · rw [if_neg holds]
    exact continues holds

/-- A change of the failures keeps the results. -/
theorem run_adaptExcept_eq_ok {ε' : Type} {change : ε → ε'} {action : EStateM ε σ α} {a : α}
    {state final : σ} :
    (EStateM.adaptExcept change action).run state = .ok a final ↔
      action.run state = .ok a final := by
  rw [EStateM.run_adaptExcept]
  cases action.run state with
  | ok b middle => simp
  | error cause middle => simp

/-- A change of the failures changes their description alone. -/
theorem Ends.adaptExcept {ε' : Type} {change : ε → ε'} {action : EStateM ε σ α}
    {returned : α → σ → Prop} {failed : ε' → σ → Prop} {state : σ}
    (ends : Ends returned (fun cause => failed (change cause)) (action.run state)) :
    Ends returned failed ((EStateM.adaptExcept change action).run state) := by
  rw [EStateM.run_adaptExcept]
  cases run : action.run state with
  | ok a final =>
      rw [run] at ends
      exact ends
  | error cause final =>
      rw [run] at ends
      exact ends

/-- A traversal fails as one of its steps does. -/
theorem Ends.mapM {step : α → EStateM ε σ β} {failed : ε → σ → Prop}
    (steps : ∀ a state, Ends (fun _ _ => True) failed ((step a).run state)) (inputs : List α)
    (state : σ) : Ends (fun _ _ => True) failed ((inputs.mapM step).run state) := by
  induction inputs generalizing state with
  | nil => trivial
  | cons input rest inductionHypothesis =>
      rw [List.mapM_cons]
      refine .bind (steps input state) fun _ middle _ => ?_
      exact .bind (inductionHypothesis middle) fun _ _ _ => trivial

@[simp] theorem run_liftM_ok (a : α) (state : σ) :
    (liftM (Except.ok a : Except ε α) : EStateM ε σ α).run state = .ok a state := rfl

@[simp] theorem run_liftM_error (cause : ε) (state : σ) :
    (liftM (Except.error cause : Except ε α) : EStateM ε σ α).run state = .error cause state := rfl

theorem run_liftM_ok_bind (a : α) (next : α → EStateM ε σ β) (state : σ) :
    ((liftM (Except.ok a : Except ε α) : EStateM ε σ α) >>= next).run state = (next a).run state :=
  rfl

/-- A question inside a computation leaves the state alone. -/
theorem Ends.liftM {answer : Except ε α} {state : σ} :
    Ends (fun a state' => answer = .ok a ∧ state' = state)
      (fun cause state' => answer = .error cause ∧ state' = state)
      ((liftM answer : EStateM ε σ α).run state) := by
  cases answer with
  | ok a => exact ⟨rfl, rfl⟩
  | error cause => exact ⟨rfl, rfl⟩

end Ends

/-! ### Questions -/

/-- A fault other than the release of a use that was never counted. -/
def Fault.Orderly (cause : Fault) : Prop := ∀ id, cause ≠ .useUnderflow id

section Questions

variable {α β : Type} {first : Except Fault α} {next : α → Except Fault β}

/-- A sequence of questions is answered if each of them is. -/
theorem except_bind_eq_ok {ε : Type} {first : Except ε α} {next : α → Except ε β} {b : β} :
    (first >>= next) = .ok b ↔ ∃ a, first = .ok a ∧ next a = .ok b := by
  cases first <;> simp [bind, Except.bind]

/-- A traversal answers the questions one by one. -/
theorem forall₂_of_mapM_eq_ok {ε : Type} {step : α → Except ε β} {inputs : List α}
    {outputs : List β} (answered : inputs.mapM step = .ok outputs) :
    List.Forall₂ (fun a b => step a = .ok b) inputs outputs := by
  induction inputs generalizing outputs with
  | nil =>
      cases answered
      exact .nil
  | cons input rest inductionHypothesis =>
      rw [List.mapM_cons] at answered
      obtain ⟨first, firstAnswer, answered⟩ := except_bind_eq_ok.mp answered
      obtain ⟨others, otherAnswers, result⟩ := except_bind_eq_ok.mp answered
      cases result
      exact .cons firstAnswer (inductionHypothesis otherAnswers)

theorem exists_mem_of_forall₂ {related : α → β → Prop} {first : List α} {second : List β}
    (all : List.Forall₂ related first second) {b : β} (member : b ∈ second) :
    ∃ a ∈ first, related a b := by
  induction all with
  | nil => cases member
  | @cons a other _ _ pair _ inductionHypothesis =>
      rcases List.mem_cons.mp member with rfl | later
      · exact ⟨a, List.mem_cons_self, pair⟩
      · obtain ⟨a, listed, pair⟩ := inductionHypothesis later
        exact ⟨a, List.mem_cons_of_mem _ listed, pair⟩

/-- A question that breaks off only for causes of a kind. -/
def Confined (allowed : Fault → Prop) (answer : Except Fault α) : Prop :=
  ∀ cause, answer = .error cause → allowed cause

theorem confined_ok {allowed : Fault → Prop} (a : α) :
    Confined allowed (.ok a : Except Fault α) := by
  intro cause failed
  cases failed

theorem Confined.bind {allowed : Fault → Prop} (begins : Confined allowed first)
    (continues : ∀ a, first = .ok a → Confined allowed (next a)) :
    Confined allowed (first >>= next) := by
  intro cause failed
  cases answer : first with
  | error other =>
      rw [answer] at failed
      cases failed
      exact begins cause answer
  | ok a =>
      rw [answer] at failed
      exact continues a answer cause failed

/-- A question that never breaks off is answered. -/
theorem Confined.exists_ok {answer : Except Fault α} (confined : Confined (fun _ => False) answer) :
    ∃ a, answer = .ok a := by
  cases given : answer with
  | error cause => exact (confined cause given).elim
  | ok a => exact ⟨a, rfl⟩

end Questions

/-! ### Attempts -/

namespace Attempt

variable {α β : Type}

/-- The attempt found something. -/
def Finds (attempt : Attempt α) (a : α) : Prop :=
  attempt.result = .ok (some a)

/-- A sequence of attempts finds what the second finds after the first. -/
theorem finds_bind {first : Attempt α} {next : α → Attempt β} {b : β} :
    (first >>= next).Finds b ↔ ∃ a, first.Finds a ∧ (next a).Finds b := by
  change (first.andThen next).result = _ ↔ _
  unfold andThen Finds
  split <;> simp_all

@[simp] theorem finds_pure {a b : α} : (pure a : Attempt α).Finds b ↔ a = b := by
  change Except.ok (some a) = Except.ok (some b) ↔ _
  simp

@[simp] theorem finds_success {a b : α} : (success a).Finds b ↔ a = b := by
  simp [success, Finds]

@[simp] theorem not_finds_failure {a : α} : ¬ (failure : Attempt α).Finds a := by
  simp [failure, Finds]

@[simp] theorem finds_ask {answer : Except Fault α} {a : α} :
    (ask answer).Finds a ↔ answer = .ok a := by
  cases answer <;> simp [ask, Finds, Except.map]

@[simp] theorem finds_require {condition : Bool} {a : Unit} :
    (require condition).Finds a ↔ condition = true := by
  cases condition <;> simp [require]

/-- An alternative is taken only if the first attempt failed. -/
theorem finds_orElse {first : Attempt α} {other : Unit → Attempt α} {a : α} :
    (first.orElse other).Finds a ↔
      first.Finds a ∨ first.result = .ok none ∧ (other ()).Finds a := by
  unfold orElse Finds
  split <;> simp_all

section Confined

variable {allowed : Fault → Prop}

theorem confined_bind {first : Attempt α} {next : α → Attempt β}
    (begins : Confined allowed first.result)
    (continues : ∀ a, first.Finds a → Confined allowed (next a).result) :
    Confined allowed (first >>= next).result := by
  change Confined allowed (first.andThen next).result
  unfold andThen
  split
  · rename_i cause failed
    intro other same
    cases same
    exact begins cause failed
  · exact confined_ok none
  · rename_i a found
    exact continues a found

theorem confined_pure (a : α) : Confined allowed (pure a : Attempt α).result :=
  confined_ok (some a)

theorem confined_ask {answer : Except Fault α} (confined : Confined allowed answer) :
    Confined allowed (ask answer).result := by
  intro cause failed
  cases answered : answer with
  | ok a => simp [ask, answered, Except.map] at failed
  | error other =>
      simp only [ask, answered, Except.map, Except.error.injEq] at failed
      exact failed ▸ confined other answered

theorem confined_require (condition : Bool) : Confined allowed (require condition).result := by
  cases condition <;> exact confined_ok _

theorem confined_orElse {first : Attempt α} {other : Unit → Attempt α}
    (begins : Confined allowed first.result) (continues : Confined allowed (other ()).result) :
    Confined allowed (first.orElse other).result := by
  unfold orElse
  split
  · exact continues
  · exact begins

end Confined

end Attempt

end DagSelect

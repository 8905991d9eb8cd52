import Mathlib.Data.List.Infix

/-!
# Guarded executions

An execution runs a list of actions through a partial transition function; a disabled action
makes the whole run undefined.  `Guarded` records that a condition held in the state before each
step, and the rules at the end turn facts about single steps into facts about whole runs.
-/

namespace Execution

variable {σ α : Type*}

/-- Run a finite list of actions, failing when one of them is not enabled. -/
def run (step : σ → α → Option σ) : List α → σ → Option σ
  | [], state => some state
  | action :: actions, state => step state action >>= run step actions

@[simp]
theorem run_nil (step : σ → α → Option σ) (state : σ) : run step [] state = some state := rfl

theorem run_cons (step : σ → α → Option σ) (action : α) (actions : List α) (state : σ) :
    run step (action :: actions) state = step state action >>= run step actions := rfl

theorem run_cons_eq_some {step : σ → α → Option σ} {action : α} {actions : List α}
    {before after : σ} :
    run step (action :: actions) before = some after ↔
      ∃ middle, step before action = some middle ∧ run step actions middle = some after :=
  Option.bind_eq_some_iff

theorem run_append (step : σ → α → Option σ) (left right : List α) (state : σ) :
    run step (left ++ right) state = run step left state >>= run step right := by
  induction left generalizing state with
  | nil => rfl
  | cons action left ih =>
      simp only [List.cons_append, run_cons]
      cases step state action with
      | none => rfl
      | some next => exact ih next

theorem run_append_eq_some {step : σ → α → Option σ} {left right : List α} {before after : σ} :
    run step (left ++ right) before = some after ↔
      ∃ middle, run step left before = some middle ∧ run step right middle = some after := by
  rw [run_append]
  exact Option.bind_eq_some_iff

/-- Some run leads from one state to the other. -/
def Reaches (step : σ → α → Option σ) (before after : σ) : Prop :=
  ∃ actions, run step actions before = some after

theorem Reaches.of_step {step : σ → α → Option σ} {before after : σ} {action : α}
    (stepped : step before action = some after) : Reaches step before after :=
  ⟨[action], run_cons_eq_some.mpr ⟨after, stepped, rfl⟩⟩

theorem Reaches.trans {step : σ → α → Option σ} {before middle after : σ}
    (first : Reaches step before middle) (second : Reaches step middle after) :
    Reaches step before after := by
  obtain ⟨left, first⟩ := first
  obtain ⟨right, second⟩ := second
  exact ⟨left ++ right, run_append_eq_some.mpr ⟨middle, first, second⟩⟩

/-- A step function that is always enabled runs every list of actions. -/
theorem run_total (next : σ → α → σ) (actions : List α) (state : σ) :
    run (fun state action => some (next state action)) actions state =
      some (actions.foldl next state) := by
  induction actions generalizing state with
  | nil => rfl
  | cons action actions ih => exact ih (next state action)

/-- The guard holds in the state before each step of the run. -/
def Guarded (step : σ → α → Option σ) (guard : σ → α → Prop) : List α → σ → Prop
  | [], _ => True
  | action :: actions, state =>
      guard state action ∧ ∀ next ∈ step state action, Guarded step guard actions next

@[simp]
theorem guarded_nil (step : σ → α → Option σ) (guard : σ → α → Prop) (state : σ) :
    Guarded step guard [] state := trivial

theorem guarded_cons {step : σ → α → Option σ} {guard : σ → α → Prop} {action : α}
    {actions : List α} {state next : σ} (enabled : step state action = some next) :
    Guarded step guard (action :: actions) state ↔
      guard state action ∧ Guarded step guard actions next := by
  simp [Guarded, enabled]

instance decidableGuarded (step : σ → α → Option σ) (guard : σ → α → Prop)
    [∀ state action, Decidable (guard state action)] :
    ∀ actions state, Decidable (Guarded step guard actions state)
  | [], _ => isTrue trivial
  | action :: actions, state =>
      match enabled : step state action with
      | none =>
          decidable_of_iff (guard state action) (by simp [Guarded, enabled])
      | some next =>
          haveI := decidableGuarded step guard actions next
          decidable_of_iff (guard state action ∧ Guarded step guard actions next)
            (guarded_cons enabled).symm

theorem guarded_append {step : σ → α → Option σ} {guard : σ → α → Prop} {left right : List α}
    {before middle : σ} (execution : run step left before = some middle) :
    Guarded step guard (left ++ right) before ↔
      Guarded step guard left before ∧ Guarded step guard right middle := by
  induction left generalizing before with
  | nil =>
      obtain rfl : before = middle := Option.some.inj execution
      simp
  | cons action left ih =>
      obtain ⟨next, enabled, later⟩ := run_cons_eq_some.mp execution
      rw [List.cons_append, guarded_cons enabled, guarded_cons enabled, ih later, and_assoc]

/-- A guard that depends on the action alone is checked on the list of actions. -/
theorem guarded_of_forall {step : σ → α → Option σ} {guard : σ → α → Prop} {actions : List α}
    (permitted : ∀ action ∈ actions, ∀ state, guard state action) (state : σ) :
    Guarded step guard actions state := by
  induction actions generalizing state with
  | nil => trivial
  | cons action actions ih =>
      refine ⟨permitted action List.mem_cons_self state, fun next _ => ?_⟩
      exact ih (fun other member => permitted other (List.mem_cons_of_mem action member)) next

/-- A run that is not guarded has a first step that the guard forbids. -/
theorem exists_of_not_guarded {step : σ → α → Option σ} {guard : σ → α → Prop} {actions : List α}
    {before after : σ} (violated : ¬ Guarded step guard actions before)
    (execution : run step actions before = some after) :
    ∃ left action right middle next, actions = left ++ action :: right ∧
      run step left before = some middle ∧ Guarded step guard left before ∧
        ¬ guard middle action ∧ step middle action = some next ∧
          run step right next = some after := by
  induction actions generalizing before with
  | nil => exact absurd trivial violated
  | cons action actions ih =>
      obtain ⟨next, enabled, later⟩ := run_cons_eq_some.mp execution
      by_cases permitted : guard before action
      · have violated_later : ¬ Guarded step guard actions next := fun guarded =>
          violated ((guarded_cons enabled).mpr ⟨permitted, guarded⟩)
        obtain ⟨left, first, right, middle, after_first, rfl, reached, guarded, forbidden⟩ :=
          ih violated_later later
        exact ⟨action :: left, first, right, middle, after_first, rfl,
          run_cons_eq_some.mpr ⟨next, enabled, reached⟩,
          (guarded_cons enabled).mpr ⟨permitted, guarded⟩, forbidden⟩
      · exact ⟨[], action, actions, before, next, rfl, rfl, trivial, permitted, enabled, later⟩

theorem Guarded.and {step : σ → α → Option σ} {first second : σ → α → Prop} {actions : List α}
    {state : σ} (left : Guarded step first actions state)
    (right : Guarded step second actions state) :
    Guarded step (fun state action => first state action ∧ second state action) actions state := by
  induction actions generalizing state with
  | nil => trivial
  | cons action actions ih =>
      exact ⟨⟨left.1, right.1⟩, fun next enabled => ih (left.2 next enabled) (right.2 next enabled)⟩

/-- What every guarded step preserves holds at the end of every guarded run. -/
theorem invariant_of_guarded {step : σ → α → Option σ} {guard : σ → α → Prop}
    {invariant : σ → Prop}
    (preserved : ∀ {before after action}, invariant before → guard before action →
      step before action = some after → invariant after)
    {actions : List α} {before after : σ} (initially : invariant before)
    (guarded : Guarded step guard actions before)
    (execution : run step actions before = some after) : invariant after := by
  induction actions generalizing before with
  | nil => exact Option.some.inj execution ▸ initially
  | cons action actions ih =>
      obtain ⟨middle, enabled, later⟩ := run_cons_eq_some.mp execution
      obtain ⟨permitted, guarded⟩ := (guarded_cons enabled).mp guarded
      exact ih (preserved initially permitted enabled) guarded later

/-- A guard that implies another in every state it leads to. -/
theorem Guarded.of_invariant {step : σ → α → Option σ} {first second : σ → α → Prop}
    {invariant : σ → Prop}
    (preserved : ∀ {before after action}, invariant before → first before action →
      step before action = some after → invariant after)
    (implies : ∀ {state action}, invariant state → first state action → second state action)
    {actions : List α} {state : σ} (initially : invariant state)
    (guarded : Guarded step first actions state) : Guarded step second actions state := by
  induction actions generalizing state with
  | nil => trivial
  | cons action actions ih =>
      exact ⟨implies initially guarded.1, fun next enabled =>
        ih (preserved initially guarded.1 enabled) (guarded.2 next enabled)⟩

/-- What every step preserves holds at the end of every run. -/
theorem invariant_of_run {step : σ → α → Option σ} {invariant : σ → Prop}
    (preserved : ∀ {before after action}, invariant before → step before action = some after →
      invariant after)
    {actions : List α} {before after : σ} (initially : invariant before)
    (execution : run step actions before = some after) : invariant after := by
  have unguarded : Guarded step (fun _ _ => True) actions before :=
    guarded_of_forall (fun _ _ _ => trivial) before
  exact invariant_of_guarded (fun holds _ stepped => preserved holds stepped) initially unguarded
    execution

/-- Two guards that agree on every step from an invariant state agree on runs. -/
theorem guarded_iff_of_run {step : σ → α → Option σ} {first second : σ → α → Prop}
    {invariant : σ → Prop}
    (preserved : ∀ {before after action}, invariant before → first before action →
      step before action = some after → invariant after)
    (same : ∀ {before after action}, invariant before → step before action = some after →
      (first before action ↔ second before action))
    {actions : List α} {before after : σ} (initially : invariant before)
    (execution : run step actions before = some after) :
    Guarded step first actions before ↔ Guarded step second actions before := by
  induction actions generalizing before with
  | nil => exact Iff.rfl
  | cons action actions ih =>
      obtain ⟨middle, enabled, later⟩ := run_cons_eq_some.mp execution
      rw [guarded_cons enabled, guarded_cons enabled, same initially enabled]
      refine and_congr_right fun permitted => ?_
      have permitted_first := (same initially enabled).mpr permitted
      exact ih (preserved initially permitted_first enabled) later

/-- The property holds in every state visited by the run, the first and the last included. -/
def Always (step : σ → α → Option σ) (property : σ → Prop) (actions : List α) (state : σ) : Prop :=
  ∀ visited, visited <+: actions → ∀ reached ∈ run step visited state, property reached

/-- What every guarded step preserves holds in every state a guarded run visits. -/
theorem always_of_guarded {step : σ → α → Option σ} {guard : σ → α → Prop}
    {invariant : σ → Prop}
    (preserved : ∀ {before after action}, invariant before → guard before action →
      step before action = some after → invariant after)
    {actions : List α} {before : σ} (initially : invariant before)
    (guarded : Guarded step guard actions before) : Always step invariant actions before := by
  rintro visited ⟨rest, rfl⟩ reached execution
  exact invariant_of_guarded preserved initially ((guarded_append execution).mp guarded).1 execution

theorem Always.imp {step : σ → α → Option σ} {first second : σ → Prop} {actions : List α}
    {state : σ} (weaker : ∀ state, first state → second state)
    (always : Always step first actions state) : Always step second actions state :=
  fun visited isFront reached execution => weaker reached (always visited isFront reached execution)

theorem always_nil {step : σ → α → Option σ} {property : σ → Prop} {state : σ} :
    Always step property [] state ↔ property state := by
  simp [Always]

theorem always_cons {step : σ → α → Option σ} {property : σ → Prop} {action : α}
    {actions : List α} {state next : σ} (enabled : step state action = some next) :
    Always step property (action :: actions) state ↔
      property state ∧ Always step property actions next := by
  constructor
  · intro always
    refine ⟨always [] (List.nil_prefix) state rfl, ?_⟩
    intro visited isFront reached execution
    exact always (action :: visited) ((List.prefix_cons_inj action).mpr isFront) reached
      (run_cons_eq_some.mpr ⟨next, enabled, execution⟩)
  · rintro ⟨now, later⟩ visited isFront reached execution
    cases visited with
    | nil => exact Option.some.inj execution ▸ now
    | cons first visited =>
        obtain ⟨rfl, isTailFront⟩ := List.cons_prefix_cons.mp isFront
        obtain ⟨middle, first_enabled, execution⟩ := run_cons_eq_some.mp execution
        obtain rfl : next = middle := Option.some.inj (enabled.symm.trans first_enabled)
        exact later visited isTailFront reached execution

/-- When the guard is exactly what a step needs to keep the property, a run keeps the property
throughout if and only if the guard held before every step. -/
theorem always_iff_guarded {step : σ → α → Option σ} {guard : σ → α → Prop}
    {property : σ → Prop}
    (exact_guard : ∀ {before after action}, property before →
      step before action = some after → (guard before action ↔ property after))
    {actions : List α} {before after : σ} (initially : property before)
    (execution : run step actions before = some after) :
    Always step property actions before ↔ Guarded step guard actions before := by
  induction actions generalizing before with
  | nil => simp [always_nil, initially]
  | cons action actions ih =>
      obtain ⟨middle, enabled, later⟩ := run_cons_eq_some.mp execution
      have step_exact := exact_guard initially enabled
      rw [always_cons enabled, guarded_cons enabled]
      constructor
      · rintro ⟨-, always⟩
        have next : property middle := always [] List.nil_prefix middle rfl
        exact ⟨step_exact.mpr next, (ih next later).mp always⟩
      · rintro ⟨permitted, guarded⟩
        exact ⟨initially, (ih (step_exact.mp permitted) later).mpr guarded⟩

/-- When every step lowers a rank, the rank bounds the length of every run. -/
theorem length_le_of_rank {step : σ → α → Option σ} (rank : σ → Nat)
    (lower : ∀ {before after action}, step before action = some after → rank after < rank before)
    {actions : List α} {before after : σ} (execution : run step actions before = some after) :
    actions.length ≤ rank before := by
  induction actions generalizing before with
  | nil => exact Nat.zero_le _
  | cons action actions ih =>
      obtain ⟨middle, enabled, later⟩ := run_cons_eq_some.mp execution
      have shorter := ih later
      have dropped := lower enabled
      rw [List.length_cons]
      omega

/-- When every state short of the goal has a permitted step that lowers a well-founded rank, the
goal is reached by permitted steps. -/
theorem exists_run_of_rank {ρ : Type*} [order : WellFoundedRelation ρ] {step : σ → α → Option σ}
    {goal : σ → Prop} {permitted : α → Prop} (rank : σ → ρ)
    (progress : ∀ state, ¬ goal state → ∃ action next, permitted action ∧
      step state action = some next ∧ order.rel (rank next) (rank state)) (state : σ) :
    ∃ actions after, (∀ action ∈ actions, permitted action) ∧
      run step actions state = some after ∧ goal after := by
  induction state using (InvImage.wf rank order.wf).induction with
  | _ state ih =>
      by_cases arrived : goal state
      · exact ⟨[], state, by simp, rfl, arrived⟩
      · obtain ⟨action, next, allowed, enabled, lower⟩ := progress state arrived
        obtain ⟨actions, after, all_allowed, execution, reached⟩ := ih next lower
        refine ⟨action :: actions, after, ?_, ?_, reached⟩
        · simpa using ⟨allowed, all_allowed⟩
        · exact run_cons_eq_some.mpr ⟨next, enabled, execution⟩

end Execution

import Mathlib.Tactic.ByContra
import Marketplace.Lib.Transition

/-!
# Paths without an end

What must happen on a path whose actors keep getting their turns. Nothing need happen at a given
time.
-/

namespace Transition

variable {State Action : Type}

structure Path (step : State → Action → Option State) (ok : State → Action → Prop)
    (start : State) where
  state : Nat → State
  action : Nat → Option Action
  state_zero : state 0 = start
  idle : ∀ time, action time = none → state (time + 1) = state time
  taken : ∀ time act, action time = some act →
    ok (state time) act ∧ step (state time) act = some (state (time + 1))

variable {step : State → Action → Option State} {ok : State → Action → Prop} {start finish : State}

namespace Path

theorem reach (path : Path step ok start) (time : Nat) : Reach step ok start (path.state time) := by
  induction time with
  | zero =>
      rw [path.state_zero]
      exact .refl
  | succ time ih =>
      cases hact : path.action time with
      | none =>
          rw [path.idle time hact]
          exact ih
      | some act =>
          obtain ⟨hok, hstep⟩ := path.taken time act hact
          exact ih.tail hok hstep

/-- What every step keeps stays. -/
theorem stays (path : Path step ok start) (keeps : State → Prop)
    (hstep : ∀ before act after, Reach step ok start before → keeps before → ok before act →
      step before act = some after → keeps after)
    {time later : Nat} (hle : time ≤ later) (hkeeps : keeps (path.state time)) :
    keeps (path.state later) := by
  induction hle with
  | refl => exact hkeeps
  | @step later hle ih =>
      cases hact : path.action later with
      | none =>
          rw [path.idle later hact]
          exact ih
      | some act =>
          obtain ⟨hok, hnext⟩ := path.taken later act hact
          exact hstep _ act _ (path.reach later) ih hok hnext

/-- The goal is reached if a rank never grows before it and every turn makes it smaller. -/
theorem leads (path : Path step ok start) (stage goal : State → Prop) (turn : Action → Prop)
    (rank : State → Nat)
    (hstep : ∀ before act after, Reach step ok start before → stage before → ok before act →
      step before act = some after →
      goal after ∨ stage after ∧ rank after ≤ rank before ∧ (turn act → rank after < rank before))
    (hturn : ∀ time, stage (path.state time) →
      goal (path.state time) ∨ ∃ later ≥ time, ∃ act, path.action later = some act ∧ turn act)
    {time : Nat} (hstage : stage (path.state time)) : ∃ later ≥ time, goal (path.state later) := by
  by_contra hnever
  have hnever : ∀ later ≥ time, ¬ goal (path.state later) :=
    fun later hle hgoal => hnever ⟨later, hle, hgoal⟩
  -- The stage lasts and the rank does not grow.
  have hlasts : ∀ first ≥ time, stage (path.state first) → ∀ later ≥ first,
      stage (path.state later) ∧ rank (path.state later) ≤ rank (path.state first) := by
    intro first hfirst hstage later hle
    induction hle with
    | refl => exact ⟨hstage, Nat.le_refl _⟩
    | @step later hle ih =>
        cases hact : path.action later with
        | none =>
            rw [path.idle later hact]
            exact ih
        | some act =>
            obtain ⟨hok, hnext⟩ := path.taken later act hact
            obtain hgoal | ⟨hnextStage, hrank, -⟩ := hstep _ act _ (path.reach later) ih.1 hok hnext
            · exact absurd hgoal (hnever (later + 1) (Nat.le_succ_of_le (Nat.le_trans hfirst hle)))
            · exact ⟨hnextStage, Nat.le_trans hrank ih.2⟩
  -- Induction on the rank: the next turn makes it smaller.
  have hfall : ∀ bound first, first ≥ time → stage (path.state first) →
      rank (path.state first) = bound → False := by
    intro bound
    induction bound using Nat.strongRecOn with
    | ind bound ih =>
        intro first hfirst hstage hbound
        obtain hgoal | ⟨later, hlater, act, hact, hitsTurn⟩ := hturn first hstage
        · exact hnever first hfirst hgoal
        · obtain ⟨hlaterStage, hrank⟩ := hlasts first hfirst hstage later hlater
          obtain ⟨hok, hnext⟩ := path.taken later act hact
          obtain hgoal |
              ⟨hnextStage, -, hlt⟩ := hstep _ act _ (path.reach later) hlaterStage hok hnext
          · exact hnever (later + 1) (by omega) hgoal
          · have hsmaller := hlt hitsTurn
            exact ih _ (by omega) (later + 1) (by omega) hnextStage rfl
  exact hfall _ time (Nat.le_refl time) hstage rfl

end Path

/-- A run that goes on with nothing. -/
theorem exists_path_of_runWithin [∀ state action, Decidable (ok state action)]
    {actions : List Action} (hrun : runWithin step ok start actions = some finish) :
    ∃ path : Path step ok start, ∀ time ≥ actions.length, path.state time = finish := by
  induction actions generalizing start with
  | nil =>
      cases hrun
      exact ⟨⟨fun _ => finish, fun _ => none, rfl, fun _ _ => rfl, nofun⟩, fun _ _ => rfl⟩
  | cons first rest ih =>
      rw [runWithin] at hrun
      split at hrun
      case isFalse => cases hrun
      rename_i hok
      obtain ⟨next, hnext, hrest⟩ := Option.bind_eq_some_iff.mp hrun
      obtain ⟨path, hpath⟩ := ih hrest
      refine ⟨⟨fun time => time.casesOn start path.state,
        fun time => time.casesOn (some first) path.action, rfl, ?_, ?_⟩, ?_⟩
      · intro time hact
        cases time with
        | zero => cases hact
        | succ time => exact path.idle time hact
      · intro time act hact
        cases time with
        | zero =>
            cases hact
            refine ⟨hok, ?_⟩
            change step start first = some (path.state 0)
            rw [path.state_zero, hnext]
        | succ time => exact path.taken time act hact
      · intro time hle
        cases time with
        | zero => cases hle
        | succ time => exact hpath time (Nat.le_of_succ_le_succ hle)

end Transition

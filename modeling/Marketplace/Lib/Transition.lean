import Mathlib.Logic.Basic

/-!
# Runs of a partial step function

A system is a function `step : State → Action → Option State`: an action carries every choice the
environment makes (who moves, what a service answers), and `none` says that it is not enabled. The
modules above instantiate this once for each component and prove their invariants with
`Reach.invariant`.
-/

namespace Transition

variable {State Action : Type} {step : State → Action → Option State}
  {ok : State → Action → Prop} {start middle finish : State}

/-- Execute a list of actions; `none` as soon as one of them is not enabled or not allowed. -/
def runWithin (step : State → Action → Option State) (ok : State → Action → Prop)
    [∀ state action, Decidable (ok state action)] : State → List Action → Option State
  | state, [] => some state
  | state, action :: rest =>
      if ok state action then (step state action).bind fun next => runWithin step ok next rest
      else none

/-- Finitely many steps lead from `start` to `finish`, each taken where `ok` allowed it. -/
inductive Reach (step : State → Action → Option State) (ok : State → Action → Prop)
    (start : State) : State → Prop
  | refl : Reach step ok start start
  | tail {middle finish : State} {action : Action} (hreach : Reach step ok start middle)
      (hok : ok middle action) (hstep : step middle action = some finish) :
      Reach step ok start finish

/-- No condition on the steps: every interleaving. -/
def Free (_ : State) (_ : Action) : Prop := True

instance (state : State) (action : Action) : Decidable (Free state action) := .isTrue trivial

abbrev run (step : State → Action → Option State) : State → List Action → Option State :=
  runWithin step Free

@[simp]
theorem run_nil (state : State) : run step state [] = some state := rfl

@[simp]
theorem run_cons (state : State) (action : Action) (rest : List Action) :
    run step state (action :: rest) = (step state action).bind fun next => run step next rest := by
  simp [run, runWithin, Free]

theorem run_append (state : State) (left right : List Action) :
    run step state (left ++ right) = (run step state left).bind fun next =>
      run step next right := by
  induction left generalizing state with
  | nil => rfl
  | cons action left ih => simp only [List.cons_append, run_cons, Option.bind_assoc, ih]

/-- Reachable by any sequence of steps. -/
abbrev Reachable (step : State → Action → Option State) : State → State → Prop :=
  Reach step Free

theorem Reachable.tail {action : Action} (hreach : Reachable step start middle)
    (hstep : step middle action = some finish) : Reachable step start finish :=
  Reach.tail hreach trivial hstep

/-- The induction every invariant goes through. The step case may use what is already known of the
state it leaves, that state being reachable as well. -/
theorem Reach.invariant (inv : State → Prop) (hinit : inv start)
    (hstep : ∀ state action next, Reach step ok start state → inv state → ok state action →
      step state action = some next → inv next)
    (hreach : Reach step ok start finish) : inv finish := by
  induction hreach with
  | refl => exact hinit
  | tail hreach hok hnext ih => exact hstep _ _ _ hreach ih hok hnext

theorem Reach.trans (hleft : Reach step ok start middle) (hright : Reach step ok middle finish) :
    Reach step ok start finish := by
  induction hright with
  | refl => exact hleft
  | tail _ hok hnext ih => exact ih.tail hok hnext

/-- Fewer restrictions reach more. -/
theorem Reach.mono {ok' : State → Action → Prop} (hle : ∀ state action, ok state action →
    ok' state action) (hreach : Reach step ok start finish) : Reach step ok' start finish := by
  induction hreach with
  | refl => exact .refl
  | tail _ hok hnext ih => exact ih.tail (hle _ _ hok) hnext

/-- A log that a step extends by one entry at most: what holds of each new entry and the log before
it holds of every entry of the log and those before it. -/
theorem Reach.forall_new_entry {Entry : Type} {log : State → List Entry}
    {good : List Entry → Entry → Prop} (hinit : log start = [])
    (hstep : ∀ state action next, Reach step ok start state → ok state action →
      step state action = some next →
      log next = log state ∨ ∃ entry, log next = log state ++ [entry] ∧ good (log state) entry)
    (hreach : Reach step ok start finish) :
    ∀ earlier entry later, log finish = earlier ++ entry :: later → good earlier entry := by
  refine hreach.invariant (fun state => ∀ earlier entry later,
    log state = earlier ++ entry :: later → good earlier entry) ?_ ?_
  · intro earlier entry later heq
    rw [hinit] at heq
    simp at heq
  · intro state action next hstate ih hok hnext earlier entry later heq
    obtain hsame | ⟨last, hlog, hlast⟩ := hstep state action next hstate hok hnext
    · exact ih earlier entry later (hsame.symm.trans heq)
    rw [hlog] at heq
    rcases List.eq_nil_or_concat later with rfl | ⟨middle, last', rfl⟩
    · obtain ⟨hfront, hentry⟩ := List.append_inj' heq rfl
      rw [← hfront, ← (List.cons.inj hentry).1]
      exact hlast
    · rw [List.concat_eq_append, ← List.cons_append, ← List.append_assoc] at heq
      exact ih earlier entry middle (List.append_inj' heq rfl).1

/-- The same for a log that every step extends. -/
theorem Reach.forall_entry {Entry : Type} {log : State → List Entry}
    {good : List Entry → Entry → Prop} (hinit : log start = [])
    (hstep : ∀ state action next, Reach step ok start state → ok state action →
      step state action = some next →
      ∃ entry, log next = log state ++ [entry] ∧ good (log state) entry)
    (hreach : Reach step ok start finish) :
    ∀ earlier entry later, log finish = earlier ++ entry :: later → good earlier entry :=
  hreach.forall_new_entry hinit fun state action next hstate hok hnext =>
    .inr (hstep state action next hstate hok hnext)

theorem reach_of_runWithin [∀ state action, Decidable (ok state action)] {actions : List Action}
    (hrun : runWithin step ok start actions = some finish) : Reach step ok start finish := by
  induction actions generalizing start with
  | nil =>
      cases hrun
      exact .refl
  | cons action rest ih =>
      rw [runWithin] at hrun
      split at hrun
      case isFalse => cases hrun
      rename_i hok
      obtain ⟨next, hnext, hrest⟩ := Option.bind_eq_some_iff.mp hrun
      exact (Reach.tail .refl hok hnext).trans (ih hrest)

/-- A concrete trace whose last state passes a check is a reachable state that does. -/
theorem exists_reach_of_runWithin [∀ state action, Decidable (ok state action)]
    (actions : List Action) {check : State → Bool}
    (hrun : (runWithin step ok start actions).any check = true) :
    ∃ finish, Reach step ok start finish ∧ check finish = true := by
  cases hfinish : runWithin step ok start actions with
  | none => simp [hfinish] at hrun
  | some finish => exact ⟨finish, reach_of_runWithin hfinish, by simpa [hfinish] using hrun⟩

end Transition

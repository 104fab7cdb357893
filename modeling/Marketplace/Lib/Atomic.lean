/-!
# Programs that fail as a whole

A program reads and writes a state and may throw. What it has written before an exception stays,
unless a transaction undoes it. A program is *all or nothing* if it throws only where nothing has
changed, up to what the relation `same` does not look at.
-/

namespace EStateM

variable {State Thrown Value Next : Type} {prog : EStateM Thrown State Value}
  {next : Value → EStateM Thrown State Next} {state after : State}

theorem bind_eq_ok {result : Next} : (prog >>= next) state = .ok result after ↔
    ∃ value middle, prog state = .ok value middle ∧ next value middle = .ok result after := by
  change EStateM.bind prog next state = _ ↔ _
  unfold EStateM.bind
  cases prog state <;> simp [and_assoc]

theorem bind_eq_error {thrown : Thrown} : (prog >>= next) state = .error thrown after ↔
    prog state = .error thrown after ∨
      ∃ value middle, prog state = .ok value middle ∧ next value middle = .error thrown after := by
  change EStateM.bind prog next state = _ ↔ _
  unfold EStateM.bind
  cases prog state <;> simp [and_assoc]

theorem pure_eq_ok {value result : Value} :
    (pure value : EStateM Thrown State Value) state = .ok result after ↔ value = result ∧
    state = after := by
  change Result.ok value state = _ ↔ _
  rw [Result.ok.injEq]

theorem throw_ne_ok {thrown : Thrown} {value : Value} :
    (throw thrown : EStateM Thrown State Value) state ≠ .ok value after :=
  fun heq => by cases heq

theorem throw_eq_error {thrown other : Thrown} :
    (throw thrown : EStateM Thrown State Value) state = .error other after ↔
      thrown = other ∧ state = after := by
  change Result.error thrown state = _ ↔ _
  rw [Result.error.injEq]

theorem tryCatch_of_ok {handle : Thrown → EStateM Thrown State Value} {value : Value}
    (hrun : prog state = .ok value after) :
    (MonadExcept.tryCatch prog handle) state = .ok value after := by
  change EStateM.tryCatch prog handle state = _
  delta EStateM.tryCatch
  simp only [hrun]

theorem tryCatch_of_error {handle : Thrown → EStateM Thrown State Value} {thrown : Thrown}
    (hrun : prog state = .error thrown after) :
    (MonadExcept.tryCatch prog handle) state = handle thrown after := by
  change EStateM.tryCatch prog handle state = _
  delta EStateM.tryCatch
  simp only [hrun]
  rfl

/-- How a run has ended, the state left out. -/
def Result.outcome : Result Thrown State Value → Except Thrown Value
  | .ok value _ => .ok value
  | .error thrown _ => .error thrown

theorem exists_of_outcome_ok {value : Value} (houtcome : (prog state).outcome = .ok value) :
    ∃ after, prog state = .ok value after := by
  cases hrun : prog state with
  | ok result after =>
      rw [hrun] at houtcome
      cases houtcome
      exact ⟨after, rfl⟩
  | error thrown after =>
      rw [hrun] at houtcome
      cases houtcome

theorem exists_of_outcome_error {thrown : Thrown}
    (houtcome : (prog state).outcome = .error thrown) :
    ∃ after, prog state = .error thrown after := by
  cases hrun : prog state with
  | ok result after =>
      rw [hrun] at houtcome
      cases houtcome
  | error other after =>
      rw [hrun] at houtcome
      cases houtcome
      exact ⟨after, rfl⟩

end EStateM

namespace Atomic

variable {State Thrown Value Next : Type}

/-! ### What is said of a program -/

/-- The program never throws. -/
def Returns (prog : EStateM Thrown State Value) : Prop :=
  ∀ state, ∃ value after, prog state = .ok value after

/-- The program writes nothing, whether it returns or throws. -/
structure Keeps (same : State → State → Prop) (prog : EStateM Thrown State Value) : Prop where
  returned : ∀ state value after, prog state = .ok value after → same state after
  thrown : ∀ state thrown after, prog state = .error thrown after → same state after

def AllOrNothing (same : State → State → Prop) (prog : EStateM Thrown State Value) : Prop :=
  ∀ state thrown after, prog state = .error thrown after → same state after

variable {same : State → State → Prop} {prog : EStateM Thrown State Value}
  {next : Value → EStateM Thrown State Next}

theorem returns_pure (value : Value) : Returns (pure value : EStateM Thrown State Value) :=
  fun state => ⟨value, state, rfl⟩

theorem Returns.bind (hprog : Returns prog) (hnext : ∀ value, Returns (next value)) :
    Returns (prog >>= next) := by
  intro state
  obtain ⟨value, middle, hvalue⟩ := hprog state
  obtain ⟨result, after, hresult⟩ := hnext value middle
  exact ⟨result, after, EStateM.bind_eq_ok.mpr ⟨value, middle, hvalue, hresult⟩⟩

/-- A handler that never throws leaves nothing to throw. -/
theorem returns_tryCatch {handle : Thrown → EStateM Thrown State Value}
    (hhandle : ∀ thrown, Returns (handle thrown)) : Returns (tryCatch prog handle) := by
  intro state
  cases hprog : prog state with
  | ok value after => exact ⟨value, after, EStateM.tryCatch_of_ok hprog⟩
  | error thrown after =>
      obtain ⟨value, final, hvalue⟩ := hhandle thrown after
      exact ⟨value, final, (EStateM.tryCatch_of_error hprog).trans hvalue⟩

theorem Keeps.allOrNothing (hprog : Keeps same prog) : AllOrNothing same prog := hprog.thrown

theorem keeps_pure (hrefl : ∀ state, same state state) (value : Value) :
    Keeps same (pure value : EStateM Thrown State Value) where
  returned state _ _ hresult := (EStateM.pure_eq_ok.mp hresult).2 ▸ hrefl state
  thrown _ _ _ hthrown := by cases hthrown

theorem keeps_throw (hrefl : ∀ state, same state state) (thrown : Thrown) :
    Keeps same (throw thrown : EStateM Thrown State Value) where
  returned _ _ _ hresult := absurd hresult EStateM.throw_ne_ok
  thrown state _ _ hthrown := (EStateM.throw_eq_error.mp hthrown).2 ▸ hrefl state

theorem Keeps.bind
    (htrans : ∀ first second third, same first second → same second third → same first third)
    (hprog : Keeps same prog) (hnext : ∀ value, Keeps same (next value)) :
    Keeps same (prog >>= next) where
  returned state result after hresult := by
    obtain ⟨value, middle, hvalue, hrest⟩ := EStateM.bind_eq_ok.mp hresult
    exact htrans _ _ _ (hprog.returned _ _ _ hvalue) ((hnext value).returned _ _ _ hrest)
  thrown state thrown after hthrown := by
    rcases EStateM.bind_eq_error.mp hthrown with hfirst | ⟨value, middle, hvalue, hrest⟩
    · exact hprog.thrown _ _ _ hfirst
    · exact htrans _ _ _ (hprog.returned _ _ _ hvalue) ((hnext value).thrown _ _ _ hrest)

theorem Keeps.tryCatch
    (htrans : ∀ first second third, same first second → same second third → same first third)
    {handle : Thrown → EStateM Thrown State Value} (hprog : Keeps same prog)
    (hhandle : ∀ thrown, Keeps same (handle thrown)) :
    Keeps same (MonadExcept.tryCatch prog handle) := by
  constructor
  · intro state value after hok
    cases hrun : prog state with
    | ok result middle =>
        rw [EStateM.tryCatch_of_ok hrun] at hok
        cases hok
        exact hprog.returned _ _ _ hrun
    | error thrown middle =>
        rw [EStateM.tryCatch_of_error hrun] at hok
        exact htrans _ _ _ (hprog.thrown _ _ _ hrun) ((hhandle _).returned _ _ _ hok)
  · intro state thrown after herror
    cases hrun : prog state with
    | ok result middle =>
        rw [EStateM.tryCatch_of_ok hrun] at herror
        cases herror
    | error first middle =>
        rw [EStateM.tryCatch_of_error hrun] at herror
        exact htrans _ _ _ (hprog.thrown _ _ _ hrun) ((hhandle _).thrown _ _ _ herror)

/-- After the first part either nothing can throw any more, or nothing has been written yet. -/
theorem AllOrNothing.bind
    (htrans : ∀ first second third, same first second → same second third → same first third)
    (hprog : AllOrNothing same prog)
    (hnext : ∀ state value middle, prog state = .ok value middle →
      Returns (next value) ∨ same state middle ∧ AllOrNothing same (next value)) :
    AllOrNothing same (prog >>= next) := by
  intro state thrown after hthrown
  rcases EStateM.bind_eq_error.mp hthrown with hfirst | ⟨value, middle, hvalue, hrest⟩
  · exact hprog state thrown after hfirst
  · rcases hnext state value middle hvalue with hreturns | ⟨hsame, hrestNothing⟩
    · obtain ⟨result, final, hresult⟩ := hreturns middle
      rw [hresult] at hrest
      cases hrest
    · exact htrans _ _ _ hsame (hrestNothing middle thrown after hrest)

/-! ### Transactions -/

/-- An exception undoes what was written since `state`. -/
def transaction (undo : State → State → State) (prog : EStateM Thrown State Value) :
    EStateM Thrown State Value := fun state =>
  match prog state with
  | .ok value after => .ok value after
  | .error thrown after => .error thrown (undo state after)

variable {undo : State → State → State}

theorem transaction_eq_ok {state after : State} {value : Value} :
    transaction undo prog state = .ok value after ↔ prog state = .ok value after := by
  unfold transaction
  cases prog state <;> simp

theorem allOrNothing_transaction (hundo : ∀ before after, same before (undo before after)) :
    AllOrNothing same (transaction undo prog) := by
  intro state thrown after hthrown
  unfold transaction at hthrown
  cases hprog : prog state with
  | ok value middle =>
      rw [hprog] at hthrown
      cases hthrown
  | error other middle =>
      rw [hprog] at hthrown
      cases hthrown
      exact hundo state middle

/-! ### Statements that fail -/

/-- A state, and which of the next statements fail. -/
structure Faulty (State : Type) where
  state : State
  faults : List Bool

/-- A relation between states, whatever is left of the plan. -/
def onState (related : State → State → Prop) (before after : Faulty State) : Prop :=
  related before.state after.state

/-- One statement: it fails if the plan says so, and otherwise does what `effect` says. -/
def statement (failure : Thrown) (effect : State → Except Thrown (Value × State)) :
    EStateM Thrown (Faulty State) Value := fun faulty =>
  if faulty.faults.headD false then .error failure { faulty with faults := faulty.faults.tail }
  else
    match effect faulty.state with
    | .ok (value, state) => .ok value ⟨state, faulty.faults.tail⟩
    | .error thrown => .error thrown { faulty with faults := faulty.faults.tail }

variable {failure : Thrown} {effect : State → Except Thrown (Value × State)}
  {before after : Faulty State}

theorem statement_ok {value : Value} (hok : statement failure effect before = .ok value after) :
    effect before.state = .ok (value, after.state) := by
  unfold statement at hok
  split at hok
  · cases hok
  split at hok
  · rename_i heffect
    cases hok
    exact heffect
  · cases hok

theorem state_of_statement_error {thrown : Thrown}
    (herror : statement failure effect before = .error thrown after) :
    after.state = before.state := by
  unfold statement at herror
  split at herror
  · cases herror
    rfl
  split at herror
  · cases herror
  · cases herror
    rfl

/-- A statement that only reads. -/
theorem keeps_statement {related : State → State → Prop} (hrefl : ∀ state, related state state)
    (heffect : ∀ state value next, effect state = .ok (value, next) → related state next) :
    Keeps (onState related) (statement failure effect) where
  returned _ _ _ hok := heffect _ _ _ (statement_ok hok)
  thrown _ _ _ herror := by
    rw [onState, state_of_statement_error herror]
    exact hrefl _

end Atomic

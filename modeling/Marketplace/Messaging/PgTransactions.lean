import Marketplace.Messaging.PgStore

/-!
# What `pgStore` keeps

A connection has at most one holder and comes back without a transaction on it, and what is
committed is the whole of what one call did.
-/

namespace Marketplace.PgStore

open Session Transition

variable {Statement Rows Request Outcome Result : Type} {max : Nat}
  {state next : State Statement Rows Request Outcome Result}
  {action : Action Statement Rows Request Outcome Result}

abbrev State.committers (state : State Statement Rows Request Outcome Result) : List Call :=
  state.committed.map Prod.fst

/-- The statements of a call, in the name of it. -/
def tagged (call : Call) (path : List Statement) : List (Call × Statement) :=
  path.map fun statement => (call, statement)

theorem tagged_append (call : Call) (path : List Statement) (statement : Statement) :
    tagged call (path ++ [statement]) = tagged call path ++ [(call, statement)] := by
  rw [tagged, List.map_append]
  rfl

/-- All that the call has to do is done by these statements. -/
def Task.Does : Task Statement Rows Request Outcome Result → List Statement → Prop
  | .transaction fn, path => ∃ trace result, fn.Reaches trace (.done result) ∧
      path = statements trace
  | .query statement, path => path = [statement]

/-- The connection of a transaction, and how far `fn` has come with what it heard. -/
inductive Serves (call : Call) (fn : Program Statement Rows Request Outcome Result)
    (heard : List (Event Statement Rows Request Outcome)) :
    Status (Call × Statement) → Program Statement Rows Request Outcome Result → Prop
  | opened (program : Program Statement Rows Request Outcome Result)
      (hreaches : fn.Reaches heard program) :
      Serves call fn heard (.opened (tagged call (statements heard))) program
  /-- A statement has failed. -/
  | aborted (program : Program Statement Rows Request Outcome Result)
      (hfailed : fn.Strict → program = .throw) : Serves call fn heard .aborted program
  /-- The COMMIT has failed. -/
  | ended : Serves call fn heard .idle .throw
  | dead (program : Program Statement Rows Request Outcome Result) :
      Serves call fn heard .dead program

inductive CallInv (state : State Statement Rows Request Outcome Result) (call : Call) :
    Option (Task Statement Rows Request Outcome Result) →
      Phase Statement Rows Request Outcome Result → Prop
  | idle (hnone : call ∉ state.committers) (hsilent : state.heard call = []) :
      CallInv state call none .idle
  | waiting (task : Task Statement Rows Request Outcome Result) (hnone : call ∉ state.committers)
      (hsilent : state.heard call = []) : CallInv state call (some task) .waiting
  | connected (task : Task Statement Rows Request Outcome Result) (connection : ConnectionId)
      (hnone : call ∉ state.committers) (hsilent : state.heard call = [])
      (hclean : (state.sessions connection).isClean = true) :
      CallInv state call (some task) (.connected connection)
  /-- If it is committed already, the answer to the COMMIT was lost with the connection. -/
  | running (fn : Program Statement Rows Request Outcome Result) (connection : ConnectionId)
      (program : Program Statement Rows Request Outcome Result)
      (hserves : Serves call fn (state.heard call) (state.sessions connection) program)
      (hlost : call ∈ state.committers →
        program = .throw ∧ state.sessions connection = .dead ∧ call ∈ state.unanswered) :
      CallInv state call (some (.transaction fn)) (.running connection program)
  | resolved (fn : Program Statement Rows Request Outcome Result) (result : Result)
      (hcommitted : fn.Strict → fn.Reaches (state.heard call) (.done result) ∧
        (call, tagged call (statements (state.heard call))) ∈ state.committed) :
      CallInv state call (some (.transaction fn)) (.resolved result)
  | answered (statement : Statement) (rows : Rows)
      (hcommitted : (call, [(call, statement)]) ∈ state.committed) :
      CallInv state call (some (.query statement)) (.answered rows)
  | rejected (task : Task Statement Rows Request Outcome Result)
      (hlost : call ∈ state.committers → call ∈ state.unanswered) :
      CallInv state call (some task) .rejected

structure Inv (max : Nat) (state : State Statement Rows Request Outcome Result) : Prop where
  once : state.committers.Nodup
  whole : ∀ entry ∈ state.committed, ∃ task path, state.tasks entry.1 = some task ∧ task.Does path ∧
    entry.2 = tagged entry.1 path
  apart : (state.held.map Prod.fst).Nodup
  few : state.held.length ≤ max
  holds : ∀ call connection,
    (state.calls call).connection = some connection ↔ (connection, call) ∈ state.held
  free : ∀ connection, connection ∉ state.held.map Prod.fst →
    (state.sessions connection).isClean = true
  calls : ∀ call, CallInv state call (state.tasks call) (state.calls call)

theorem inv_init (max : Nat) :
    Inv max (State.init : State Statement Rows Request Outcome Result) where
  once := List.nodup_nil
  whole _ hentry := absurd hentry List.not_mem_nil
  apart := List.nodup_nil
  few := Nat.zero_le _
  holds _ _ :=
    ⟨fun hconnection => (by cases hconnection), fun hheld => absurd hheld List.not_mem_nil⟩
  free _ _ := rfl
  calls _ := .idle List.not_mem_nil rfl

/-- What others do leaves a call as it is, and its connection, unless that breaks. -/
theorem CallInv.mono {call : Call} {task : Option (Task Statement Rows Request Outcome Result)}
    {phase : Phase Statement Rows Request Outcome Result} (hcall : CallInv state call task phase)
    (hsession : ∀ connection, phase.connection = some connection →
      next.sessions connection = state.sessions connection ∨ next.sessions connection = .dead)
    (hheard : next.heard call = state.heard call) (hcommitted : state.committed ⊆ next.committed)
    (hcommitters : call ∈ next.committers → call ∈ state.committers)
    (hunanswered : state.unanswered ⊆ next.unanswered) : CallInv next call task phase := by
  cases hcall with
  | idle hnone hsilent => exact .idle (fun hmem => hnone (hcommitters hmem)) (hheard.trans hsilent)
  | waiting task hnone hsilent =>
      exact .waiting task (fun hmem => hnone (hcommitters hmem)) (hheard.trans hsilent)
  | connected task connection hnone hsilent hclean =>
      refine .connected task connection (fun hmem => hnone (hcommitters hmem))
        (hheard.trans hsilent) ?_
      rcases hsession connection rfl with hsame | hdead
      · rw [hsame]
        exact hclean
      · rw [hdead]
        rfl
  | running fn connection program hserves hlost =>
      rcases hsession connection rfl with hsame | hdead
      · refine .running fn connection program (by rw [hsame, hheard]; exact hserves) fun hmem => ?_
        obtain ⟨hthrow, hdead, hmem⟩ := hlost (hcommitters hmem)
        exact ⟨hthrow, hsame.trans hdead, hunanswered hmem⟩
      · refine .running fn connection program (by rw [hdead]; exact .dead program) fun hmem => ?_
        obtain ⟨hthrow, -, hmem⟩ := hlost (hcommitters hmem)
        exact ⟨hthrow, hdead, hunanswered hmem⟩
  | resolved fn result hold =>
      refine .resolved fn result fun hstrict => ?_
      obtain ⟨hreaches, hmem⟩ := hold hstrict
      rw [hheard]
      exact ⟨hreaches, hcommitted hmem⟩
  | answered statement rows hold => exact .answered statement rows (hcommitted hold)
  | rejected task hlost => exact .rejected task fun hmem => hunanswered (hlost (hcommitters hmem))

/-- One call moves on its connection: `status` is what becomes of that, and `batch` what is
committed. -/
theorem Inv.moves (hinv : Inv max state) {call : Call} {connection : ConnectionId}
    (hconnection : (state.calls call).connection = some connection)
    {status : Status (Call × Statement)} {phase : Phase Statement Rows Request Outcome Result}
    {batch : Option (List (Call × Statement))}
    (hsessions : next.sessions = Function.update state.sessions connection status)
    (hcalls : next.calls = Function.update state.calls call phase)
    (htasks : next.tasks = state.tasks)
    (hheard : ∀ other, other ≠ call → next.heard other = state.heard other)
    (hcommitted : next.committed = state.committed ++ (batch.map fun batch => (call, batch)).toList)
    (hunanswered : state.unanswered ⊆ next.unanswered)
    (hheld : next.held = state.held ∧ phase.connection = some connection ∨
      next.held = (state.held.filter fun entry => entry.2 ≠ call) ∧ phase.connection = none ∧
        status.isClean = true)
    (hbatch : ∀ pending, batch = some pending → call ∉ state.committers ∧
      ∃ task path, state.tasks call = some task ∧ task.Does path ∧ pending = tagged call path)
    (hcall : CallInv next call (state.tasks call) phase) : Inv max next := by
  have hholder := (hinv.holds call connection).mp hconnection
  have hcommitters : next.committers = state.committers ++ (batch.map fun _ => call).toList := by
    rw [State.committers, hcommitted, List.map_append]
    cases batch <;> rfl
  have hother : ∀ other, other ≠ call → other ∈ next.committers → other ∈ state.committers := by
    intro other hne hmem
    rw [hcommitters] at hmem
    rcases List.mem_append.mp hmem with hold | hnew
    · exact hold
    · cases batch with
      | none => cases hnew
      | some pending => exact absurd (List.mem_singleton.mp hnew) hne
  -- nobody else holds the connection
  have halone : ∀ other, (connection, other) ∈ state.held → other = call := by
    intro other hmem
    have hpairs : (connection, other) = (connection, call) :=
      (List.inj_on_of_nodup_map hinv.apart) hmem hholder rfl
    exact (Prod.mk.inj hpairs).2
  have hsub : next.held.Sublist state.held := by
    rcases hheld with ⟨hsame, -⟩ | ⟨hfilter, -⟩
    · rw [hsame]
    · rw [hfilter]
      exact List.filter_sublist
  refine ⟨?_, ?_, hinv.apart.sublist (hsub.map _), Nat.le_trans hsub.length_le hinv.few, ?_, ?_, ?_⟩
  · rw [hcommitters]
    cases hcase : batch with
    | none => simpa using hinv.once
    | some pending =>
        refine hinv.once.append (List.nodup_singleton _) ?_
        simpa using (hbatch pending hcase).1
  · intro entry hentry
    rw [hcommitted] at hentry
    rw [htasks]
    rcases List.mem_append.mp hentry with hold | hnew
    · exact hinv.whole entry hold
    · cases hcase : batch with
      | none =>
          rw [hcase] at hnew
          cases hnew
      | some pending =>
          rw [hcase] at hnew
          rw [List.mem_singleton.mp hnew]
          exact (hbatch pending hcase).2
  · intro other held
    rw [hcalls]
    by_cases heq : other = call
    · subst heq
      rw [Function.update_self]
      rcases hheld with ⟨hsame, hphase⟩ | ⟨hfilter, hphase, -⟩
      · rw [hphase, hsame, ← hinv.holds, hconnection]
      · rw [hphase, hfilter]
        simp
    · rw [Function.update_of_ne heq, hinv.holds]
      rcases hheld with ⟨hsame, -⟩ | ⟨hfilter, -⟩
      · rw [hsame]
      · rw [hfilter]
        simp [heq]
  · intro other hfree
    rw [hsessions]
    by_cases heq : other = connection
    · subst heq
      rw [Function.update_self]
      rcases hheld with ⟨hsame, -⟩ | ⟨-, -, hclean⟩
      · rw [hsame] at hfree
        exact absurd (List.mem_map_of_mem hholder) hfree
      · exact hclean
    · rw [Function.update_of_ne heq]
      refine hinv.free other fun hmem => hfree ?_
      obtain ⟨⟨mine, holder⟩, hentry, rfl⟩ := List.mem_map.mp hmem
      rcases hheld with ⟨hsame, -⟩ | ⟨hfilter, -⟩
      · rw [hsame]
        exact List.mem_map_of_mem hentry
      · rw [hfilter]
        refine List.mem_map_of_mem (List.mem_filter.mpr ⟨hentry, ?_⟩)
        rw [decide_eq_true_eq]
        intro hmover
        have hsame := (hinv.holds call mine).mpr (hmover ▸ hentry)
        rw [hconnection] at hsame
        exact heq (Option.some.inj hsame).symm
  · intro other
    rw [hcalls, htasks]
    by_cases heq : other = call
    · subst heq
      rw [Function.update_self]
      exact hcall
    · rw [Function.update_of_ne heq]
      refine (hinv.calls other).mono (fun mine hmine => .inl ?_) (hheard other heq) ?_
        (hother other heq) hunanswered
      · rw [hsessions]
        refine Function.update_of_ne (fun hsame => ?_) _ _
        subst hsame
        exact heq (halone other ((hinv.holds other mine).mp hmine))
      · rw [hcommitted]
        exact List.subset_append_left _ _

/-! ### The steps of a call -/

/-- What the answer to a command leaves behind, whether or not it got lost. -/
def State.sent (state : State Statement Rows Request Outcome Result) (call : Call)
    (connection : ConnectionId) (effect : Effect (Call × Statement)) (lost : Bool) :
    State Statement Rows Request Outcome Result :=
  { state with
    sessions := Function.update state.sessions connection (if lost then .dead else effect.status)
    committed := state.committed ++ (effect.committed.map fun batch => (call, batch)).toList
    unanswered := if lost && effect.committed.isSome then call ::
      state.unanswered else state.unanswered }

theorem unanswered_subset_sent (state : State Statement Rows Request Outcome Result) (call : Call)
    (connection : ConnectionId) (effect : Effect (Call × Statement)) (lost : Bool) :
    state.unanswered ⊆ (state.sent call connection effect lost).unanswered := by
  unfold State.sent
  dsimp only
  split
  · exact List.subset_cons_self _ _
  · exact List.Subset.refl _

/-- A command that commits nothing leaves the committers as they are. -/
theorem committed_sent_of_none (state : State Statement Rows Request Outcome Result) (call : Call)
    (connection : ConnectionId) {effect : Effect (Call × Statement)}
    (hnone : effect.committed = none) (lost : Bool) :
    (state.sent call connection effect lost).committed = state.committed := by
  rw [State.sent, hnone]
  exact List.append_nil _

theorem sessions_sent (state : State Statement Rows Request Outcome Result) (call : Call)
    (connection : ConnectionId) (effect : Effect (Call × Statement)) (lost : Bool) :
    (state.sent call connection effect lost).sessions connection =
      if lost then .dead else effect.status :=
  Function.update_self _ _ _

/-- The call keeps its connection. -/
theorem Inv.stays (hinv : Inv max state) {call : Call} {connection : ConnectionId}
    (hconnection : (state.calls call).connection = some connection)
    (effect : Effect (Call × Statement))
    (lost : Bool) {phase : Phase Statement Rows Request Outcome Result}
    (hphase : phase.connection = some connection)
    (hbatch : ∀ pending, effect.committed = some pending → call ∉ state.committers ∧
      ∃ task path, state.tasks call = some task ∧ task.Does path ∧ pending = tagged call path)
    (hcall : CallInv (state.sent call connection effect lost) call (state.tasks call) phase) :
    Inv max ((state.sent call connection effect lost).goto call phase) :=
  hinv.moves hconnection rfl rfl rfl (fun _ _ => rfl) rfl
    (unanswered_subset_sent state call connection effect lost) (.inl ⟨rfl, hphase⟩) hbatch
    (hcall.mono (fun _ _ => .inl rfl) rfl (List.Subset.refl _) id (List.Subset.refl _))

/-- The call releases it. -/
theorem Inv.leaves (hinv : Inv max state) {call : Call} {connection : ConnectionId}
    (hconnection : (state.calls call).connection = some connection)
    (effect : Effect (Call × Statement)) (lost : Bool)
    {phase : Phase Statement Rows Request Outcome Result} (hphase : phase.connection = none)
    (hclean : effect.status.isClean = true)
    (hbatch : ∀ pending, effect.committed = some pending → call ∉ state.committers ∧
      ∃ task path, state.tasks call = some task ∧ task.Does path ∧ pending = tagged call path)
    (hcall : CallInv (state.sent call connection effect lost) call (state.tasks call) phase) :
    Inv max (((state.sent call connection effect lost).release call).goto call phase) := by
  refine hinv.moves hconnection rfl rfl rfl (fun _ _ => rfl) rfl
    (unanswered_subset_sent state call connection effect lost) (.inr ⟨rfl, hphase, ?_⟩) hbatch
    (hcall.mono (fun _ _ => .inl rfl) rfl (List.Subset.refl _) id (List.Subset.refl _))
  cases lost
  · exact hclean
  · rfl

/-- A transaction goes on with a command that commits nothing. -/
theorem Inv.runs (hinv : Inv max state) {call : Call} {connection : ConnectionId}
    {fn program : Program Statement Rows Request Outcome Result}
    {effect : Effect (Call × Statement)} {lost : Bool}
    (hconnection : (state.calls call).connection = some connection)
    (htask : state.tasks call = some (.transaction fn)) (hnone : call ∉ state.committers)
    (hquiet : effect.committed = none)
    (hserves : lost = false → Serves call fn (state.heard call) effect.status program) :
    Inv max ((state.sent call connection effect lost).goto call (.running connection program)) := by
  refine hinv.stays hconnection effect lost rfl (by simp [hquiet]) ?_
  rw [htask]
  refine .running fn connection program ?_ fun hmem => absurd hmem ?_
  · rw [sessions_sent]
    cases lost with
    | true => exact .dead program
    | false => exact hserves rfl
  · rw [State.committers, committed_sent_of_none state call connection hquiet lost]
    exact hnone

/-- BEGIN on a connection that came out of the pool. -/
theorem Inv.begin (hinv : Inv max state) {call : Call} {connection : ConnectionId}
    {fn : Program Statement Rows Request Outcome Result} (fails lost : Bool)
    (hphase : state.calls call = .connected connection)
    (htask : state.tasks call = some (.transaction fn)) {effect : Effect (Call × Statement)}
    (heffect : (state.sessions connection).execute fails .begin = effect) :
    Inv max ((state.sent call connection effect lost).goto call
      (.running connection (if effect.succeeds && !lost then fn else .throw))) := by
  have hcall := hinv.calls call
  rw [hphase, htask] at hcall
  cases hcall with
  | connected _ _ hnone hsilent hclean =>
      have hbegun : effect = ⟨.opened [], true, none⟩ ∨ effect = ⟨.dead, false, none⟩ := by
        subst heffect
        cases hstatus : state.sessions connection <;> simp_all [Status.execute, Status.isClean]
      refine hinv.runs (congrArg Phase.connection hphase) htask hnone ?_ ?_
      · rcases hbegun with rfl | rfl <;> rfl
      · rintro rfl
        rcases hbegun with rfl | rfl
        · rw [hsilent]
          exact .opened fn .start
        · exact .dead _

/-- A statement of `fn`: it joins the transaction, or is the end of it. -/
theorem Serves.query {call : Call} {fn : Program Statement Rows Request Outcome Result}
    {heard : List (Event Statement Rows Request Outcome)} {status : Status (Call × Statement)}
    {statement : Statement}
    {following : Option Rows → Program Statement Rows Request Outcome Result}
    (hserves : Serves call fn heard status (.query statement following)) (fails : Bool)
    (rows : Rows) {effect : Effect (Call × Statement)}
    (heffect : status.execute fails (.statement (call, statement)) = effect) :
    effect.committed = none ∧
      (effect.succeeds = true →
        Serves call fn (heard ++ [.query statement rows]) effect.status (following (some rows))) ∧
      (effect.succeeds = false → Serves call fn heard effect.status (following none)) := by
  subst heffect
  cases hserves with
  | opened _ hreaches =>
      cases fails with
      | true =>
          refine ⟨rfl, by simp [Status.execute], fun _ => ?_⟩
          exact .aborted _ fun hstrict => (hstrict.of_reaches hreaches).1
      | false =>
          refine ⟨rfl, fun _ => ?_, by simp [Status.execute]⟩
          have hopened : Serves call fn _ _ _ := .opened _ (hreaches.query rows)
          rwa [statements_append, statements_cons_query, statements_nil, tagged_append] at hopened
  | aborted _ hfailed =>
      refine ⟨rfl, by simp [Status.execute], fun _ => ?_⟩
      exact .aborted _ fun hstrict => by cases hfailed hstrict
  | dead => exact ⟨rfl, by simp [Status.execute], fun _ => .dead _⟩

/-- A transaction that is under way serves its call, and unless it threw nothing of it is
committed. -/
theorem Inv.serves (hinv : Inv max state) {call : Call} {connection : ConnectionId}
    {program : Program Statement Rows Request Outcome Result}
    (hphase : state.calls call = .running connection program) :
    ∃ fn, state.tasks call = some (.transaction fn) ∧
      Serves call fn (state.heard call) (state.sessions connection) program ∧
      (program ≠ .throw → call ∉ state.committers) := by
  have hcall := hinv.calls call
  rw [hphase] at hcall
  generalize htask : state.tasks call = task at hcall ⊢
  cases hcall with
  | running fn _ _ hserves hlost =>
      exact ⟨fn, rfl, hserves, fun hlive hmem => hlive (hlost hmem).1⟩

theorem Inv.query (hinv : Inv max state) {call : Call} {connection : ConnectionId}
    {statement : Statement}
    {following : Option Rows → Program Statement Rows Request Outcome Result} (fails lost : Bool)
    (rows : Rows) (hphase : state.calls call = .running connection (.query statement following))
    {effect : Effect (Call × Statement)}
    (heffect : (state.sessions connection).execute fails (.statement (call, statement)) = effect) :
    ((effect.succeeds && !lost) = true →
      Inv max (((state.sent call connection effect lost).hear call
        (.query statement rows)).goto call
        (.running connection (following (some rows))))) ∧
    ((effect.succeeds && !lost) = false →
      Inv max ((state.sent call connection effect lost).goto call
        (.running connection (following none)))) := by
  obtain ⟨fn, htask, hserves, hlive⟩ := hinv.serves hphase
  have hconnection := congrArg Phase.connection hphase
  have hnone := hlive nofun
  obtain ⟨hquiet, hjoins, hends⟩ := hserves.query fails rows heffect
  constructor
  · intro hanswer
    rw [Bool.and_eq_true] at hanswer
    obtain ⟨hsucceeds, hkept⟩ := hanswer
    cases lost with
    | true => cases hkept
    | false =>
        refine hinv.moves hconnection rfl rfl rfl
          (fun other hne => Function.update_of_ne hne _ _) rfl
          (unanswered_subset_sent state call connection effect false) (.inl ⟨rfl, rfl⟩)
          (by simp [hquiet]) ?_
        rw [htask]
        refine .running fn connection _ ?_ fun hmem => absurd hmem ?_
        · have hopened := hjoins hsucceeds
          simp only [State.goto, State.hear, State.sent, Function.update_self,
            Bool.false_eq_true, if_false]
          exact hopened
        · have hsame := committed_sent_of_none state call connection hquiet false
          rw [State.committers]
          simp only [State.goto, State.hear, hsame]
          exact hnone
  · intro hanswer
    refine hinv.runs hconnection htask hnone hquiet ?_
    rintro rfl
    exact hends (by simpa using hanswer)

/-- The COMMIT: the whole of `fn` is committed, or nothing. -/
theorem Serves.commit {call : Call} {fn : Program Statement Rows Request Outcome Result}
    {heard : List (Event Statement Rows Request Outcome)} {result : Result}
    {status : Status (Call × Statement)} (hserves : Serves call fn heard status (.done result))
    (fails : Bool) {effect : Effect (Call × Statement)}
    (heffect : status.execute fails .commit = effect) :
    fn.Reaches heard (.done result) ∧
        effect = ⟨.idle, true, some (tagged call (statements heard))⟩ ∨
      effect.committed = none ∧ (effect.succeeds = true → effect.status = .idle ∧ ¬ fn.Strict) ∧
        (effect.succeeds = false → effect.status = .idle ∨ effect.status = .dead) := by
  subst heffect
  cases hserves with
  | opened _ hreaches =>
      cases fails with
      | true => exact .inr ⟨rfl, by simp [Status.execute], fun _ => .inl rfl⟩
      | false => exact .inl ⟨hreaches, rfl⟩
  | aborted _ hfailed =>
      refine .inr ⟨rfl, fun _ => ⟨rfl, fun hstrict => ?_⟩, by simp [Status.execute]⟩
      cases hfailed hstrict
  | dead => exact .inr ⟨rfl, by simp [Status.execute], fun _ => .inr rfl⟩

theorem Inv.commit (hinv : Inv max state) {call : Call} {connection : ConnectionId}
    {result : Result} (fails lost : Bool)
    (hphase : state.calls call = .running connection (.done result))
    {effect : Effect (Call × Statement)}
    (heffect : (state.sessions connection).execute fails .commit = effect) :
    ((effect.succeeds && !lost) = true →
      Inv max (((state.sent call connection effect lost).release call).goto call
        (.resolved result))) ∧
    ((effect.succeeds && !lost) = false →
      Inv max ((state.sent call connection effect lost).goto call
        (.running connection .throw))) := by
  obtain ⟨fn, htask, hserves, hlive⟩ := hinv.serves hphase
  have hconnection := congrArg Phase.connection hphase
  have hnone := hlive nofun
  rcases hserves.commit fails heffect with ⟨hreaches, rfl⟩ | ⟨hquiet, hends, hfails⟩
  · have hbatch : ∀ pending, some (tagged call (statements (state.heard call))) = some pending →
        call ∉ state.committers ∧ ∃ task path, state.tasks call = some task ∧ task.Does path ∧
          pending = tagged call path := by
      rintro _ ⟨⟩
      exact ⟨hnone, _, _, htask, ⟨_, result, hreaches, rfl⟩, rfl⟩
    have hmem : (call, tagged call (statements (state.heard call))) ∈
        (state.sent call connection
          ⟨.idle, true, some (tagged call (statements (state.heard call)))⟩ lost).committed :=
      List.mem_append_right _ (List.mem_singleton_self _)
    cases lost with
    | true =>
        refine ⟨by simp, fun _ => ?_⟩
        refine hinv.stays hconnection _ true rfl hbatch ?_
        rw [htask]
        refine .running fn connection .throw (by rw [sessions_sent]; exact .dead _) fun _ => ?_
        exact ⟨rfl, sessions_sent _ _ _ _ _, List.mem_cons_self⟩
    | false =>
        refine ⟨fun _ => ?_, by simp⟩
        refine hinv.leaves hconnection _ false rfl rfl hbatch ?_
        rw [htask]
        exact .resolved fn result fun _ => ⟨hreaches, hmem⟩
  · refine ⟨fun hanswer => ?_, fun hanswer => ?_⟩
    · rw [Bool.and_eq_true] at hanswer
      obtain ⟨hidle, hlax⟩ := hends hanswer.1
      refine hinv.leaves hconnection effect lost rfl (by rw [hidle]; rfl) (by simp [hquiet]) ?_
      rw [htask]
      exact .resolved fn result fun hstrict => absurd hstrict hlax
    · refine hinv.runs hconnection htask hnone hquiet ?_
      rintro rfl
      rcases hfails (by simpa using hanswer) with hidle | hdead
      · rw [hidle]
        exact .ended
      · rw [hdead]
        exact .dead _

/-- The ROLLBACK, and the end of the call. -/
theorem Inv.rollback (hinv : Inv max state) {call : Call} {connection : ConnectionId}
    (fails lost : Bool) (hphase : state.calls call = .running connection .throw)
    {effect : Effect (Call × Statement)}
    (heffect : (state.sessions connection).execute fails .rollback = effect) :
    Inv max (((state.sent call connection effect lost).release call).goto call .rejected) := by
  have hcall := hinv.calls call
  rw [hphase] at hcall
  generalize htask : state.tasks call = task at hcall
  have hquiet : effect.committed = none := by
    rw [← heffect]
    cases state.sessions connection <;> rfl
  have hclean : effect.status.isClean = true := by
    rw [← heffect]
    exact isClean_execute_end (.inr rfl) _ _
  cases hcall with
  | running fn _ _ hserves hlost =>
      refine hinv.leaves (congrArg Phase.connection hphase) effect lost rfl hclean
        (by simp [hquiet]) ?_
      rw [htask]
      refine .rejected _ fun hmem => ?_
      rw [State.committers, committed_sent_of_none state call connection hquiet lost] at hmem
      exact unanswered_subset_sent state call connection effect lost (hlost hmem).2.2

/-- The one statement of `query`. -/
theorem Inv.ask (hinv : Inv max state) {call : Call} {connection : ConnectionId}
    {statement : Statement} (fails lost : Bool) (rows : Rows)
    (hphase : state.calls call = .connected connection)
    (htask : state.tasks call = some (.query statement)) {effect : Effect (Call × Statement)}
    (heffect : (state.sessions connection).execute fails (.statement (call, statement)) = effect) :
    Inv max (((state.sent call connection effect lost).release call).goto call
      (if effect.succeeds && !lost then .answered rows else .rejected)) := by
  have hcall := hinv.calls call
  rw [hphase, htask] at hcall
  cases hcall with
  | connected _ _ hnone _ hclean =>
      have hends : effect = ⟨.idle, true, some (tagged call [statement])⟩ ∨
          effect.committed = none ∧ effect.succeeds = false := by
        subst heffect
        cases hstatus : state.sessions connection <;> cases fails <;>
          simp_all [Status.execute, Status.isClean, tagged]
      have hclean' : effect.status.isClean = true := by
        rw [← heffect]
        exact execute_statement_of_isClean hclean fails _
      refine hinv.leaves (congrArg Phase.connection hphase) effect lost ?_ hclean' ?_ ?_
      · split <;> rfl
      · intro pending hpending
        rcases hends with rfl | ⟨hquiet, -⟩
        · cases hpending
          exact ⟨hnone, _, [statement], htask, rfl, rfl⟩
        · rw [hquiet] at hpending
          cases hpending
      · rw [htask]
        rcases hends with rfl | ⟨hquiet, hfails⟩
        · cases lost with
          | true => exact .rejected _ fun _ => List.mem_cons_self
          | false =>
              exact .answered statement rows
                (List.mem_append_right _ (List.mem_singleton_self _))
        · rw [hfails, Bool.false_and]
          refine .rejected _ fun hmem => absurd hmem ?_
          rw [State.committers, committed_sent_of_none state call connection hquiet lost]
          exact hnone

/-- A call goes from a phase without a connection to another one. -/
theorem Inv.goes (hinv : Inv max state) {call : Call}
    {phase : Phase Statement Rows Request Outcome Result}
    (hbefore : (state.calls call).connection = none) (hafter : phase.connection = none)
    {tasks : Call → Option (Task Statement Rows Request Outcome Result)}
    (hothers : ∀ other, other ≠ call → tasks other = state.tasks other)
    (htask : ∀ task, state.tasks call = some task → tasks call = some task)
    (hcall : CallInv state call (tasks call) phase) :
    Inv max { (state.goto call phase) with tasks := tasks } := by
  refine ⟨hinv.once, ?_, hinv.apart, hinv.few, ?_, hinv.free, ?_⟩
  · intro entry hentry
    obtain ⟨task, path, hold, hdoes, hpath⟩ := hinv.whole entry hentry
    refine ⟨task, path, ?_, hdoes, hpath⟩
    by_cases heq : entry.1 = call
    · rw [heq] at hold
      rw [heq]
      exact htask task hold
    · exact (hothers _ heq).trans hold
  · intro other connection
    rw [State.goto]
    dsimp only
    rw [← hinv.holds other connection]
    by_cases heq : other = call
    · rw [heq, Function.update_self, hafter, hbefore]
    · rw [Function.update_of_ne heq]
  · intro other
    rw [State.goto]
    dsimp only
    by_cases heq : other = call
    · subst heq
      rw [Function.update_self]
      exact hcall.mono (fun _ _ => .inl rfl) rfl (List.Subset.refl _) id (List.Subset.refl _)
    · rw [Function.update_of_ne heq, hothers other heq]
      exact (hinv.calls other).mono (fun _ _ => .inl rfl) rfl (List.Subset.refl _) id
        (List.Subset.refl _)

theorem Inv.begins (hinv : Inv max state) {call : Call} (hphase : state.calls call = .idle)
    (task : Task Statement Rows Request Outcome Result) :
    Inv max { (state.goto call .waiting) with
      tasks := Function.update state.tasks call (some task) } := by
  have hcall := hinv.calls call
  rw [hphase] at hcall
  generalize htask : state.tasks call = old at hcall
  cases hcall with
  | idle hnone hsilent =>
      refine hinv.goes (congrArg Phase.connection hphase) rfl
        (fun other hne => Function.update_of_ne hne _ _) (fun other hother => ?_) ?_
      · rw [htask] at hother
        cases hother
      · rw [Function.update_self]
        exact .waiting task hnone hsilent

theorem Inv.fails (hinv : Inv max state) {call : Call} (hphase : state.calls call = .waiting) :
    Inv max (state.goto call .rejected) := by
  have hcall := hinv.calls call
  rw [hphase] at hcall
  refine hinv.goes (congrArg Phase.connection hphase) rfl (fun _ _ => rfl) (fun _ htask => htask) ?_
  generalize state.tasks call = task at hcall
  cases hcall with
  | waiting task hnone hsilent => exact .rejected task fun hmem => absurd hmem hnone

theorem Inv.connects (hinv : Inv max state) {call : Call} {connection : ConnectionId}
    (hphase : state.calls call = .waiting) (hroom : state.held.length < max)
    (hfree : connection ∉ state.held.map Prod.fst) :
    Inv max { (state.goto call (.connected connection)) with held :=
      (connection, call) :: state.held } := by
  have hcall := hinv.calls call
  rw [hphase] at hcall
  have hnone : ∀ other, (other, call) ∉ state.held := by
    intro other hmem
    have hsome := (hinv.holds call other).mpr hmem
    rw [hphase] at hsome
    cases hsome
  refine ⟨hinv.once, hinv.whole, List.nodup_cons.mpr ⟨hfree, hinv.apart⟩, hroom, ?_, ?_, ?_⟩
  · intro other mine
    rw [State.goto]
    dsimp only
    rw [List.mem_cons]
    by_cases heq : other = call
    · subst heq
      rw [Function.update_self]
      constructor
      · intro hmine
        cases hmine
        exact .inl rfl
      · rintro (hmine | hold)
        · cases hmine
          rfl
        · exact absurd hold (hnone mine)
    · rw [Function.update_of_ne heq, hinv.holds]
      constructor
      · exact .inr
      · rintro (hmine | hold)
        · exact absurd (Prod.mk.inj hmine).2 heq
        · exact hold
  · intro other hother
    exact hinv.free other fun hmem => hother (List.mem_cons_of_mem _ hmem)
  · intro other
    rw [State.goto]
    dsimp only
    by_cases heq : other = call
    · subst heq
      rw [Function.update_self]
      generalize state.tasks other = task at hcall
      cases hcall with
      | waiting task hnone hsilent =>
          exact .connected task connection hnone hsilent (hinv.free connection hfree)
    · rw [Function.update_of_ne heq]
      exact (hinv.calls other).mono (fun _ _ => .inl rfl) rfl (List.Subset.refl _) id
        (List.Subset.refl _)

/-- Something else that `fn` waited for. -/
theorem Inv.awaits (hinv : Inv max state) {call : Call} {connection : ConnectionId}
    {request : Request} {following : Outcome → Program Statement Rows Request Outcome Result}
    (hphase : state.calls call = .running connection (.await request following))
    (outcome : Outcome) :
    Inv max ((state.hear call (.await request outcome)).goto call
      (.running connection (following outcome))) := by
  obtain ⟨fn, htask, hserves, hlive⟩ := hinv.serves hphase
  have hquiet : state.committed = state.committed ++
      ((none : Option (List (Call × Statement))).map fun batch => (call, batch)).toList :=
    (List.append_nil _).symm
  refine hinv.moves (congrArg Phase.connection hphase)
    (Function.update_eq_self connection state.sessions).symm rfl rfl
    (fun other hne => Function.update_of_ne hne _ _) hquiet (List.Subset.refl _) (.inl ⟨rfl, rfl⟩)
    (by simp) ?_
  rw [htask]
  refine .running fn connection _ ?_ fun hmem => (hlive nofun hmem).elim
  simp only [State.goto, State.hear, Function.update_self]
  generalize state.sessions connection = status at hserves
  cases hserves with
  | opened _ hreaches =>
      have hopened : Serves call fn _ _ _ := .opened _ (hreaches.await outcome)
      rwa [statements_append, statements_cons_await, statements_nil, List.append_nil] at hopened
  | aborted _ hfailed => exact .aborted _ fun hstrict => by cases hfailed hstrict
  | dead => exact .dead _

theorem Inv.dies (hinv : Inv max state) (connection : ConnectionId) :
    Inv max (die state connection) := by
  have hsessions : ∀ mine, (die state connection).sessions mine = state.sessions mine ∨
      (die state connection).sessions mine = .dead := by
    intro mine
    by_cases heq : mine = connection
    · exact .inr (by rw [heq]; exact Function.update_self _ _ _)
    · exact .inl (Function.update_of_ne heq _ _)
  refine ⟨hinv.once, hinv.whole, hinv.apart, hinv.few, hinv.holds, ?_, ?_⟩
  · intro mine hfree
    rcases hsessions mine with hsame | hdead
    · rw [hsame]
      exact hinv.free mine hfree
    · rw [hdead]
      rfl
  · intro call
    exact (hinv.calls call).mono (fun mine _ => hsessions mine) rfl (List.Subset.refl _) id
      (List.Subset.refl _)

theorem Inv.step (hinv : Inv max state) (hstep : PgStore.step max state action = some next) :
    Inv max next := by
  cases action with
  | begin call task =>
      simp only [PgStore.step, PgStore.begin] at hstep
      split at hstep
      · rename_i hphase
        cases hstep
        exact hinv.begins hphase task
      · cases hstep
  | connect call connection =>
      simp only [PgStore.step, connect] at hstep
      split at hstep
      · rename_i hphase
        split at hstep
        · rename_i hfree
          cases hstep
          exact hinv.connects hphase hfree.1 hfree.2
        · cases hstep
      · cases hstep
  | connectFails call =>
      simp only [PgStore.step, connectFails] at hstep
      split at hstep
      · rename_i hphase
        cases hstep
        exact hinv.fails hphase
      · cases hstep
  | execute call fails rows lost =>
      simp only [PgStore.step, execute] at hstep
      split at hstep
      · rename_i connection fn hphase htask
        cases hstep
        exact hinv.begin fails lost hphase htask rfl
      · rename_i connection statement hphase htask
        cases hstep
        exact hinv.ask fails lost rows hphase htask rfl
      · rename_i task connection statement following hphase
        have hquery := hinv.query fails lost rows hphase rfl
        by_cases hanswer :
          (state.send call connection (.statement (call, statement)) fails lost).2 = true
        · rw [if_pos hanswer] at hstep
          cases hstep
          exact hquery.1 hanswer
        · rw [if_neg hanswer] at hstep
          cases hstep
          exact hquery.2 ((Bool.not_eq_true _).mp hanswer)
      · rename_i task connection result hphase
        have hcommit := hinv.commit fails lost hphase rfl
        by_cases hanswer : (state.send call connection .commit fails lost).2 = true
        · rw [if_pos hanswer] at hstep
          cases hstep
          exact hcommit.1 hanswer
        · rw [if_neg hanswer] at hstep
          cases hstep
          exact hcommit.2 ((Bool.not_eq_true _).mp hanswer)
      · rename_i task connection hphase
        cases hstep
        exact hinv.rollback fails lost hphase rfl
      · cases hstep
  | await call outcome =>
      simp only [PgStore.step, await] at hstep
      split at hstep
      · rename_i connection request following hphase
        cases hstep
        exact hinv.awaits hphase outcome
      · cases hstep
  | die connection =>
      cases hstep
      exact hinv.dies connection

theorem inv_reach (hreach : Reachable (step max) State.init state) : Inv max state :=
  hreach.invariant (Inv max) (inv_init max) fun _ _ _ _ hinv _ hstep => hinv.step hstep

theorem Inv.resolved (hinv : Inv max state) {call : Call}
    {fn : Program Statement Rows Request Outcome Result} {result : Result}
    (htask : state.tasks call = some (.transaction fn))
    (hphase : state.calls call = .resolved result) (hstrict : fn.Strict) :
    fn.Reaches (state.heard call) (.done result) ∧
      (call, tagged call (statements (state.heard call))) ∈ state.committed := by
  have hcall := hinv.calls call
  rw [htask, hphase] at hcall
  cases hcall with
  | resolved _ _ hcommitted => exact hcommitted hstrict

/-- In every run, what a call has committed is the whole of what it did: every entry is one of one
call, no call has two, and there is nothing in it that is not its own. A transaction that resolved
is committed, unless `fn` went on after an error; one that rejected is not, unless the COMMIT was
never answered. -/
theorem transaction_atomic (hreach : Reachable (step max) State.init state) :
    state.committers.Nodup ∧
    (∀ entry ∈ state.committed, ∃ task path, state.tasks entry.1 = some task ∧ task.Does path ∧
      entry.2 = tagged entry.1 path) ∧
    (∀ call fn result, state.tasks call = some (.transaction fn) →
      state.calls call = .resolved result →
      fn.Strict → ∃ trace, fn.Reaches trace (.done result) ∧
        (call, tagged call (statements trace)) ∈ state.committed) ∧
    ∀ call, state.calls call = .rejected → call ∈ state.committers → call ∈ state.unanswered := by
  have hinv := inv_reach hreach
  refine ⟨hinv.once, hinv.whole, fun call fn result htask hphase hstrict =>
    ⟨_, hinv.resolved htask hphase hstrict⟩, ?_⟩
  intro call hphase
  have hcall := hinv.calls call
  rw [hphase] at hcall
  generalize state.tasks call = task at hcall
  cases hcall with
  | rejected _ hlost => exact hlost

def writeBoth : Program Nat Unit Unit Unit Unit :=
  .query 1 fun
    | none => .throw
    | some _ =>
        .query 2 fun
          | none => .throw
          | some _ => .done ()

/-- Two transactions side by side; the COMMIT of the second is not answered. -/
def sideBySide : List (Action Nat Unit Unit Unit Unit) :=
  [.begin 1 (.transaction writeBoth), .begin 2 (.transaction writeBoth), .connect 1 0, .connect 2 1,
    .execute 1 false () false, .execute 2 false () false, .execute 1 false () false,
    .execute 2 false () false, .execute 2 false () false, .execute 2 false () true,
    .execute 1 false () false, .execute 1 false () false, .execute 2 false () false,
    .begin 3 (.query 7), .connect 3 0, .execute 3 false () false]

theorem transaction_atomic_unanswered :
    ∃ state : State Nat Unit Unit Unit Unit, Reachable (step 2) State.init state ∧
      state.unanswered = [2] ∧
      state.committed = [(2, [(2, 1), (2, 2)]), (1, [(1, 1), (1, 2)]), (3, [(3, 7)])] ∧
      state.committers.Nodup ∧ ∃ task path, state.tasks 2 = some task ∧ task.Does path ∧
        [(2, 1), (2, 2)] = tagged 2 path := by
  obtain ⟨state, hreach, hcheck⟩ : ∃ state : State Nat Unit Unit Unit Unit,
      Reachable (step 2) State.init state ∧ decide (state.unanswered = [2] ∧
        state.committed = [(2, [(2, 1), (2, 2)]), (1, [(1, 1), (1, 2)]), (3, [(3, 7)])]) = true :=
    exists_reach_of_runWithin sideBySide (by decide +kernel)
  obtain ⟨hunanswered, hcommitted⟩ := of_decide_eq_true hcheck
  have hatomic := transaction_atomic hreach
  refine ⟨state, hreach, hunanswered, hcommitted, hatomic.1, hatomic.2.1 (2, [(2, 1), (2, 2)]) ?_⟩
  rw [hcommitted]
  exact List.mem_cons_self

/-- In every run a connection is out of the pool for one call at a time, which is at work, and no
more of them are than the pool allows. Those in the pool have no transaction on them, and what is
open on the others is the holder's own. -/
theorem pool_clean (hreach : Reachable (step max) State.init state) :
    state.held.length ≤ max ∧ (state.held.map Prod.fst).Nodup ∧
    (∀ call connection,
      (connection, call) ∈ state.held ↔ (state.calls call).connection = some connection) ∧
    ∀ connection, (state.sessions connection).isClean = true ∨
      ∃ call, (connection, call) ∈ state.held ∧
        ∀ pending, state.sessions connection = .opened pending →
          ∃ path, pending = tagged call path := by
  have hinv := inv_reach hreach
  refine ⟨hinv.few, hinv.apart, fun call connection => (hinv.holds call connection).symm, ?_⟩
  intro connection
  by_cases hheld : connection ∈ state.held.map Prod.fst
  case neg => exact .inl (hinv.free connection hheld)
  obtain ⟨⟨_, call⟩, hentry, rfl⟩ := List.mem_map.mp hheld
  refine .inr ⟨call, hentry, fun pending hpending => ?_⟩
  have hholds := (hinv.holds call _).mpr hentry
  have hcall := hinv.calls call
  generalize state.tasks call = task at hcall
  generalize state.calls call = phase at hcall hholds
  cases hcall with
  | connected task mine hnone hsilent hclean =>
      cases hholds
      rw [hpending] at hclean
      cases hclean
  | running fn mine program hserves hlost =>
      cases hholds
      rw [hpending] at hserves
      cases hserves with
      | opened _ _ => exact ⟨statements (state.heard call), rfl⟩
  | _ => cases hholds

theorem pool_clean_returned :
    ∃ state : State Nat Unit Unit Unit Unit, Reachable (step 2) State.init state ∧ state.held = [] ∧
      ∀ connection, (state.sessions connection).isClean = true := by
  obtain ⟨state, hreach, hcheck⟩ : ∃ state : State Nat Unit Unit Unit Unit,
      Reachable (step 2) State.init state ∧ decide (state.held = []) = true :=
    exists_reach_of_runWithin sideBySide (by decide +kernel)
  have hheld := of_decide_eq_true hcheck
  refine ⟨state, hreach, hheld, fun connection => ?_⟩
  rcases (pool_clean hreach).2.2.2 connection with hclean | ⟨call, hmem, -⟩
  · exact hclean
  · rw [hheld] at hmem
    cases hmem

end Marketplace.PgStore

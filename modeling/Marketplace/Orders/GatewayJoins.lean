import Marketplace.Orders.GatewayPushes

/-!
# The joins of a socket

A join belongs to a socket that is connected, for as long as it waits, and a socket that was opened
after its token had expired gets none under way.
-/

namespace Marketplace.Gateway

open Checkout (JsNumber)
open OrderEvents (OrderStatusEvent)
open OrdersService (Database JoinAck JoinResult roomName toNumber orderIdKey canView handleJoin)
open RefreshToken (Token)
open Transition

variable {Hash : Type} [DecidableEq Hash] {hash : Token → Hash} {number : Text → JsNumber}
  {readToken : Text → Option AccessToken} {state after : State Hash} {action : Action Hash}

/-! ### The joins that wait, and their sockets -/

/-- The socket and the principal of a join that waits for something. -/
def Join.waiting : Join → Option (SocketId × AccessPrincipal)
  | .checking id principal _ | .viewing id principal _ | .entering id principal _ =>
      some (id, principal)
  | .idle | .acked _ | .threw => none

/-- It was opened before its token expired, and its timer is due by then. -/
def Connection.InTime (connection : Connection) : Prop :=
  connection.checkedAt < seconds connection.principal.expiresAt ∧
    connection.deadline ≤ seconds connection.principal.expiresAt

theorem timerDelay_le {delay : Nat} (hdelay : 1 ≤ delay) : timerDelay delay ≤ delay := by
  unfold timerDelay
  split <;> omega

theorem inTime_opened {principal : AccessPrincipal} {verifiedAt checkedAt now : Nat}
    (hchecked : checkedAt ≤ now) (hlive : now < seconds principal.expiresAt) :
    (Connection.opened principal verifiedAt checkedAt now).InTime := by
  have hdelay := timerDelay_le (Nat.sub_pos_of_lt hlive)
  refine ⟨Nat.lt_of_le_of_lt hchecked hlive, ?_⟩
  simp only [Connection.opened]
  omega

/-- What a change of a connection leaves as it is. -/
structure Connection.Same (left right : Connection) : Prop where
  principal : left.principal = right.principal
  verifiedAt : left.verifiedAt = right.verifiedAt
  checkedAt : left.checkedAt = right.checkedAt
  deadline : left.deadline = right.deadline

theorem Connection.Same.trans {left middle right : Connection} (hleft : left.Same middle)
    (hright : middle.Same right) : left.Same right where
  principal := hleft.principal.trans hright.principal
  verifiedAt := hleft.verifiedAt.trans hright.verifiedAt
  checkedAt := hleft.checkedAt.trans hright.checkedAt
  deadline := hleft.deadline.trans hright.deadline

theorem Connection.Same.inTime {left right : Connection} (hsame : left.Same right)
    (hright : right.InTime) : left.InTime := by
  unfold InTime
  rw [hsame.principal, hsame.checkedAt, hsame.deadline]
  exact hright

theorem same_close (connection : Connection) (count : Nat) :
    (connection.close count).Same connection :=
  ⟨rfl, rfl, rfl, rfl⟩

theorem same_join (connection : Connection) (room : Text) (count : Nat) :
    (connection.join room count).Same connection := by
  unfold Connection.join
  split <;> exact ⟨rfl, rfl, rfl, rfl⟩

theorem same_push (connection : Connection) (event : OrderStatusEvent) (time : Nat) :
    (connection.push event time).Same connection := by
  unfold Connection.push
  split <;> exact ⟨rfl, rfl, rfl, rfl⟩

theorem rooms_push (connection : Connection) (event : OrderStatusEvent) (time : Nat) :
    (connection.push event time).rooms = connection.rooms := by
  unfold Connection.push
  split <;> rfl

omit [DecidableEq Hash] in
theorem Opens.not_connected {before : State Hash} {socket after : Socket} {connection : Connection}
    (hopens : Opens readToken before action socket after) : socket ≠ .connected connection := by
  cases hopens with
  | refuse socket error hsocket => exact hsocket connection
  | _ => simp

/-- A connected socket stays connected to the same client, and enters rooms through joins only. -/
theorem connected_step (hstep : step hash number readToken state action = some after)
    {id : SocketId} {connection : Connection} (hsocket : state.sockets id = .connected connection) :
    ∃ next, after.sockets id = .connected next ∧ next.Same connection ∧
      (next.rooms = connection.rooms ∨ ∃ call principal orderId count,
        state.joins call = .entering id principal orderId ∧
          next.rooms = connection.rooms ++ [⟨roomName orderId, count⟩]) := by
  have hchanges := socket_changes hstep id
  generalize after.sockets id = target at hchanges ⊢
  generalize after.emitted = emitted at hchanges
  cases hchanges with
  | keep => exact ⟨connection, hsocket, ⟨rfl, rfl, rfl, rfl⟩, .inl rfl⟩
  | opens socket hopens => exact absurd hsocket hopens.not_connected
  | close old hold =>
      rw [hsocket] at hold
      cases hold
      exact ⟨_, rfl, same_close _ _, .inl rfl⟩
  | join old call principal orderId hold hjoin =>
      rw [hsocket] at hold
      cases hold
      refine ⟨_, rfl, same_join _ _ _, ?_⟩
      unfold Connection.join
      split
      · exact .inr ⟨call, principal, orderId, _, hjoin, rfl⟩
      · exact .inl rfl
  | push orderId status event hevent =>
      rw [hsocket]
      exact ⟨_, rfl, same_push _ _ _, .inl (rooms_push _ _ _)⟩

/-- A socket that becomes connected does so with no rooms, once its handshake has been checked. -/
theorem new_connected (hstep : step hash number readToken state action = some after) {id : SocketId}
    {next : Connection} (hnext : after.sockets id = .connected next)
    (hnew : ∀ connection, state.sockets id ≠ .connected connection) :
    ∃ principal verifiedAt checkedAt, state.sockets id = .admitted principal verifiedAt checkedAt ∧
      next = .opened principal verifiedAt checkedAt state.clock := by
  have hchanges := socket_changes hstep id
  rw [hnext] at hchanges
  generalize htarget : Socket.connected next = target at hchanges
  generalize after.emitted = emitted at hchanges
  cases hchanges with
  | keep => exact absurd htarget.symm (hnew next)
  | opens socket hopens =>
      subst htarget
      exact hopens.of_connected
  | close old hold => exact absurd hold (hnew old)
  | join old call principal orderId hold hjoin => exact absurd hold (hnew old)
  | push orderId status event hevent =>
      cases hold : state.sockets id with
      | connected old => exact absurd hold (hnew old)
      | _ => rw [hold] at htarget; cases htarget

theorem auth_step (hstep : step hash number readToken state action = some after) :
    after.auth = state.auth ∨ ∃ inner, AuthService.step hash state.auth inner =
      some after.auth := by
  cases step_takes hstep with
  | auth inner auth hauth => exact .inr ⟨inner, hauth⟩
  | setDatabase database => exact .inl rfl
  | opens mover socket hopens => exact .inl rfl
  | disconnect mover => exact .inl (state.auth_modify mover _)
  | advances mover join hadvances => exact .inl rfl
  | throwOut id mover reason => exact .inl (state.auth_modify id _)
  | enter mover id principal orderId hjoin => exact .inl (state.auth_modify id _)
  | emit orderId status => exact .inl rfl

/-- `connected`: a socket that was opened too late has entered no room, and `joins`: none of its
joins gets past the first check. -/
structure AccessInv (hash : Token → Hash) (state : State Hash) : Prop where
  auth : AuthService.DenylistInv hash state.auth
  admitted : ∀ id principal verifiedAt checkedAt,
    state.sockets id = .admitted principal verifiedAt checkedAt → checkedAt ≤ state.clock
  connected : ∀ id connection, state.sockets id = .connected connection →
    connection.InTime ∨ seconds connection.principal.expiresAt ≤ state.clock ∧ connection.rooms = []
  joins : ∀ call id principal, (state.joins call).waiting = some (id, principal) →
    ∃ connection, state.sockets id = .connected connection ∧ connection.principal = principal ∧
      connection.InTime

omit [DecidableEq Hash] in
theorem accessInv_init (database : Database) :
    AccessInv hash (State.init database : State Hash) where
  auth := AuthService.denylistInv_init
  admitted _ _ _ _ hsocket := by cases hsocket
  connected _ _ hsocket := by cases hsocket
  joins _ _ _ hjoin := by cases hjoin

theorem AccessInv.auth_step (hinv : AccessInv hash state)
    (hstep : step hash number readToken state action = some after) :
    AuthService.DenylistInv hash after.auth ∧ state.clock ≤ after.clock := by
  rcases Gateway.auth_step hstep with hauth | ⟨inner, hauth⟩
  · rw [State.clock, State.clock, hauth]
    exact ⟨hinv.auth, Nat.le_refl _⟩
  · exact ⟨hinv.auth.step hauth, (AuthService.tokensInv_step hinv.auth.tokens hauth).2⟩

/-- A join that waits did so before the step, for the same socket, or has just begun. -/
theorem waiting_step (hstep : step hash number readToken state action = some after) {call : Call}
    {id : SocketId} {principal : AccessPrincipal}
    (hwaiting : (after.joins call).waiting = some (id, principal)) :
    (state.joins call).waiting = some (id, principal) ∨
      ∃ connection, state.sockets id = .connected connection ∧ connection.principal = principal ∧
        state.clock < seconds principal.expiresAt := by
  rcases join_changes hstep call with hkept | hadvances | ⟨_, _, _, -, hacked⟩
  · exact .inl (hkept ▸ hwaiting)
  · generalize state.joins call = before at hadvances ⊢
    generalize after.joins call = join at hadvances hwaiting
    cases hadvances with
    | begin id connection orderId hsocket hopen hlive =>
        cases hwaiting
        exact .inr ⟨connection, hsocket, rfl, hlive⟩
    | view id principal orderId hallowed => exact .inl hwaiting
    | grant id principal orderId hview => exact .inl hwaiting
    | refuse join reason => cases hwaiting
    | fail join => cases hwaiting
  · rw [hacked] at hwaiting
    cases hwaiting

theorem AccessInv.step (hinv : AccessInv hash state)
    (hstep : step hash number readToken state action = some after) : AccessInv hash after := by
  obtain ⟨hauth, hclock⟩ := hinv.auth_step hstep
  have hkept : ∀ id connection, state.sockets id = .connected connection → connection.InTime →
      ∃ next, after.sockets id = .connected next ∧ next.principal = connection.principal ∧
        next.InTime := by
    intro id connection hsocket hinTime
    obtain ⟨next, hnext, hsame, -⟩ := connected_step hstep hsocket
    exact ⟨next, hnext, hsame.principal, hsame.inTime hinTime⟩
  refine ⟨hauth, ?_, ?_, ?_⟩
  · intro id principal verifiedAt checkedAt hsocket
    have hchanges := socket_changes hstep id
    rw [hsocket] at hchanges
    generalize htarget : Socket.admitted principal verifiedAt checkedAt = target at hchanges
    generalize after.emitted = emitted at hchanges
    cases hchanges with
    | keep => exact Nat.le_trans (hinv.admitted id _ _ _ htarget.symm) hclock
    | opens socket hopens =>
        subst htarget
        generalize state.sockets id = before at hopens
        cases hopens with
        | accept principal verifiedAt hallowed => exact hclock
    | close old hold => cases htarget
    | join old call principal orderId hold hjoin => cases htarget
    | push orderId status event hevent =>
        cases hold : state.sockets id with
        | admitted principal' verifiedAt' checkedAt' =>
            rw [hold] at htarget
            cases htarget
            exact Nat.le_trans (hinv.admitted id _ _ _ hold) hclock
        | _ => rw [hold] at htarget; cases htarget
  · intro id next hnext
    by_cases hold : ∃ connection, state.sockets id = .connected connection
    · obtain ⟨connection, hsocket⟩ := hold
      obtain ⟨found, hfound, hsame, hrooms⟩ := connected_step hstep hsocket
      rw [hnext] at hfound
      cases hfound
      rcases hinv.connected id connection hsocket with hinTime | ⟨hexpired, hnone⟩
      · exact .inl (hsame.inTime hinTime)
      · rcases hrooms with hrooms | ⟨call, principal, orderId, count, hjoin, -⟩
        · rw [hsame.principal, hrooms]
          exact .inr ⟨Nat.le_trans hexpired hclock, hnone⟩
        · obtain ⟨connection', hsocket', -, hinTime⟩ :=
            hinv.joins call id principal (congrArg Join.waiting hjoin)
          rw [hsocket] at hsocket'
          cases hsocket'
          exact .inl (hsame.inTime hinTime)
    · obtain ⟨principal, verifiedAt, checkedAt, hadmitted, rfl⟩ :=
        new_connected hstep hnext fun connection hsocket => hold ⟨connection, hsocket⟩
      by_cases hlive : state.clock < seconds principal.expiresAt
      · exact .inl (inTime_opened (hinv.admitted id _ _ _ hadmitted) hlive)
      · exact .inr ⟨Nat.le_trans (Nat.le_of_not_lt hlive) hclock, rfl⟩
  · intro call id principal hwaiting
    rcases waiting_step hstep hwaiting with hold | ⟨connection, hsocket, hprincipal, hlive⟩
    · obtain ⟨connection, hsocket, hprincipal, hinTime⟩ := hinv.joins call id principal hold
      obtain ⟨next, hnext, hsame, hnextInTime⟩ := hkept id connection hsocket hinTime
      exact ⟨next, hnext, hsame.trans hprincipal, hnextInTime⟩
    · have hinTime : connection.InTime := by
        rcases hinv.connected id connection hsocket with hinTime | ⟨hexpired, -⟩
        · exact hinTime
        · rw [hprincipal] at hexpired
          exact absurd hlive (Nat.not_lt.mpr hexpired)
      obtain ⟨next, hnext, hsame, hnextInTime⟩ := hkept id connection hsocket hinTime
      exact ⟨next, hnext, hsame.trans hprincipal, hnextInTime⟩

theorem accessInv_reach {ok : State Hash → Action Hash → Prop} {start : State Hash}
    (hstart : AccessInv hash start) (hreach : Reach (step hash number readToken) ok start state) :
    AccessInv hash state :=
  hreach.invariant (AccessInv hash) hstart fun _ _ _ _ hinv _ hstep => hinv.step hstep

/-! ### A join by itself -/

/-- The answer of `handleJoin`, and what it does to the socket. -/
def Settled (call : Call) (id : SocketId) (state : State Hash) :
    Except Orders.Failure JoinResult → Prop
  | .ok result => state.joins call = .acked result.ack ∧ ∃ connection,
      state.sockets id = .connected connection ∧ connection.closedAt.isSome = result.disconnected
  | .error _ => state.joins call = .threw

/-- Some steps of the call alone end it so. -/
def Settles (hash : Token → Hash) (number : Text → JsNumber) (readToken : Text → Option AccessToken)
    (call : Call) (id : SocketId) (state : State Hash)
    (result : Except Orders.Failure JoinResult) : Prop :=
  ∃ actions after, run (step hash number readToken) state actions = some after ∧
    Settled call id after result

section Alone

variable {call : Call} {id : SocketId} {connection : Connection}
  {result : Except Orders.Failure JoinResult}

theorem settles_of_step (hstep : step hash number readToken state action = some after)
    (hsettled : Settled call id after result) :
    Settles hash number readToken call id state result :=
  ⟨[action], after, by rw [run_cons, hstep, Option.bind_some, run_nil], hsettled⟩

theorem Settles.of_step (hstep : step hash number readToken state action = some after)
    (hsettles : Settles hash number readToken call id after result) :
    Settles hash number readToken call id state result := by
  obtain ⟨actions, last, hrun, hsettled⟩ := hsettles
  exact ⟨action :: actions, last, by rw [run_cons, hstep, Option.bind_some, hrun], hsettled⟩

omit [DecidableEq Hash] in
theorem State.disconnect_of_connected (hsocket : state.sockets id = .connected connection) :
    state.disconnect id =
      state.setSocket id (.connected (connection.close state.emitted.length)) := by
  rw [State.disconnect, State.modify, hsocket]

omit [DecidableEq Hash] in
theorem settled_throwOut (hsocket : state.sockets id = .connected connection) (reason : String) :
    Settled call id ((state.disconnect id).setJoin call (refusedAck reason))
      (.ok (.refused reason true)) := by
  refine ⟨Function.update_self _ _ _, connection.close state.emitted.length, ?_, rfl⟩
  rw [State.disconnect_of_connected hsocket]
  exact Function.update_self _ _ _

omit [DecidableEq Hash] in
theorem settled_refused (hsocket : state.sockets id = .connected connection)
    (hopen : connection.closedAt = none) (reason : String) :
    Settled call id (state.setJoin call (refusedAck reason)) (.ok (.refused reason false)) :=
  ⟨Function.update_self _ _ _, connection, hsocket, by rw [hopen]; rfl⟩

omit [DecidableEq Hash] in
theorem settled_threw (failure : Orders.Failure) :
    Settled call id (state.setJoin call .threw) (.error failure) :=
  Function.update_self _ _ _

variable {principal : AccessPrincipal} {orderId : JsNumber}
  (hsocket : state.sockets id = .connected connection) (hopen : connection.closedAt = none)
include hsocket hopen

theorem settles_entering (hjoin : state.joins call = .entering id principal orderId) :
    Settles hash number readToken call id state
      (.ok ⟨⟨true, some (roomName orderId), none⟩, false⟩) := by
  have hstep : step hash number readToken state (.enter call) =
      some ((state.setSocket id (.connected (connection.join (roomName orderId)
        state.emitted.length))).setJoin call (.acked ⟨true, some (roomName orderId), none⟩)) := by
    rw [step, enter, hjoin]
    dsimp only
    rw [State.modify, hsocket]
  refine settles_of_step hstep ⟨Function.update_self _ _ _, _, Function.update_self _ _ _, ?_⟩
  unfold Connection.join
  split <;> exact congrArg Option.isSome hopen

theorem settles_viewing (hjoin : state.joins call = .viewing id principal orderId) :
    Settles hash number readToken call id state
      (match canView number state.database orderId principal.userId with
      | .ok true => .ok ⟨⟨true, some (roomName orderId), none⟩, false⟩
      | .ok false => .ok (.refused "not_found" false)
      | .error failure => .error failure) := by
  have hstep : step hash number readToken state (.canView call) = viewOrder state number call := rfl
  rw [viewOrder, hjoin] at hstep
  dsimp only at hstep
  cases hview : canView number state.database orderId principal.userId with
  | ok seen =>
      rw [hview] at hstep
      cases seen with
      | true => exact .of_step hstep (settles_entering hsocket hopen (Function.update_self _ _ _))
      | false => exact settles_of_step hstep (settled_refused hsocket hopen _)
  | error failure =>
      rw [hview] at hstep
      exact settles_of_step hstep (settled_threw failure)

theorem settles_unanswered (hjoin : state.joins call = .checking id principal orderId) :
    Settles hash number readToken call id state (.ok (.refused "service_unavailable" false)) := by
  have hstep : step hash number readToken state (.joinDenylistFails call) =
      joinDenylistFails state call := rfl
  rw [joinDenylistFails, hjoin] at hstep
  exact settles_of_step hstep (settled_refused hsocket hopen _)

theorem settles_checking (hjoin : state.joins call = .checking id principal orderId) :
    Settles hash number readToken call id state
      (if state.auth.denylist.isDenied principal.jti principal.familyId state.clock then
        .ok (.refused "unauthorized" true)
      else
        match canView number state.database orderId principal.userId with
        | .ok true => .ok ⟨⟨true, some (roomName orderId), none⟩, false⟩
        | .ok false => .ok (.refused "not_found" false)
        | .error failure => .error failure) := by
  have hstep : step hash number readToken state (.joinIsDenied call) =
      joinIsDenied state call := rfl
  rw [joinIsDenied, hjoin] at hstep
  dsimp only at hstep
  by_cases hdenied :
    state.auth.denylist.isDenied principal.jti principal.familyId state.clock = true
  · rw [if_pos hdenied] at hstep ⊢
    exact settles_of_step hstep (settled_throwOut hsocket _)
  · rw [if_neg hdenied] at hstep ⊢
    exact .of_step hstep (settles_viewing hsocket hopen (Function.update_self _ _ _))

/-- A join that nothing else moves around is `handleJoin`, whether or not Redis answers. -/
theorem settles_join (hidle : state.joins call = .idle) (payload : Option Json)
    {denylist : Option Denylist}
    (hdenylist : denylist = none ∨ denylist = some state.auth.denylist) :
    Settles hash number readToken call id state
      (handleJoin number state.database denylist (some connection.principal) payload
        state.clock) := by
  have hstep : step hash number readToken state (.join call id payload) =
      join state number call id payload := rfl
  rw [join, hidle, hsocket] at hstep
  dsimp only at hstep
  rw [if_neg (not_not.mpr hopen)] at hstep
  unfold handleJoin
  dsimp only
  by_cases hexpired : seconds connection.principal.expiresAt ≤ state.clock
  · rw [if_pos hexpired] at hstep ⊢
    exact settles_of_step hstep (settled_throwOut hsocket _)
  rw [if_neg hexpired] at hstep ⊢
  cases hread : toNumber number (payload.bind fun payload => payload.get orderIdKey) with
  | none =>
      rw [hread] at hstep
      exact settles_of_step hstep (settled_threw _)
  | some orderId =>
      rw [hread] at hstep
      dsimp only at hstep ⊢
      by_cases hinteger : orderId.isInteger = true
      · rw [if_pos hinteger] at hstep ⊢
        have hsocket' :
            (state.setJoin call (.checking id connection.principal orderId)).sockets id =
            .connected connection := hsocket
        rcases hdenylist with rfl | rfl
        · exact .of_step hstep (settles_unanswered hsocket' hopen (Function.update_self _ _ _))
        · exact .of_step hstep (settles_checking hsocket' hopen (Function.update_self _ _ _))
      · rw [if_neg hinteger] at hstep ⊢
        exact settles_of_step hstep (settled_refused hsocket hopen _)

end Alone

end Marketplace.Gateway

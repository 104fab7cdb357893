import Marketplace.Orders.OrderEvents

/-!
# What an SSE client receives

A response writes what its order has emitted after `Last-Event-ID`, without a gap as long as the
buffer still has it. A client that reconnects with the id of the last event it has got sees its
order's events one after the other.
-/

namespace Marketplace.OrderEvents

open NumberedLog Transition

variable {state : State} {connection : Connection} {id : ConnectionId} {orderId : OrderId}
  {seen received : List OrderStatusEvent} {lastEventId : Int}

/-- `Last-Event-ID` is an id that had been emitted, and no more than the buffer holds came after
it. -/
structure Buffered (state : State) (connection : Connection) (lastEventId : Int) : Prop where
  emitted : lastEventId ≤ connection.openedAt
  bound : ((state.emitted.take connection.openedAt).filter fun event =>
    lastEventId < event.id).length ≤ historyLimit

/-- What an SSE response owes its client. -/
structure Delivered (state : State) (connection : Connection) (lastEventId : Int) : Prop where
  increasing : connection.received.Pairwise fun left right => left.id < right.id
  own : ∀ event ∈ connection.received,
    event ∈ state.emitted ∧ event.orderId = connection.orderId ∧
      (lastEventId ≤ connection.openedAt → lastEventId < event.id)
  complete : Buffered state connection lastEventId →
    connection.received = (connection.before state.emitted).filter fun event =>
      event.orderId = connection.orderId ∧ lastEventId < event.id

/-- A client of one order: what it has got over its connections so far. It always presents the id of
the last event that it has got, of what is written to a connection it may miss the end, and each
time the buffer still has what it is missing. -/
inductive Session (state : State) (orderId : OrderId) : List OrderStatusEvent → Prop
  | start : Session state orderId []
  | reconnect {seen received : List OrderStatusEvent} (hseen : Session state orderId seen)
      (id : ConnectionId) (connection : Connection)
      (hconnection : state.connections id = some connection)
      (horder : connection.orderId = orderId)
      (hsource : connection.source = .streamEvents (lastNumber OrderStatusEvent.id seen))
      (hbuffered : Buffered state connection (lastNumber OrderStatusEvent.id seen))
      (hreceived : received <+: connection.received) :
      Session state orderId (seen ++ received)

def ofOrder (orderId : OrderId) (events : List OrderStatusEvent) : List OrderStatusEvent :=
  events.filter fun event => event.orderId = orderId

theorem Connection.before_prefix (connection : Connection) (emitted : List OrderStatusEvent) :
    connection.before emitted <+: emitted := by
  cases hclosed : connection.closedAt with
  | some closedAt =>
      rw [Connection.before_of_closed hclosed]
      exact List.take_prefix closedAt emitted
  | none =>
      exact ⟨[], by rw [Connection.before_of_open hclosed, List.append_nil]⟩

theorem Inv.numbered_before (hinv : Inv state) (connection : Connection) :
    Numbered OrderStatusEvent.id (connection.before state.emitted) := by
  obtain ⟨rest, hrest⟩ := connection.before_prefix state.emitted
  have hall := hinv.numbered
  rw [← hrest, Numbered, List.map_append, List.length_append, ← List.range'_append_1] at hall
  exact (List.append_inj hall (by rw [List.length_map, List.length_range'])).1

/-- The events above `Last-Event-ID` begin where the replay does, unless some are lost. -/
theorem start_eq (hinv : Inv state)
    (hfollows : connection.Follows state.emitted)
    (hbuffered : Buffered state connection lastEventId) :
    (Source.streamEvents lastEventId).start connection.openedAt = lastEventId.toNat := by
  have hopened : connection.openedAt ≤ state.emitted.length :=
    hfollows.opened.trans (connection.before_prefix state.emitted).length_le
  have hnumbered := hinv.numbered_before ⟨0, .join, [], 0, some connection.openedAt⟩
  rw [Connection.before_of_closed rfl] at hnumbered
  obtain ⟨hemitted, hbound⟩ := hbuffered
  rw [hnumbered.filter_above, List.length_drop, List.length_take] at hbound
  rw [Source.start]
  omega

theorem delivered_of_inv (hinv : Inv state) (hconnection : state.connections id = some connection)
    (hsource : connection.source = .streamEvents lastEventId) :
    Delivered state connection lastEventId := by
  have hfollows := hinv.follows id connection hconnection
  have hnumbered := hinv.numbered_before connection
  have hreceived := hfollows.received
  rw [hsource] at hreceived
  have hsublist : connection.received.Sublist (connection.before state.emitted) := by
    rw [hreceived]
    exact List.filter_sublist.trans (List.drop_sublist _ _)
  refine ⟨hnumbered.pairwise.sublist hsublist, ?_, ?_⟩
  · intro event hevent
    refine ⟨(connection.before_prefix state.emitted).mem (hsublist.mem hevent), ?_, ?_⟩
    · rw [hreceived] at hevent
      exact of_decide_eq_true (List.mem_filter.mp hevent).2
    · intro hemitted
      rw [hreceived] at hevent
      have hdrop := (List.mem_filter.mp hevent).1
      -- the replay starts at `Last-Event-ID` or later
      have hlater : lastEventId.toNat ≤ (Source.streamEvents lastEventId).start
          connection.openedAt := by
        rw [Source.start]
        omega
      have habove := List.drop_subset_drop_left (connection.before state.emitted) hlater hdrop
      rw [← hnumbered.filter_above] at habove
      exact of_decide_eq_true (List.mem_filter.mp habove).2
  · intro hbuffered
    rw [hreceived, start_eq hinv hfollows hbuffered, follow, ← hnumbered.filter_above,
      List.filter_filter]
    refine List.filter_congr fun event _ => ?_
    rw [Connection.wanted, Bool.decide_and]

/-- What the client has got, followed by what it is missing, is what the order has emitted. -/
theorem filter_after_seen (hinv : Inv state) (hfirst : seen <+: ofOrder orderId state.emitted) :
    seen ++ (ofOrder orderId state.emitted).filter (fun event =>
      ((lastNumber OrderStatusEvent.id seen : Nat) : Int) < event.id) =
        ofOrder orderId state.emitted := by
  obtain ⟨rest, hrest⟩ := hfirst
  have hsorted := hinv.numbered.pairwise.sublist
    (List.filter_sublist (p := fun event => decide (event.orderId = orderId)))
  have hpos : ∀ event ∈ rest, 0 < event.id := by
    intro event hevent
    have hmem : event ∈ ofOrder orderId state.emitted := by
      rw [← hrest]
      exact List.mem_append_right _ hevent
    exact hinv.numbered.number_pos (List.mem_of_mem_filter hmem)
  rw [← hrest, filter_above_lastNumber hpos]
  rw [hrest]
  exact hsorted

theorem filter_own (horder : connection.orderId = orderId) (events : List OrderStatusEvent) :
    (events.filter fun event => event.orderId = connection.orderId ∧ lastEventId < event.id) =
      (ofOrder orderId events).filter fun event => lastEventId < event.id := by
  rw [ofOrder, List.filter_filter, horder]
  refine List.filter_congr fun event _ => ?_
  rw [Bool.decide_and, Bool.and_comm]

/-- However often the client reconnects, it has got the first events of its order. -/
theorem Session.prefix_of_inv (hinv : Inv state) (hsession : Session state orderId seen) :
    seen <+: ofOrder orderId state.emitted := by
  induction hsession with
  | start => exact List.nil_prefix
  | @reconnect seen received hseen id connection hconnection horder hsource hbuffered hgot ih =>
      have hcomplete := (delivered_of_inv hinv hconnection hsource).complete hbuffered
      rw [filter_own horder] at hcomplete
      have hbefore := ((connection.before_prefix state.emitted).filter
        fun event => decide (event.orderId = orderId)).filter
          fun event => decide (((lastNumber OrderStatusEvent.id seen : Nat) : Int) < event.id)
      rw [← filter_after_seen hinv ih, List.prefix_append_right_inj]
      rw [hcomplete] at hgot
      exact hgot.trans hbefore

/-- SSE delivery in one server process. -/
structure StreamsExact (state : State) : Prop where
  delivered : ∀ id connection lastEventId, state.connections id = some connection →
    connection.source = .streamEvents lastEventId → Delivered state connection lastEventId
  gapless : ∀ orderId seen, Session state orderId seen → seen <+: ofOrder orderId state.emitted
  /-- A client that is connected, and gets what is written, has got everything. -/
  current : ∀ orderId seen id connection, Session state orderId seen →
    state.connections id = some connection → connection.closedAt = none →
    connection.orderId = orderId →
    connection.source = .streamEvents (lastNumber OrderStatusEvent.id seen) →
    Buffered state connection (lastNumber OrderStatusEvent.id seen) →
    seen ++ connection.received = ofOrder orderId state.emitted

/-- SSE delivery has no gap and no duplicate, on one connection and over reconnections. -/
theorem streamEvents_exact {state : State} (hreach : Reachable step State.init state) :
    StreamsExact state := by
  have hinv := inv_reach hreach
  refine ⟨fun _ _ _ hconnection hsource => delivered_of_inv hinv hconnection hsource,
    fun _ _ hsession => hsession.prefix_of_inv hinv, ?_⟩
  intro orderId seen id connection hsession hconnection hopen horder hsource hbuffered
  have hcomplete := (delivered_of_inv hinv hconnection hsource).complete hbuffered
  rw [Connection.before_of_open hopen, filter_own horder] at hcomplete
  rw [hcomplete]
  exact filter_after_seen hinv (hsession.prefix_of_inv hinv)

/-- A client listens to order 7, loses the connection, and comes back with the id of its last
event. -/
def reconnectTrace : List Action :=
  [.emitStatusChanged 7 "paid", .emitStatusChanged 8 "paid", .streamEvents 0 7 0,
    .emitStatusChanged 7 "shipped", .close 0, .emitStatusChanged 7 "delivered",
    .emitStatusChanged 8 "shipped", .streamEvents 1 7 3, .emitStatusChanged 7 "returned"]

theorem streamEvents_exact_reconnect : ∃ state, Reachable step State.init state ∧
    ((state.connections 0).map fun connection => connection.received.map OrderStatusEvent.id) =
      some [1, 3] ∧
    ((state.connections 1).map fun connection => connection.received.map OrderStatusEvent.id) =
      some [4, 6] ∧ StreamsExact state := by
  obtain ⟨state, hreach, hcheck⟩ : ∃ state, Reachable step State.init state ∧
      decide (((state.connections 0).map fun connection =>
          connection.received.map OrderStatusEvent.id) = some [1, 3] ∧
        ((state.connections 1).map fun connection =>
          connection.received.map OrderStatusEvent.id) = some [4, 6]) = true :=
    exists_reach_of_runWithin reconnectTrace (by decide +kernel)
  obtain ⟨hfirst, hsecond⟩ := of_decide_eq_true hcheck
  exact ⟨state, hreach, hfirst, hsecond, streamEvents_exact hreach⟩

end Marketplace.OrderEvents

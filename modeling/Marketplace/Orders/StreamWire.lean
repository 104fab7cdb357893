import Marketplace.Lib.EventStream
import Marketplace.Lib.Json
import Marketplace.Lib.Utf8
import Marketplace.Orders.StreamEvents

/-!
# SSE, on the wire

`streamEvents` writes text into a response, and of its bytes an `EventSource` at the other end gets
as many as the connection lives for. It opens the next stream with the `id:` of the last message
that was whole.
-/

namespace Marketplace.OrderEvents

open EventStream NumberedLog Transition

/-- `id: ${event.id}`. -/
def idText (event : OrderStatusEvent) : Text := Nat.toDigits 10 event.id

/-- `{ id: event.orderId, status: event.status }`. -/
def dataOf (event : OrderStatusEvent) : Json :=
  .object [(['i', 'd'], .number (.ofNat event.orderId)),
    (['s', 't', 'a', 't', 'u', 's'], .string event.status.toList)]

def typeOrderStatus : Text := ['o', 'r', 'd', 'e', 'r', '.', 's', 't', 'a', 't', 'u', 's']

def writeEvent (event : OrderStatusEvent) : Text :=
  ['i', 'd', ':', ' '] ++ idText event ++ ['\n', 'e', 'v', 'e', 'n', 't', ':', ' '] ++
  typeOrderStatus ++
    ['\n', 'd', 'a', 't', 'a', ':', ' '] ++ Json.stringify (dataOf event) ++ ['\n', '\n']

def lineRetry : Text := ['r', 'e', 't', 'r', 'y', ':', ' ', '1', '0', '0', '0']

/-- The body of a response that has written these events. -/
def body (events : List OrderStatusEvent) : Text :=
  lineRetry ++ ['\n', '\n'] ++ events.flatMap writeEvent

/-- A client that has no id yet sends no `Last-Event-ID`. -/
def header (client : Client) : Option Text :=
  if client.lastEventId = [] then none else some client.lastEventId

/-- `Number(lastEventIdHeader ?? 0)`, for a header of decimal digits. -/
def numberOf : Option Text → Option Nat
  | none => some 0
  | some text => if JsonNumber.isDigits text then some (Nat.ofDigitChars 10 text 0) else none

/-- A client of one order, on the wire: of the response to each of its requests it gets some of the
bytes. -/
inductive WireSession (state : State) (orderId : OrderId) : Client → Prop
  | start : WireSession state orderId ⟨[], []⟩
  | reconnect {client : Client} (hclient : WireSession state orderId client) (id : ConnectionId)
      (connection : Connection) (lastEventId : Nat) (received : List Base64.Byte)
      (hconnection : state.connections id = some connection)
      (horder : connection.orderId = orderId)
      (hheader : numberOf (header client) = some lastEventId)
      (hsource : connection.source = .streamEvents lastEventId)
      (hbuffered : Buffered state connection lastEventId)
      (hreceived : received <+: Utf8.encode (body connection.received)) :
      WireSession state orderId ((Reader.ofClient client).read (Utf8.decode received)).client

/-! ### One response -/

def messageOf (event : OrderStatusEvent) : Message :=
  ⟨typeOrderStatus, Json.stringify (dataOf event), idText event⟩

def receive (client : Client) (event : OrderStatusEvent) : Client :=
  ⟨idText event, client.messages ++ [messageOf event]⟩

def blockOf (event : OrderStatusEvent) : Block :=
  [['i', 'd', ':', ' '] ++ idText event, ['e', 'v', 'e', 'n', 't', ':', ' '] ++ typeOrderStatus,
    ['d', 'a', 't', 'a', ':', ' '] ++ Json.stringify (dataOf event)]

theorem body_eq (events : List OrderStatusEvent) :
    body events = writeBlocks ([lineRetry] :: events.map blockOf) := by
  have hevent : writeEvent = fun event => (blockOf event).flatMap (· ++ ['\n']) ++ ['\n'] := by
    funext event
    simp [writeEvent, blockOf]
  simp only [body, writeBlocks, linesOf, writeLines, List.flatMap_cons, List.flatMap_append,
    List.flatMap_assoc, List.flatMap_map]
  simp [hevent]

theorem clean_of_printable {text : Text} (htext : Json.Printable text) : Clean text := by
  intro char hchar
  have hcode := htext char hchar
  constructor
  · rintro rfl
    exact absurd hcode (by decide)
  · rintro rfl
    exact absurd hcode (by decide)

theorem printable_idText (event : OrderStatusEvent) : Json.Printable (idText event) := by
  intro char hchar
  exact Json.le_code_of_isDigit (JsonNumber.isDigit_of_mem_toDigits hchar)

theorem wellFormed_blockOf (event : OrderStatusEvent) : (blockOf event).WellFormed := by
  have hid := printable_idText event
  have hdata := Json.printable_stringify (dataOf event)
  have htype : Json.Printable typeOrderStatus := by
    simp [typeOrderStatus, Json.printable_cons, Json.printable_nil]
  intro line hline
  simp only [blockOf, List.mem_cons, List.not_mem_nil, or_false] at hline
  rcases hline with rfl | rfl | rfl
  · refine ⟨by simp, clean_of_printable ?_⟩
    simpa [Json.printable_cons] using hid
  · refine ⟨by simp, clean_of_printable ?_⟩
    simpa [Json.printable_cons] using htype
  · refine ⟨by simp, clean_of_printable ?_⟩
    simpa [Json.printable_cons] using hdata

theorem readBlock_lineRetry (client : Client) :
    (Reader.ofClient client).readBlock [lineRetry] = Reader.ofClient client := by
  have hline : lineRetry = ['r', 'e', 't', 'r', 'y'] ++ ':' :: ' ' :: ['1', '0', '0', '0'] := rfl
  rw [Reader.readBlock, List.foldl_cons, List.foldl_nil, hline, Reader.readLine_field (by decide)]
  rfl

theorem readBlock_blockOf (client : Client) (event : OrderStatusEvent) :
    (Reader.ofClient client).readBlock (blockOf event) =
    Reader.ofClient (receive client event) := by
  have hzero : Char.ofNat 0 ∉ idText event := fun hmem =>
    absurd (printable_idText event _ hmem) (by decide)
  have hid : ∀ reader : Reader, reader.readLine (Reader.fieldId ++ ':' :: ' ' :: idText event) =
      reader.field Reader.fieldId (idText event) := fun _ => Reader.readLine_field (by decide)
  have htype : ∀ reader : Reader,
      reader.readLine (Reader.fieldEvent ++ ':' :: ' ' :: typeOrderStatus) =
      reader.field Reader.fieldEvent typeOrderStatus := fun _ => Reader.readLine_field (by decide)
  have hdata : ∀ reader : Reader,
      reader.readLine (Reader.fieldData ++ ':' :: ' ' :: Json.stringify (dataOf event)) =
        reader.field Reader.fieldData (Json.stringify (dataOf event)) :=
    fun _ => Reader.readLine_field (by decide)
  change ((((Reader.ofClient client).readLine (Reader.fieldId ++ ':' :: ' ' ::
    idText event)).readLine
    (Reader.fieldEvent ++ ':' :: ' ' :: typeOrderStatus)).readLine
      (Reader.fieldData ++ ':' :: ' ' :: Json.stringify (dataOf event))).dispatch = _
  rw [hid, htype, hdata]
  simp [Reader.field, Reader.fieldId, Reader.fieldEvent, Reader.fieldData, hzero, Reader.ofClient,
    Reader.dispatch, Reader.message, receive, messageOf, typeOrderStatus]

theorem foldl_readBlock (client : Client) (events : List OrderStatusEvent) :
    (events.map blockOf).foldl Reader.readBlock (Reader.ofClient client) =
      Reader.ofClient (events.foldl receive client) := by
  induction events generalizing client with
  | nil => rfl
  | cons event rest ih =>
      rw [List.map_cons, List.foldl_cons, readBlock_blockOf, ih, List.foldl_cons]

theorem wellFormed_blocks (events : List OrderStatusEvent) :
    ∀ block ∈ [lineRetry] :: events.map blockOf, Block.WellFormed block := by
  intro block hblock
  rcases List.mem_cons.mp hblock with rfl | hmem
  · intro line hline
    rw [List.mem_singleton.mp hline]
    refine ⟨List.cons_ne_nil _ _, clean_of_printable ?_⟩
    simp [lineRetry, Json.printable_cons, Json.printable_nil]
  · obtain ⟨event, -, rfl⟩ := List.mem_map.mp hmem
    exact wellFormed_blockOf event

/-- Of a response that is cut off anywhere, the client has the first events, each of them whole. -/
theorem read_received (client : Client) {events : List OrderStatusEvent}
    {received : List Base64.Byte} (hreceived : received <+: Utf8.encode (body events)) :
    ∃ count, ((Reader.ofClient client).read (Utf8.decode received)).client =
      (events.take count).foldl receive client := by
  obtain ⟨whole, junk, hwhole, hdecode, hjunk⟩ := Utf8.decode_prefix hreceived
  have hclean : Clean junk := by
    intro char hchar
    rw [hjunk char hchar]
    decide
  rw [body_eq] at hwhole
  obtain ⟨count, hcount⟩ :=
    Reader.client_cut (Reader.fresh_ofClient client) (wellFormed_blocks events) hwhole hclean
  rw [hdecode, hcount]
  cases count with
  | zero => exact ⟨0, rfl⟩
  | succ count =>
      refine ⟨count, ?_⟩
      rw [List.take_succ_cons, List.foldl_cons, readBlock_lineRetry, ← List.map_take,
        foldl_readBlock]
      rfl

theorem read_body (client : Client) (events : List OrderStatusEvent) :
    ((Reader.ofClient client).read (Utf8.decode (Utf8.encode (body events)))).client =
      events.foldl receive client := by
  rw [Utf8.decode_encode, body_eq,
    Reader.read_writeBlocks (Reader.fresh_ofClient client) (wellFormed_blocks events),
      List.foldl_cons,
    readBlock_lineRetry, foldl_readBlock]
  rfl

/-! ### Reconnections -/

/-- A client that has got these events. -/
def clientOf (seen : List OrderStatusEvent) : Client := seen.foldl receive ⟨[], []⟩

theorem clientOf_append (seen received : List OrderStatusEvent) :
    clientOf (seen ++ received) = received.foldl receive (clientOf seen) :=
  List.foldl_append

theorem messages_clientOf (seen : List OrderStatusEvent) :
    (clientOf seen).messages = seen.map messageOf := by
  induction seen using List.reverseRecOn with
  | nil => rfl
  | append_singleton front last ih =>
      rw [clientOf_append, List.map_append, ← ih]
      rfl

theorem numberOf_idText (event : OrderStatusEvent) :
    numberOf (some (idText event)) = some event.id := by
  have hdigits : JsonNumber.isDigits (idText event) = true := by
    simp only [JsonNumber.isDigits, Bool.and_eq_true, List.all_eq_true]
    exact ⟨by simp [idText], fun char hchar => JsonNumber.isDigit_of_mem_toDigits hchar⟩
  rw [numberOf, if_pos hdigits, idText, Nat.ofDigitChars_ten_toDigits]

/-- The header is the id of the last event, and the server reads it as it wrote it. -/
theorem numberOf_header (seen : List OrderStatusEvent) :
    numberOf (header (clientOf seen)) = some (lastNumber OrderStatusEvent.id seen) := by
  induction seen using List.reverseRecOn with
  | nil => rfl
  | append_singleton front last _ =>
      have hid : (clientOf (front ++ [last])).lastEventId = idText last := by
        rw [clientOf_append]
        rfl
      have hnonempty : idText last ≠ [] := by simp [idText]
      rw [header, hid, if_neg hnonempty, numberOf_idText, lastNumber, List.getLast?_concat]
      rfl

/-- Byte by byte, a client is one of those that present the id of their last event. -/
theorem WireSession.session {state : State} {orderId : OrderId} {client : Client}
    (hclient : WireSession state orderId client) :
    ∃ seen, Session state orderId seen ∧ client = clientOf seen := by
  induction hclient with
  | start => exact ⟨[], .start, rfl⟩
  | reconnect _ id connection lastEventId received hconnection horder hheader hsource hbuffered
      hreceived ih =>
      obtain ⟨seen, hsession, rfl⟩ := ih
      obtain rfl := Option.some.inj (hheader.symm.trans (numberOf_header seen))
      obtain ⟨count, hread⟩ := read_received (clientOf seen) hreceived
      refine ⟨seen ++ connection.received.take count, ?_, ?_⟩
      · exact hsession.reconnect id connection hconnection horder hsource hbuffered
          (List.take_prefix count connection.received)
      · rw [clientOf_append, hread]

/-- What a listener makes of a message. -/
def contents (message : Message) : Text × Option Json × Option Nat :=
  (message.eventType, Json.parse message.data, numberOf (some message.lastEventId))

def expected (event : OrderStatusEvent) : Text × Option Json × Option Nat :=
  (typeOrderStatus, some (dataOf event), some event.id)

theorem contents_messageOf (event : OrderStatusEvent) :
    contents (messageOf event) = expected event := by
  rw [contents, messageOf, Json.parse_stringify, numberOf_idText]
  rfl

theorem contents_clientOf (seen : List OrderStatusEvent) :
    (clientOf seen).messages.map contents = seen.map expected := by
  rw [messages_clientOf, List.map_map]
  exact List.map_congr_left fun event _ => contents_messageOf event

/-- Wherever its connections break, and however often, what an `EventSource` has read from the bytes
of the responses are the first events of its order, each once and in order; where the last response
has come through, they are all of them. -/
theorem wire_exact {state : State} (hreach : Reachable step State.init state) {orderId : OrderId}
    {client : Client} (hclient : WireSession state orderId client) :
    (∃ seen, seen <+: ofOrder orderId state.emitted ∧
      client.messages.map contents = seen.map expected) ∧
    ∀ id connection lastEventId, state.connections id = some connection →
      connection.closedAt = none →
      connection.orderId = orderId → numberOf (header client) = some lastEventId →
      connection.source = .streamEvents lastEventId → Buffered state connection lastEventId →
      ((Reader.ofClient client).read
        (Utf8.decode (Utf8.encode (body connection.received)))).client.messages.map contents =
          (ofOrder orderId state.emitted).map expected := by
  obtain ⟨seen, hsession, rfl⟩ := hclient.session
  have hinv := inv_reach hreach
  have hseen := hsession.prefix_of_inv hinv
  refine ⟨⟨seen, hseen, contents_clientOf seen⟩, ?_⟩
  intro id connection lastEventId hconnection hopen horder hheader hsource hbuffered
  obtain rfl := Option.some.inj (hheader.symm.trans (numberOf_header seen))
  have hcomplete := (delivered_of_inv hinv hconnection hsource).complete hbuffered
  rw [Connection.before_of_open hopen, filter_own horder] at hcomplete
  rw [read_body, ← clientOf_append, contents_clientOf, hcomplete, filter_after_seen hinv hseen]

def paid : OrderStatusEvent := ⟨1, 7, "paid"⟩

def shipped : OrderStatusEvent := ⟨3, 7, "shipped"⟩

def delivered : OrderStatusEvent := ⟨4, 7, "delivered"⟩

/-- The first response breaks in the middle of its second event. -/
def brokenTrace : List Action :=
  [.emitStatusChanged 7 "paid", .emitStatusChanged 8 "paid", .streamEvents 0 7 0,
    .emitStatusChanged 7 "shipped", .close 0, .emitStatusChanged 7 "delivered", .streamEvents 1 7 1]

theorem wire_exact_broken : ∃ state client, Reachable step State.init state ∧
    WireSession state 7 client ∧
    client = clientOf [paid] ∧
    ((Reader.ofClient client).read
      (Utf8.decode (Utf8.encode (body [shipped, delivered])))).client.messages.map contents =
        [paid, shipped, delivered].map expected := by
  obtain ⟨state, hreach, hcheck⟩ : ∃ state, Reachable step State.init state ∧
      decide (state.connections 0 = some ⟨7, .streamEvents 0, [paid, shipped], 2, some 3⟩ ∧
        state.connections 1 = some ⟨7, .streamEvents 1, [shipped, delivered], 4, none⟩ ∧
        state.emitted = [paid, ⟨2, 8, "paid"⟩, shipped, delivered]) = true :=
    exists_reach_of_runWithin brokenTrace (by decide +kernel)
  obtain ⟨hfirst, hsecond, hemitted⟩ := of_decide_eq_true hcheck
  have hbuffered : ∀ connection lastEventId, connection.openedAt ≤ 4 →
      lastEventId ≤ connection.openedAt →
      Buffered state connection lastEventId := by
    intro connection lastEventId hopened hid
    refine ⟨hid, (List.length_filter_le _ _).trans ?_⟩
    rw [List.length_take]
    exact (Nat.min_le_left _ _).trans (hopened.trans (by decide))
  have hclient := WireSession.start.reconnect 0 _ 0 ((Utf8.encode (body [paid, shipped])).take 120)
    hfirst rfl rfl rfl (hbuffered _ _ (by decide) (by decide)) (List.take_prefix _ _)
  have hread : ((Reader.ofClient ⟨[], []⟩).read
      (Utf8.decode ((Utf8.encode (body [paid, shipped])).take 120))).client = clientOf [paid] := by
    decide +kernel
  rw [hread] at hclient
  refine ⟨state, clientOf [paid], hreach, hclient, rfl, ?_⟩
  have hcurrent := (wire_exact hreach hclient).2 1 _ 1 hsecond rfl rfl (by decide +kernel) rfl
    (hbuffered _ _ (by decide) (by decide))
  rw [hcurrent, hemitted]
  rfl

end Marketplace.OrderEvents

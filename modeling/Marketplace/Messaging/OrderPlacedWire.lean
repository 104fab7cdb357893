import Marketplace.Cards.ProductCardService
import Marketplace.Lib.JsText
import Marketplace.Lib.JsonMembers
import Marketplace.Messaging.HandleMessage
import Marketplace.Shop.ProductCards
import Mathlib.Data.List.Sort

/-!
# An event on its way to the consumer

The event of an order as JSON, the `jsonb` column of the outbox, the message that `EventPublisher`
makes of what `relayOnce` reads there, and the consumer that reads it. The column is a parameter: it
keeps the value and chooses the order of the members.
-/

namespace Marketplace.Events

open Base64 (Byte)
open Cards (ofInt)
open Checkout (JsNumber Sale)
open HandleMessage (ConsumeMessage OrderPlaced asInteger dataKey eventIdKey orderIdKey
  parseOrderPlaced typeKey)
open JsText (toISOString)
open Orders (Cart CreateOrderDto OrderItemDto)
open Placing (Source amountOf)
open Shop (Store)

/-! ### From the order to the bytes -/

def occurredAtKey : Text := ['o', 'c', 'c', 'u', 'r', 'r', 'e', 'd', 'A', 't']

def customerEmailKey : Text := ['c', 'u', 's', 't', 'o', 'm', 'e', 'r', 'E', 'm', 'a', 'i', 'l']

def totalCentsKey : Text := ['t', 'o', 't', 'a', 'l', 'C', 'e', 'n', 't', 's']

def currencyKey : Text := ['c', 'u', 'r', 'r', 'e', 'n', 'c', 'y']

def itemsKey : Text := ['i', 't', 'e', 'm', 's']

def productIdKey : Text := ['p', 'r', 'o', 'd', 'u', 'c', 't', 'I', 'd']

def quantityKey : Text := ['q', 'u', 'a', 'n', 't', 'i', 't', 'y']

def itemJson (item : EventItem) : Json :=
  .object [(productIdKey, ofInt item.productId), (quantityKey, ofInt item.quantity)]

def dataJson (data : OrderPlacedData) : Json :=
  .object [
    (orderIdKey, ofInt data.orderId),
    (customerEmailKey, .string data.customerEmail.toList),
    (totalCentsKey, ofInt data.totalCents),
    (currencyKey, .string data.currency.toList),
    (itemsKey, .array (data.items.map itemJson))]

def eventJson (event : OrderPlacedEvent) : Json :=
  .object [
    (eventIdKey, .string event.eventId),
    (typeKey, .string event.type.toList),
    (occurredAtKey, .string (toISOString event.occurredAt)),
    (dataKey, dataJson event.data)]

/-- `Buffer.from(JSON.stringify(event))`. -/
def publishContent (payload : Json) : List Byte := Utf8.encode (Json.stringify payload)

/-- The numbers that an `integer` column can hold. -/
def IsInt4 (literal : JsonNumber) : Prop :=
  ∃ value, fitsInt4 value = true ∧ literal.val = decimal value

/-- `$4::jsonb` and the `payload` that a SELECT reads later, `none` if the INSERT fails. Nothing is
said of repeated keys and of numbers that no column holds. -/
def KeepsValues (jsonb : Text → Option Json) : Prop :=
  ∀ json stored, json.Plain IsInt4 → jsonb (Json.stringify json) = some stored → stored.Same json

/-- The data of the orders that `insertOrderWithEvent` and `checkout` accept. -/
inductive Accepted (Digest : Type) (number : Text → JsNumber) : OrderPlacedData → Prop
  | created (store after : Store Digest) (dto : CreateOrderDto) (userId : Option UserId)
      (occurredAt now : Nat) (source : Source)
      (haccepted : Shop.insertOrderWithEvent number store dto userId occurredAt now =
        .ok (source, after)) :
      Accepted Digest number (source.eventData store.nextOrderId)
  | checkedOut (store : Store Digest) (userId : UserId) (productId : ProductId)
      (quantity : JsNumber) (sale : Sale) (customerEmail : String)
      (haccepted : Shop.checkSale store userId productId quantity = .ok (sale, customerEmail)) :
      Accepted Digest number ((Source.sold sale customerEmail).eventData store.nextOrderId)

/-! ### What the consumer reads -/

def readItem (number : Text → JsNumber) (item : Json) : Option EventItem := do
  let productId ← (item.get productIdKey).bind (asInteger number)
  let quantity ← (item.get quantityKey).bind (asInteger number)
  return ⟨productId, quantity⟩

/-- Each field of the event, read from the body of a message. -/
structure Carries (number : Text → JsNumber) (body : Json) (event : OrderPlacedEvent) : Prop where
  eventId : (body.get eventIdKey).bind Json.asString = some event.eventId
  type : (body.get typeKey).bind Json.asString = some event.type.toList
  orderId : ((body.get dataKey).bind (Json.get orderIdKey)).bind (asInteger number) =
    some (event.data.orderId : Int)
  customerEmail : ((body.get dataKey).bind (Json.get customerEmailKey)).bind Json.asString =
    some event.data.customerEmail.toList
  totalCents : ((body.get dataKey).bind (Json.get totalCentsKey)).bind (asInteger number) =
    some event.data.totalCents
  currency : ((body.get dataKey).bind (Json.get currencyKey)).bind Json.asString =
    some event.data.currency.toList
  items : ∃ items, (body.get dataKey).bind (Json.get itemsKey) = some (.array items) ∧
    items.map (readItem number) = event.data.items.map some

structure WireSafe (Digest : Type) (number : Text → JsNumber) (jsonb : Text → Option Json) :
    Prop where
  /-- Whatever has been stored is published as a message that the consumer reads. -/
  readable : ∀ data occurredAt now stored message, Accepted Digest number data →
    jsonb (Json.stringify (eventJson (enqueueOrderPlaced data occurredAt now).payload)) =
      some stored →
    message.content = publishContent stored →
    ∃ event, parseOrderPlaced number message = some event ∧
      event.eventId = orderPlacedEventId data.orderId ∧ event.orderId = data.orderId ∧
      Carries number event.body (buildOrderPlacedEvent data occurredAt)
  /-- The bodies that are accepted have a string and an integer for the effect; every other content
  is `null`. -/
  accepted_iff : ∀ message event, parseOrderPlaced number message = some event ↔
    Json.parse (Utf8.decode message.content) = some event.body ∧
    event.body.get eventIdKey = some (.string event.eventId) ∧
    event.body.get typeKey = some (.string routingKeyOrderPlaced.toList) ∧
    ∃ data literal, event.body.get dataKey = some data ∧
      data.get orderIdKey = some (.number literal) ∧ number literal.val = .integer event.orderId

/-! ### The columns of the order -/

variable {Digest : Type} {number : Text → JsNumber} {jsonb : Text → Option Json}
  {data : OrderPlacedData} {event : OrderPlacedEvent} {stored : Json}

/-- Every number is the value of an `integer` column. -/
structure Fits (data : OrderPlacedData) : Prop where
  orderId : fitsInt4 data.orderId = true
  totalCents : fitsInt4 data.totalCents = true
  items : ∀ item ∈ data.items, fitsInt4 item.productId = true ∧ fitsInt4 item.quantity = true

theorem fitsInt4_serial {id : Nat} (hserial : id ≤ 2147483647) : fitsInt4 id = true := by
  simp only [fitsInt4, Bool.and_eq_true, decide_eq_true_eq]
  omega

theorem fitsInt4_of_priceItem {store : Store Digest} {cart next : Cart} {item : OrderItemDto}
    (hcart : ∀ row ∈ cart.items, fitsInt4 row.productId = true)
    (hturn : Shop.priceItem number store.catalogue cart item = .ok next) :
    ∀ row ∈ next.items, fitsInt4 row.productId = true := by
  unfold Shop.priceItem at hturn
  split at hturn
  · cases hturn
  split at hturn
  · cases hturn
  rename_i id hid
  split at hturn
  · cases hturn
  rename_i product hproduct
  cases hturn
  have hsame : (product.id : Int) = id := by simpa using List.find?_some hproduct
  rw [Cart.add, List.forall_mem_append]
  refine ⟨hcart, ?_⟩
  intro row hrow
  rw [List.mem_singleton.mp hrow, hsame]
  exact (Checkout.JsNumber.toInt4_eq_some.mp hid).2

theorem fitsInt4_of_priceItems {store : Store Digest} {cart next : Cart} {rest : List OrderItemDto}
    (hcart : ∀ row ∈ cart.items, fitsInt4 row.productId = true)
    (hloop : Shop.priceItems number store.catalogue cart rest = .ok next) :
    ∀ row ∈ next.items, fitsInt4 row.productId = true := by
  induction rest generalizing cart with
  | nil =>
      cases hloop
      exact hcart
  | cons item rest ih =>
      rw [Shop.priceItems] at hloop
      split at hloop
      · rename_i turned hturn
        exact ih (fitsInt4_of_priceItem hcart hturn) hloop
      · cases hloop

theorem Accepted.fits (haccepted : Accepted Digest number data) : Fits data := by
  cases haccepted with
  | created store after dto userId occurredAt now source haccepted =>
      unfold Shop.insertOrderWithEvent at haccepted
      split at haccepted
      · cases haccepted
      rename_i cart hloop
      split at haccepted
      · rename_i hchecks
        cases haccepted
        simp only [Cart.fits, Bool.and_eq_true, decide_eq_true_eq, List.all_eq_true] at hchecks
        obtain ⟨⟨⟨htotal, hrows⟩, -⟩, hserial⟩ := hchecks
        have hproducts := fitsInt4_of_priceItems (by simp [Cart.empty]) hloop
        refine ⟨fitsInt4_serial hserial, htotal, ?_⟩
        intro item hitem
        obtain ⟨row, hrow, rfl⟩ := List.mem_map.mp hitem
        exact ⟨hproducts row hrow, (hrows row hrow).1⟩
      · cases haccepted
  | checkedOut store userId productId quantity sale customerEmail haccepted =>
      obtain ⟨rfl, -, ⟨hquantity, hid, htotal⟩, hserial⟩ := Shop.checkSale_spec haccepted
      refine ⟨fitsInt4_serial hserial, htotal, ?_⟩
      intro item hitem
      rw [List.mem_singleton.mp hitem]
      exact ⟨hid, hquantity⟩

/-! ### Back to the event -/

theorem plain_ofInt {value : Int} (hfits : fitsInt4 value = true) : (ofInt value).Plain IsInt4 := by
  rw [ofInt, Json.Plain]
  exact ⟨value, hfits, rfl⟩

theorem plain_items {items : List EventItem}
    (hitems : ∀ item ∈ items, fitsInt4 item.productId = true ∧ fitsInt4 item.quantity = true) :
    Json.PlainItems IsInt4 (items.map itemJson) := by
  induction items with
  | nil => simp [Json.PlainItems]
  | cons item rest ih =>
      obtain ⟨hitem, hrest⟩ := List.forall_mem_cons.mp hitems
      have hkeys : [productIdKey, quantityKey].Nodup := by decide
      rw [List.map_cons, Json.PlainItems, itemJson, Json.Plain]
      refine ⟨⟨hkeys, ?_⟩, ih hrest⟩
      simp [Json.PlainMembers, plain_ofInt hitem.1, plain_ofInt hitem.2]

theorem plain_eventJson (hfits : Fits event.data) : (eventJson event).Plain IsInt4 := by
  have hdata : (dataJson event.data).Plain IsInt4 := by
    have hkeys : [orderIdKey, customerEmailKey, totalCentsKey, currencyKey, itemsKey].Nodup := by
      decide
    rw [dataJson, Json.Plain]
    refine ⟨hkeys, ?_⟩
    simp [Json.PlainMembers, Json.Plain, plain_ofInt hfits.orderId, plain_ofInt hfits.totalCents,
      plain_items hfits.items]
  have hkeys : [eventIdKey, typeKey, occurredAtKey, dataKey].Nodup := by decide
  rw [eventJson, Json.Plain]
  refine ⟨hkeys, ?_⟩
  simp [Json.PlainMembers, Json.Plain, hdata]

theorem asInteger_ofInt (hreads : ReadsDecimals number) {value : Int}
    (hfits : fitsInt4 value = true) :
    asInteger number (ofInt value) = some value := by
  rw [ofInt, asInteger, hreads value hfits]

theorem same_ofInt {left : Json} {value : Int} : left.Same (ofInt value) ↔ left = ofInt value := by
  rw [ofInt, Json.Same]

theorem same_string {left : Json} {text : Text} : left.Same (.string text) ↔
    left = .string text := by
  rw [Json.Same]

theorem readItem_of_same (hreads : ReadsDecimals number) {item : EventItem} {left : Json}
    (hfits : fitsInt4 item.productId = true ∧ fitsInt4 item.quantity = true)
    (hsame : left.Same (itemJson item)) : readItem number left = some item := by
  rw [itemJson, Json.Same] at hsame
  simp only [Json.SameMembers, same_ofInt, exists_eq_right, and_true] at hsame
  obtain ⟨-, hproductId, hquantity⟩ := hsame
  simp [readItem, hproductId, hquantity, asInteger_ofInt hreads hfits.1,
    asInteger_ofInt hreads hfits.2]

theorem readItems_of_same (hreads : ReadsDecimals number) {items : List EventItem}
    {left : List Json}
    (hfits : ∀ item ∈ items, fitsInt4 item.productId = true ∧ fitsInt4 item.quantity = true)
    (hsame : Json.SameItems left (items.map itemJson)) :
    left.map (readItem number) = items.map some := by
  induction items generalizing left with
  | nil =>
      rw [List.map_nil, Json.SameItems] at hsame
      rw [hsame, List.map_nil, List.map_nil]
  | cons item rest ih =>
      obtain ⟨hitem, hrest⟩ := List.forall_mem_cons.mp hfits
      rw [List.map_cons, Json.SameItems] at hsame
      obtain ⟨first, others, rfl, hfirst, hothers⟩ := hsame
      rw [List.map_cons, List.map_cons, readItem_of_same hreads hitem hfirst, ih hrest hothers]

theorem carries_of_same (hreads : ReadsDecimals number) (hfits : Fits event.data)
    (hsame : stored.Same (eventJson event)) : Carries number stored event := by
  rw [eventJson, Json.Same] at hsame
  simp only [Json.SameMembers, same_string, exists_eq_right, and_true] at hsame
  obtain ⟨-, heventId, htype, -, data, hdata, hsameData⟩ := hsame
  rw [dataJson, Json.Same] at hsameData
  simp only [Json.SameMembers, same_ofInt, same_string, exists_eq_right, and_true] at hsameData
  obtain ⟨-, horderId, hemail, htotal, hcurrency, items, hitems, hsameItems⟩ := hsameData
  rw [Json.Same] at hsameItems
  obtain ⟨rows, rfl, hsameRows⟩ := hsameItems
  constructor
  · simp [heventId, Json.asString]
  · simp [htype, Json.asString]
  · simp [hdata, horderId, asInteger_ofInt hreads hfits.orderId]
  · simp [hdata, hemail, Json.asString]
  · simp [hdata, htotal, asInteger_ofInt hreads hfits.totalCents]
  · simp [hdata, hcurrency, Json.asString]
  · exact ⟨rows, by simp [hdata, hitems], readItems_of_same hreads hfits.items hsameRows⟩

/-! ### The consumer -/

theorem asInteger_eq_some {json : Json} {value : Int} :
    asInteger number json = some value ↔
      ∃ literal, json = .number literal ∧ number literal.val = .integer value := by
  cases json with
  | number literal =>
      rw [asInteger]
      cases hnumber : number literal.val with
      | integer found => simp [hnumber]
      | other text => simp [hnumber]
  | null | bool _ | string _ | array _ | object _ => simp [asInteger]

theorem asString_eq_some {json : Json} {text : Text} :
    json.asString = some text ↔ json = .string text := by
  cases json <;> simp [Json.asString]

theorem parseOrderPlaced_eq_some {message : ConsumeMessage} {placed : OrderPlaced} :
    parseOrderPlaced number message = some placed ↔
      Json.parse (Utf8.decode message.content) = some placed.body ∧
      (placed.body.get eventIdKey).bind Json.asString = some placed.eventId ∧
      (placed.body.get typeKey).bind Json.asString = some routingKeyOrderPlaced.toList ∧
      ((placed.body.get dataKey).bind (Json.get orderIdKey)).bind (asInteger number) =
        some placed.orderId := by
  obtain ⟨eventId, orderId, body⟩ := placed
  unfold parseOrderPlaced
  constructor
  · intro hplaced
    obtain ⟨found, hparse, hrest⟩ := Option.bind_eq_some_iff.mp hplaced
    obtain ⟨id, hid, hrest⟩ := Option.bind_eq_some_iff.mp hrest
    split at hrest
    · rename_i htype
      obtain ⟨order, horder, heq⟩ := Option.bind_eq_some_iff.mp hrest
      cases heq
      exact ⟨hparse, hid, htype, horder⟩
    · cases hrest
  · rintro ⟨hparse, hid, htype, horder⟩
    refine Option.bind_eq_some_iff.mpr ⟨body, hparse,
      Option.bind_eq_some_iff.mpr ⟨eventId, hid, ?_⟩⟩
    rw [if_pos htype]
    exact Option.bind_eq_some_iff.mpr ⟨orderId, horder, rfl⟩

theorem parse_publishContent (payload : Json) :
    Json.parse (Utf8.decode (publishContent payload)) = some payload := by
  rw [publishContent, Utf8.decode_encode, Json.parse_stringify]

/-- Whatever is carried by a message is what the consumer makes of it. -/
theorem Carries.parseOrderPlaced (hcarries : Carries number stored event)
    (htype : event.type = routingKeyOrderPlaced) {message : ConsumeMessage}
    (hcontent : message.content = publishContent stored) :
    HandleMessage.parseOrderPlaced number message =
      some ⟨event.eventId, event.data.orderId, stored⟩ := by
  rw [parseOrderPlaced_eq_some, hcontent]
  exact ⟨parse_publishContent stored, hcarries.eventId, htype ▸ hcarries.type, hcarries.orderId⟩

/-- The consumer reads every event that the program writes, and reads it unchanged. -/
theorem orderPlaced_readable (Digest : Type) {number : Text → JsNumber} {jsonb : Text → Option Json}
    (hreads : ReadsDecimals number) (hjsonb : KeepsValues jsonb) :
    WireSafe Digest number jsonb := by
  constructor
  · intro data occurredAt now stored message haccepted hstored hcontent
    have hfits := haccepted.fits
    have hsame := hjsonb _ stored (plain_eventJson hfits) hstored
    have hcarries : Carries number stored (buildOrderPlacedEvent data occurredAt) :=
      carries_of_same hreads hfits hsame
    exact ⟨_, hcarries.parseOrderPlaced rfl hcontent, rfl, rfl, hcarries⟩
  · intro message event
    rw [parseOrderPlaced_eq_some]
    simp only [Option.bind_eq_some_iff, asString_eq_some, asInteger_eq_some, exists_eq_right]
    constructor
    · rintro ⟨hparse, hid, htype, _, ⟨data, hdata, horder⟩, literal, rfl, hnumber⟩
      exact ⟨hparse, hid, htype, data, literal, hdata, horder, hnumber⟩
    · rintro ⟨hparse, hid, htype, data, literal, hdata, horder, hnumber⟩
      exact ⟨hparse, hid, htype, _, ⟨data, hdata, horder⟩, literal, rfl, hnumber⟩

/-! ### A column that sorts the members -/

/-- Shorter keys come first, keys of one length by their bytes. -/
def jsonbKeyLe (left right : Text × Json) : Bool :=
  let leftKey := Utf8.encode left.1
  let rightKey := Utf8.encode right.1
  if leftKey.length = rightKey.length then !rightKey.lex leftKey
  else decide (leftKey.length < rightKey.length)

def jsonbOrder (members : List (Text × Json)) : List (Text × Json) :=
  members.insertionSort fun left right => jsonbKeyLe left right = true

example : (jsonbOrder [(eventIdKey, .null), (typeKey, .null), (dataKey, .null)]).map Prod.fst =
    [dataKey, typeKey, eventIdKey] := by decide

def jsonbColumn (text : Text) : Option Json := (Json.parse text).map (Json.reorder jsonbOrder)

theorem jsonbColumn_stringify (json : Json) :
    jsonbColumn (Json.stringify json) = some (Json.reorder jsonbOrder json) := by
  rw [jsonbColumn, Json.parse_stringify, Option.map_some]

theorem keepsValues_jsonbColumn : KeepsValues jsonbColumn := by
  intro json stored hplain hstored
  rw [jsonbColumn_stringify] at hstored
  cases hstored
  exact Json.same_reorder (fun members => List.perm_insertionSort _ members) json hplain

/-- Two lamps, ordered by someone who is not logged in. -/
def lampsData : OrderPlacedData where
  orderId := 1
  customerEmail := "bob@example.com"
  totalCents := 200
  currency := "UAH"
  items := [⟨3, 2⟩]

theorem accepted_lampsData : Accepted CreateOrderDto readDecimal lampsData := by
  obtain ⟨source, after, hplaced, hdata⟩ : ∃ source after,
      Shop.insertOrderWithEvent readDecimal Shop.lampStore ⟨"bob@example.com", [⟨['3'], 2⟩]⟩
        none 0 0 =
        .ok (source, after) ∧ source.eventData 1 = lampsData := ⟨_, _, rfl, rfl⟩
  rw [← hdata]
  exact .created Shop.lampStore after _ none 0 0 source hplaced

theorem orderPlaced_readable_lamps :
    ∃ stored event,
      jsonbColumn (Json.stringify (eventJson (buildOrderPlacedEvent lampsData 0))) = some stored ∧
      parseOrderPlaced readDecimal ⟨publishContent stored, false, .ok (.integer 1)⟩ = some event ∧
      event.orderId = 1 ∧ Carries readDecimal event.body (buildOrderPlacedEvent lampsData 0) := by
  have hstored := jsonbColumn_stringify (eventJson (buildOrderPlacedEvent lampsData 0))
  obtain ⟨event, hplaced, -, horder, hcarries⟩ :=
    (orderPlaced_readable CreateOrderDto readsDecimals_readDecimal keepsValues_jsonbColumn).readable
      lampsData 0 0 _ ⟨_, false, .ok (.integer 1)⟩ accepted_lampsData hstored rfl
  exact ⟨_, event, hstored, hplaced, horder, hcarries⟩

end Marketplace.Events

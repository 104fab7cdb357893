import Marketplace.Cards.ProductCardService
import Marketplace.Lib.JsonMembers
import Marketplace.Numbers
import Marketplace.Orders.CreateIdempotent
import Mathlib.Logic.Equiv.Basic

/-!
# The request hash of `createIdempotent`

From the parsed body through the `ValidationPipe` to the hash that the row of the key keeps.
`isEmail` and SHA-256 are parameters; `plainToInstance` keeps the members of an object in their
order.

An element of `items` that is `null` or an array gets past `@ValidateNested`, but it is no pair of a
product and a quantity, and a body with one is no order: `CreateOrderDto.ofJson` gives nothing for
it.
-/

namespace Marketplace.Orders

open Checkout (JsNumber)

/-- How `JSON.parse` reads a number and `JSON.stringify` writes an integer. -/
structure Numerals where
  read : JsonNumber → JsNumber
  write : Int → JsonNumber
  /-- What is written for a number is read as that number. -/
  read_write : ∀ literal value, read literal = .integer value → read (write value) = .integer value

theorem Numerals.write_injective (numerals : Numerals) {literal literal' : JsonNumber}
    {value value' : Int} (hread : numerals.read literal = .integer value)
    (hread' : numerals.read literal' = .integer value')
    (hwrite : numerals.write value = numerals.write value') : value = value' := by
  have hvalue := numerals.read_write literal value hread
  rw [hwrite, numerals.read_write literal' value' hread'] at hvalue
  exact (JsNumber.integer.inj hvalue).symm

/-! ### What the pipe accepts -/

/-- `@IsString() @IsNotEmpty() productId` and `@IsInt() @Min(1) quantity`; `forbidNonWhitelisted`
refuses any other member. -/
def OrderItemDto.ofJson (numerals : Numerals) (item : Json) : Option OrderItemDto :=
  match item.hasExactly ["productId".toList, "quantity".toList], item.get "productId".toList,
      item.get "quantity".toList with
  | true, some (.string productId), some (.number literal) =>
      match numerals.read literal with
      | .integer quantity =>
          if productId ≠ [] ∧ 1 ≤ quantity then some ⟨productId, quantity⟩ else none
      | .other _ => none
  | _, _, _ => none

/-- `@IsEmail() customerEmail` and `@IsArray() @ArrayMinSize(1) items` with its elements. -/
def CreateOrderDto.ofJson (isEmail : Text → Bool) (numerals : Numerals) (body : Json) :
    Option CreateOrderDto :=
  match body.hasExactly ["customerEmail".toList, "items".toList], body.get "customerEmail".toList,
      body.get "items".toList with
  | true, some (.string customerEmail), some (.array items) =>
      if isEmail customerEmail ∧ items ≠ [] then
        (items.mapM (OrderItemDto.ofJson numerals)).map (⟨String.ofList customerEmail, ·⟩)
      else none
  | _, _, _ => none

/-! ### The hash -/

/-- A number of the instance is what `JSON.parse` has read, and is written anew. -/
def Numerals.rewrite (numerals : Numerals) : Json → Json
  | .number literal =>
      match numerals.read literal with
      | .integer value => .number (numerals.write value)
      | .other _ => .number literal
  | leaf => leaf

def plainToInstance (numerals : Numerals) (body : Json) : Json := body.mapLeaves numerals.rewrite

section Hash

variable {Digest : Type} [DecidableEq Digest] (sha256 : Text → Digest) (numerals : Numerals)

/-- `createHash('sha256').update(JSON.stringify(dto ?? null)).digest('hex')`. -/
def requestHashOf (body : Json) : Digest :=
  sha256 (Json.stringify (plainToInstance numerals body))

/-- The comparison with the row of a key that is taken. -/
def checkReplay (existing requestHash : Digest) : Except Failure Unit :=
  if existing ≠ requestHash then .error .keyReused else .ok ()

/-- The hash identifies the body: under one key, a second body is replayed if it is the same order
and refused if it is not. -/
structure Identifies (left right : Json) (order order' : CreateOrderDto) : Prop where
  hash : requestHashOf sha256 numerals left = requestHashOf sha256 numerals right ↔ order = order'
  replayed : order = order' →
    checkReplay (requestHashOf sha256 numerals left) (requestHashOf sha256 numerals right) = .ok ()
  refused : order ≠ order' →
    checkReplay (requestHashOf sha256 numerals left) (requestHashOf sha256 numerals right) =
      .error .keyReused

end Hash

/-! ### The shape of an accepted body -/

/-- The members of an accepted item, in the order of the class. -/
def itemMembers (productId : Text) (quantity : JsonNumber) : List (Text × Json) :=
  [("productId".toList, .string productId), ("quantity".toList, .number quantity)]

def bodyMembers (customerEmail : Text) (items : List Json) : List (Text × Json) :=
  [("customerEmail".toList, .string customerEmail), ("items".toList, .array items)]

theorem itemMembers_nodup (productId : Text) (quantity : JsonNumber) :
    ((itemMembers productId quantity).map Prod.fst).Nodup := by
  simp [itemMembers]

theorem bodyMembers_nodup (customerEmail : Text) (items : List Json) :
    ((bodyMembers customerEmail items).map Prod.fst).Nodup := by
  simp [bodyMembers]

section Accepted

variable {numerals : Numerals} {isEmail : Text → Bool}

theorem OrderItemDto.ofJson_eq_some {item : Json} {dto : OrderItemDto}
    (hdto : OrderItemDto.ofJson numerals item = some dto) :
    ∃ literal members, item = .object members ∧
      members.Perm (itemMembers dto.productId literal) ∧
      numerals.read literal = .integer dto.quantity := by
  unfold OrderItemDto.ofJson at hdto
  split at hdto
  · rename_i productId literal hexactly hproductId hliteral
    split at hdto
    · rename_i quantity hread
      obtain ⟨_, hsome⟩ := Option.ite_none_right_eq_some.mp hdto
      obtain rfl := Option.some.inj hsome
      obtain ⟨members, hitem, hperm⟩ := Json.perm_of_hasExactly
        (itemMembers productId literal) hexactly (itemMembers_nodup _ _)
        (List.forall_mem_cons.mpr ⟨hproductId, List.forall_mem_singleton.mpr hliteral⟩)
      exact ⟨literal, members, hitem, hperm, hread⟩
    · cases hdto
  · cases hdto

theorem CreateOrderDto.ofJson_eq_some {body : Json} {dto : CreateOrderDto}
    (hdto : CreateOrderDto.ofJson isEmail numerals body = some dto) :
    ∃ items members, body = .object members ∧
      members.Perm (bodyMembers dto.customerEmail.toList items) ∧
      items.mapM (OrderItemDto.ofJson numerals) = some dto.items := by
  unfold CreateOrderDto.ofJson at hdto
  split at hdto
  · rename_i customerEmail items hexactly hemail hitems
    obtain ⟨_, hmap⟩ := Option.ite_none_right_eq_some.mp hdto
    obtain ⟨dtos, hdtos, rfl⟩ := Option.map_eq_some_iff.mp hmap
    obtain ⟨members, hbody, hperm⟩ := Json.perm_of_hasExactly
      (bodyMembers customerEmail items) hexactly (bodyMembers_nodup _ _)
      (List.forall_mem_cons.mpr ⟨hemail, List.forall_mem_singleton.mpr hitems⟩)
    refine ⟨items, members, hbody, ?_, hdtos⟩
    simpa using hperm
  · cases hdto

/-! ### Equal instances -/

theorem item_instance_eq_iff {item item' : Json} {dto dto' : OrderItemDto}
    (hdto : OrderItemDto.ofJson numerals item = some dto)
    (hdto' : OrderItemDto.ofJson numerals item' = some dto') :
    plainToInstance numerals item = plainToInstance numerals item' ↔
      dto = dto' ∧ item.skeleton = item'.skeleton := by
  obtain ⟨literal, members, rfl, hperm, hread⟩ := OrderItemDto.ofJson_eq_some hdto
  obtain ⟨literal', members', rfl, hperm', hread'⟩ := OrderItemDto.ofJson_eq_some hdto'
  have hobject (leaf : Json → Json) := Json.mapLeaves_object_eq_iff leaf hperm hperm' rfl
    (itemMembers_nodup _ _)
  rw [plainToInstance, plainToInstance, Json.skeleton, hobject, hobject]
  simp only [itemMembers, Json.mapMembers, Json.mapLeaves, Numerals.rewrite, hread, hread',
    List.cons.injEq, Prod.mk.injEq, Json.string.injEq, Json.number.injEq, true_and, and_true]
  constructor
  · rintro ⟨hkeys, hproductId, hwrite⟩
    have hquantity := numerals.write_injective hread hread' hwrite
    exact ⟨congrArg₂ OrderItemDto.mk hproductId hquantity, hkeys⟩
  · rintro ⟨rfl, hkeys⟩
    exact ⟨hkeys, rfl, rfl⟩

theorem items_instance_eq_iff {items items' : List Json} {dtos dtos' : List OrderItemDto}
    (hdtos : items.mapM (OrderItemDto.ofJson numerals) = some dtos)
    (hdtos' : items'.mapM (OrderItemDto.ofJson numerals) = some dtos') :
    Json.mapItems numerals.rewrite items = Json.mapItems numerals.rewrite items' ↔
      dtos = dtos' ∧
        Json.mapItems (fun _ => .null) items = Json.mapItems (fun _ => .null) items' := by
  induction items generalizing items' dtos dtos' with
  | nil =>
      obtain rfl := Option.some.inj hdtos
      cases items' with
      | nil =>
          obtain rfl := Option.some.inj hdtos'
          simp
      | cons item' rest' => simp [Json.mapItems]
  | cons item rest ih =>
      cases items' with
      | nil => simp [Json.mapItems]
      | cons item' rest' =>
          simp only [List.mapM_cons, Option.bind_eq_bind, Option.bind_eq_some_iff, Option.pure_def,
            Option.some.injEq] at hdtos hdtos'
          obtain ⟨dto, hdto, dtos, hrest, rfl⟩ := hdtos
          obtain ⟨dto', hdto', dtos', hrest', rfl⟩ := hdtos'
          have hhead := item_instance_eq_iff hdto hdto'
          have htail := ih hrest hrest'
          simp only [plainToInstance, Json.skeleton] at hhead
          simp only [Json.mapItems, List.cons.injEq, hhead, htail]
          exact and_and_and_comm

theorem body_instance_eq_iff {body body' : Json} {dto dto' : CreateOrderDto}
    (hdto : CreateOrderDto.ofJson isEmail numerals body = some dto)
    (hdto' : CreateOrderDto.ofJson isEmail numerals body' = some dto') :
    plainToInstance numerals body = plainToInstance numerals body' ↔
      dto = dto' ∧ body.skeleton = body'.skeleton := by
  obtain ⟨items, members, rfl, hperm, hitems⟩ := CreateOrderDto.ofJson_eq_some hdto
  obtain ⟨items', members', rfl, hperm', hitems'⟩ := CreateOrderDto.ofJson_eq_some hdto'
  have hobject (leaf : Json → Json) := Json.mapLeaves_object_eq_iff leaf hperm hperm' rfl
    (bodyMembers_nodup _ _)
  rw [plainToInstance, plainToInstance, Json.skeleton, hobject, hobject]
  simp only [bodyMembers, Json.mapMembers, Json.mapLeaves, Numerals.rewrite, List.cons.injEq,
    Prod.mk.injEq, Json.string.injEq, Json.array.injEq, true_and, and_true,
    items_instance_eq_iff hitems hitems', String.toList_inj]
  constructor
  · rintro ⟨hkeys, hemail, hdtos, hskeleton⟩
    exact ⟨congrArg₂ CreateOrderDto.mk hemail hdtos, hkeys, hskeleton⟩
  · rintro ⟨rfl, hkeys, hskeleton⟩
    exact ⟨hkeys, rfl, rfl, hskeleton⟩

end Accepted

/-! ### What the hash identifies -/

section Identification

variable {Digest : Type} {sha256 : Text → Digest} {numerals : Numerals} {isEmail : Text → Bool}

theorem requestHashOf_eq_iff (hsha256 : Function.Injective sha256) {left right : Json}
    {order order' : CreateOrderDto}
    (hleft : CreateOrderDto.ofJson isEmail numerals left = some order)
    (hright : CreateOrderDto.ofJson isEmail numerals right = some order') :
    requestHashOf sha256 numerals left = requestHashOf sha256 numerals right ↔
      order = order' ∧ left.skeleton = right.skeleton := by
  unfold requestHashOf
  rw [hsha256.eq_iff, Json.stringify_injective.eq_iff]
  exact body_instance_eq_iff hleft hright

variable [DecidableEq Digest]

/-- The comparison adds nothing to what the hashes say. -/
theorem identifies_iff {left right : Json} {order order' : CreateOrderDto} :
    Identifies sha256 numerals left right order order' ↔
      (requestHashOf sha256 numerals left = requestHashOf sha256 numerals right ↔
        order = order') := by
  constructor
  · exact Identifies.hash
  · intro hhash
    refine ⟨hhash, fun heq => ?_, fun hne => ?_⟩
    · exact if_neg (not_not.mpr (hhash.mpr heq))
    · exact if_pos (mt hhash.mp hne)

/-- Of two accepted bodies the hash identifies the order just when, if it is the same order, the
members of the body and of each item are written in the same order. -/
theorem requestHash_identifies_iff (hsha256 : Function.Injective sha256) {left right : Json}
    {order order' : CreateOrderDto}
    (hleft : CreateOrderDto.ofJson isEmail numerals left = some order)
    (hright : CreateOrderDto.ofJson isEmail numerals right = some order') :
    Identifies sha256 numerals left right order order' ↔
      (order = order' → left.skeleton = right.skeleton) := by
  rw [identifies_iff, requestHashOf_eq_iff hsha256 hleft hright]
  exact and_iff_left_iff_imp

end Identification

/-- The integers in their decimal digits. -/
def decimalNumerals : Numerals where
  read literal := readDecimal literal.val
  write value := ⟨decimal value, Cards.isNumber_decimal value⟩
  read_write _ value _ := readDecimal_decimal value

def hasAt (email : Text) : Bool := email.contains '@'

def adaItems : Json :=
  .array [.object [("productId".toList, .string ['1']), ("quantity".toList, .number (.ofNat 2))]]

/-- `{"customerEmail":"ada@example.com","items":[{"productId":"1","quantity":2}]}`. -/
def adaBody : Json :=
  .object [("customerEmail".toList, .string "ada@example.com".toList), ("items".toList, adaItems)]

/-- The members the other way round. -/
def adaBodySwapped : Json :=
  .object [("items".toList, adaItems), ("customerEmail".toList, .string "ada@example.com".toList)]

def adaOrder : CreateOrderDto := ⟨"ada@example.com", [⟨['1'], 2⟩]⟩

theorem ofJson_adaBody : CreateOrderDto.ofJson hasAt decimalNumerals adaBody = some adaOrder := by
  decide +kernel

theorem ofJson_adaBodySwapped :
    CreateOrderDto.ofJson hasAt decimalNumerals adaBodySwapped = some adaOrder := by
  decide +kernel

/-- SHA-256 of the text of `adaBody`, and no collision. -/
def adaSha256 : Equiv.Perm Text :=
  Equiv.swap (Json.stringify adaBody)
    "501267795ec3f63697891179db33dcb481b12d53651758b14f5eacef2823cf1a".toList

/-- The same body once more is replayed. -/
theorem requestHash_identifies_iff_retry :
    Identifies adaSha256 decimalNumerals adaBody adaBody adaOrder adaOrder :=
  (requestHash_identifies_iff adaSha256.injective ofJson_adaBody ofJson_adaBody).mpr fun _ => rfl

/-- The same order with the members of the body in another order is refused. -/
theorem memberOrder_changes_hash :
    CreateOrderDto.ofJson hasAt decimalNumerals adaBody = some adaOrder ∧
      CreateOrderDto.ofJson hasAt decimalNumerals adaBodySwapped = some adaOrder ∧
      ∀ sha256 : Text → Text, Function.Injective sha256 →
        requestHashOf sha256 decimalNumerals adaBody ≠
            requestHashOf sha256 decimalNumerals adaBodySwapped ∧
          checkReplay (requestHashOf sha256 decimalNumerals adaBody)
            (requestHashOf sha256 decimalNumerals adaBodySwapped) = .error .keyReused := by
  refine ⟨ofJson_adaBody, ofJson_adaBodySwapped, fun sha256 hsha256 => ?_⟩
  have hskeleton : adaBody.skeleton ≠ adaBodySwapped.skeleton := by decide +kernel
  have hhash : requestHashOf sha256 decimalNumerals adaBody ≠
      requestHashOf sha256 decimalNumerals adaBodySwapped := fun heq =>
    hskeleton ((requestHashOf_eq_iff hsha256 ofJson_adaBody ofJson_adaBodySwapped).mp heq).2
  exact ⟨hhash, if_pos hhash⟩

end Marketplace.Orders

import Marketplace.Common.Pagination
import Marketplace.Outbox.Outbox

/-!
# The table of products and its list
-/

namespace Marketplace.Products

open Checkout (JsNumber)
open Pagination (PaginatedResult findPage)

/-- A row of `products`. -/
structure Product where
  id : Nat
  name : String
  priceCents : Int
  stock : Int
  currency : String
  deriving DecidableEq

structure ProductResponse where
  id : Text
  name : String
  priceCents : Int
  currency : String
  deriving DecidableEq

def toResponse (product : Product) : ProductResponse where
  id := decimal product.id
  name := product.name
  priceCents := product.priceCents
  currency := product.currency

/-- The table in the order of its ids, which a serial has made. -/
structure ProductTable where
  rows : List Product
  sorted : rows.Pairwise fun left right => left.id < right.id
  serial : ∀ product ∈ rows, 0 < product.id ∧ product.id ≤ 2147483647

def ProductTable.empty : ProductTable := ⟨[], .nil, by simp⟩

/-- `ProductsService.findAll`; `none` is a statement that fails. -/
def findAll (number : Text → JsNumber) (take : Int → Option (Option Nat)) (products : ProductTable)
    (limit : JsNumber) (cursor : Option Text) : Option (PaginatedResult ProductResponse) :=
  findPage number take Product.id toResponse limit cursor products.rows

inductive FindFailure where
  | productNotFound (productId : Text)
  /-- The SELECT failed. -/
  | internal
  deriving DecidableEq

def FindFailure.toHttp : FindFailure → HttpError
  | .productNotFound productId => ⟨404, "Product " ++ String.ofList productId ++ " not found"⟩
  | .internal => ⟨500, "Internal server error"⟩

/-- `ProductsService.findOne`. -/
def findOne (number : Text → JsNumber) (products : ProductTable) (productId : Text) :
    Except FindFailure ProductResponse :=
  if (number productId).isNaN then .error (.productNotFound productId)
  else
    match (number productId).toInt4 with
    | none => .error .internal
    | some value =>
        match products.rows.find? fun product => (product.id : Int) = value with
        | none => .error (.productNotFound productId)
        | some product => .ok (toResponse product)

/-! ### Adding a product -/

structure CreateProductDto where
  name : String
  priceCents : Int
  stock : Int
  currency : Option String
  deriving DecidableEq

inductive CreateFailure where
  | nameTaken (name : String)
  /-- The INSERT failed. -/
  | internal
  deriving DecidableEq

def CreateFailure.toHttp : CreateFailure → HttpError
  | .nameTaken name => ⟨409, "Товар з назвою \"" ++ name ++ "\" вже існує"⟩
  | .internal => ⟨500, "Internal server error"⟩

/-- The table with its serial, which has not handed out `nextId` yet. -/
structure Catalogue extends ProductTable where
  nextId : Nat
  positive : 0 < nextId
  fresh : ∀ product ∈ rows, product.id < nextId

namespace Catalogue

variable (catalogue : Catalogue)

def find (id : Int) : Option Product := catalogue.rows.find? fun product => (product.id : Int) = id

/-- The serial goes on without a new row. -/
def skip (count : Nat) : Catalogue :=
  { catalogue with
    nextId := catalogue.nextId + count
    positive := Nat.lt_of_lt_of_le catalogue.positive (Nat.le_add_right _ _)
    fresh := fun product hproduct =>
      Nat.lt_of_lt_of_le (catalogue.fresh product hproduct) (Nat.le_add_right _ _) }

def newProduct (id : Nat) (dto : CreateProductDto) : Product where
  id := id
  name := dto.name
  priceCents := dto.priceCents
  stock := dto.stock
  currency := dto.currency.getD "UAH"

def insert (dto : CreateProductDto) (hroom : catalogue.nextId ≤ 2147483647) : Catalogue where
  rows := catalogue.rows ++ [newProduct catalogue.nextId dto]
  sorted := by
    rw [List.pairwise_append]
    refine ⟨catalogue.sorted, List.pairwise_singleton _ _, ?_⟩
    intro product hproduct added hadded
    rw [List.mem_singleton.mp hadded]
    exact catalogue.fresh product hproduct
  serial product hproduct := by
    rcases List.mem_append.mp hproduct with hold | hnew
    · exact catalogue.serial product hold
    · rw [List.mem_singleton.mp hnew]
      exact ⟨catalogue.positive, hroom⟩
  nextId := catalogue.nextId + 1
  positive := Nat.succ_pos _
  fresh product hproduct := by
    rcases List.mem_append.mp hproduct with hold | hnew
    · exact Nat.lt_succ_of_lt (catalogue.fresh product hold)
    · rw [List.mem_singleton.mp hnew]
      exact Nat.lt_succ_self _

def reduceStock (id quantity : Int) (product : Product) : Product :=
  if (product.id : Int) = id then { product with stock := product.stock - quantity } else product

theorem reduceStock_id (id quantity : Int) (product : Product) :
    (reduceStock id quantity product).id = product.id := by
  unfold reduceStock
  split <;> rfl

/-- `UPDATE products SET stock = stock - quantity WHERE id = …`. -/
def takeStock (id quantity : Int) : Catalogue where
  rows := catalogue.rows.map (reduceStock id quantity)
  sorted := by
    rw [List.pairwise_map]
    simpa only [reduceStock_id] using catalogue.sorted
  serial product hproduct := by
    obtain ⟨product, hmem, rfl⟩ := List.mem_map.mp hproduct
    rw [reduceStock_id]
    exact catalogue.serial product hmem
  nextId := catalogue.nextId
  positive := catalogue.positive
  fresh product hproduct := by
    obtain ⟨product, hmem, rfl⟩ := List.mem_map.mp hproduct
    rw [reduceStock_id]
    exact catalogue.fresh product hmem

end Catalogue

/-- The row is inserted: the columns hold the values, the serial has an id left and the name is
new. -/
def Inserts (catalogue : Catalogue) (dto : CreateProductDto) : Prop :=
  fitsInt4 dto.priceCents = true ∧ fitsInt4 dto.stock = true ∧ catalogue.nextId ≤ 2147483647 ∧
    ∀ product ∈ catalogue.rows, product.name ≠ dto.name

instance (catalogue : Catalogue) (dto : CreateProductDto) : Decidable (Inserts catalogue dto) :=
  inferInstanceAs (Decidable (_ ∧ _ ∧ _ ∧ _))

/-- `ProductsService.create`. A name that is taken has used up an id. -/
def create (catalogue : Catalogue) (dto : CreateProductDto) :
    Except CreateFailure ProductResponse × Catalogue :=
  if hinserts : Inserts catalogue dto then
    (.ok (toResponse (Catalogue.newProduct catalogue.nextId dto)),
      catalogue.insert dto hinserts.2.2.1)
  else if fitsInt4 dto.priceCents && fitsInt4 dto.stock &&
    decide (catalogue.nextId ≤ 2147483647) then
    (.error (.nameTaken dto.name), catalogue.skip 1)
  else (.error .internal, catalogue)

variable {catalogue : Catalogue} {id quantity : Int}

theorem Catalogue.find_nextId (catalogue : Catalogue) : catalogue.find catalogue.nextId = none := by
  rw [Catalogue.find, List.find?_eq_none]
  intro product hproduct
  rw [decide_eq_true_eq]
  exact fun heq => Nat.ne_of_lt (catalogue.fresh product hproduct) (Int.ofNat.inj heq)

theorem Catalogue.find_insert_self (dto : CreateProductDto)
    (hroom : catalogue.nextId ≤ 2147483647) :
    (catalogue.insert dto hroom).find catalogue.nextId =
      some (Catalogue.newProduct catalogue.nextId dto) := by
  have hnone := catalogue.find_nextId
  rw [Catalogue.find] at hnone ⊢
  rw [Catalogue.insert, List.find?_append, hnone, Option.none_or]
  exact List.find?_cons_of_pos (decide_eq_true rfl)

theorem Catalogue.find_insert_of_ne (dto : CreateProductDto) (hroom : catalogue.nextId ≤ 2147483647)
    (hne : id ≠ catalogue.nextId) : (catalogue.insert dto hroom).find id = catalogue.find id := by
  have hnew : [newProduct catalogue.nextId dto].find? (fun product => (product.id : Int) =
      id) = none :=
    List.find?_cons_of_neg (by rw [decide_eq_true_eq]; exact fun heq => hne heq.symm)
  rw [Catalogue.find, Catalogue.insert, List.find?_append, hnew, Option.or_none]
  rfl

theorem Catalogue.find_takeStock (other : Int) : (catalogue.takeStock id quantity).find other =
    (catalogue.find other).map (reduceStock id quantity) := by
  rw [Catalogue.find, Catalogue.takeStock, List.find?_map]
  congr 1
  apply congrArg (List.find? · catalogue.rows)
  funext product
  rw [Function.comp_apply, reduceStock_id]

theorem Catalogue.id_of_find {product : Product} (hfind : catalogue.find id = some product) :
    (product.id : Int) = id := by
  simpa using List.find?_some hfind

end Marketplace.Products

import Marketplace.Lib.Json
import Marketplace.Lib.Keyset
import Marketplace.Lib.Utf8
import Marketplace.Numbers

/-!
# Cursors and pages

The cursor of `pagination.ts` and what the two `findAll` have in common. `Number(text)` and the
LIMIT that TypeORM and Postgres make of a `take` are parameters.
-/

namespace Marketplace.Pagination

open Checkout (JsNumber)

structure PaginatedResult (Item : Type) where
  items : List Item
  nextCursor : Option Text
  deriving DecidableEq

def idKey : Text := ['i', 'd']

def encodeCursor (id : Text) : Text :=
  Base64.encode (Utf8.encode (Json.stringify (.object [(idKey, .string id)])))

/-- The `id` of the decoded object. -/
def decodeCursor (cursor : Text) : Option Text :=
  (Json.parse (Utf8.decode (Base64.decode cursor))).bind fun decoded =>
    (decoded.get idKey).bind Json.asString

theorem decodeCursor_encodeCursor (id : Text) : decodeCursor (encodeCursor id) = some id := by
  rw [decodeCursor, encodeCursor, Base64.decode_encode, Utf8.decode_encode, Json.parse_stringify]
  rfl

theorem encodeCursor_ne_nil (id : Text) : encodeCursor id ≠ [] := by
  intro heq
  have hdecoded := decodeCursor_encodeCursor id
  rw [heq] at hdecoded
  cases hdecoded

section Pages

variable {Row Item : Type} (number : Text → JsNumber) (take : Int → Option (Option Nat))
  (idOf : Row → Nat) (toResponse : Row → Item)

/-- `decoded ? Number(decoded.id) : 0`, where an empty cursor counts as no cursor. -/
def afterId : Option Text → JsNumber
  | none | some [] => .integer 0
  | some cursor => ((decodeCursor cursor).map number).getD (.integer 0)

/-- The rows that `afterId ? { id: MoreThan(afterId) } : {}` leaves; `none` fails the statement. -/
def moreThan (afterId : JsNumber) (rows : List Row) : Option (List Row) :=
  if afterId.isFalsy then some rows
  else afterId.toInt4.map fun value => rows.filter fun row => value < (idOf row : Int)

/-- `rows.slice(0, limit)`. -/
def slice (limit : Int) (rows : List Row) : List Row :=
  if 0 ≤ limit then rows.take limit.toNat else rows.take (rows.length - (-limit).toNat)

/-- The answer that `rows` make. -/
def pageOf (limit : Int) (rows : List Row) : PaginatedResult Item where
  items := (slice limit rows).map toResponse
  nextCursor :=
    if limit < rows.length then
      (slice limit rows).getLast?.map fun lastItem => encodeCursor (decimal (idOf lastItem))
    else none

/-- One page of the rows that the WHERE clause leaves, in the order of their ids. `parseInt` answers
no fraction, and on NaN or an infinity the query throws. -/
def findPage (limit : JsNumber) (cursor : Option Text) (rows : List Row) :
    Option (PaginatedResult Item) :=
  match limit with
  | .integer limit =>
      (moreThan idOf (afterId number cursor) rows).bind fun rows =>
        (take (limit + 1)).map fun window =>
          pageOf idOf toResponse limit (window.elim rows rows.take)
  | .other _ => none

end Pages

/-- Feeding back each `next_cursor` until it is null; `fetch call` is what the call answers. -/
inductive Traverses {Item : Type} (fetch : Nat → Option Text → Option (PaginatedResult Item)) :
    Nat → Option Text → List Item → Prop
  | last {call : Nat} {cursor : Option Text} {page : PaginatedResult Item}
      (hpage : fetch call cursor = some page) (hnext : page.nextCursor = none) :
      Traverses fetch call cursor page.items
  | more {call : Nat} {cursor : Option Text} {page : PaginatedResult Item} {next : Text}
      {rest : List Item} (hpage : fetch call cursor = some page)
      (hnext : page.nextCursor = some next) (hrest : Traverses fetch (call + 1) (some next) rest) :
      Traverses fetch call cursor (page.items ++ rest)

/-! ### What a traversal returns -/

/-- The largest double below `2 ^ 63`: a larger limit is no `bigint`. -/
def maxLimit : Nat := 9223372036854774784

/-- What TypeORM and Postgres make of a `take`. Zero is no LIMIT where relations are joined and
LIMIT 0 where none are; a LIMIT that is negative, or no `bigint`, fails the statement. Above
`2 ^ 53` the sum of a limit and one has been rounded to a double. -/
structure LimitsRows (joined : Bool) (take : Int → Option (Option Nat)) : Prop where
  zero : take 0 = some (if joined then none else some 0)
  negative : ∀ count < 0, take count = none
  exact : ∀ count : Nat, 0 < count → count ≤ 9007199254740992 → take count = some (some count)
  rounded : ∀ count : Nat, 9007199254740992 < count → ∀ taken, take count = some taken →
    ∃ window, taken = some window ∧ 9007199254740992 ≤ window
  accepted : ∀ count : Nat, count ≤ maxLimit + 1 → take count ≠ none
  refused : ∀ count : Int, 9223372036854775808 ≤ count → take count = none

/-- The cursor after the row with the id `last`; there is none before the first row. -/
def cursorAfter (last : Nat) : Option Text :=
  if last = 0 then none else some (encodeCursor (decimal last))

theorem afterId_cursorAfter {number : Text → JsNumber} (hnumber : ReadsDecimals number) {last : Nat}
    (hlast : fitsInt4 last = true) : afterId number (cursorAfter last) = .integer last := by
  unfold cursorAfter
  split_ifs with hzero
  · rw [hzero]
    rfl
  · rw [afterId, decodeCursor_encodeCursor, Option.map_some, hnumber _ hlast]
    · rfl
    · exact encodeCursor_ne_nil _

theorem moreThan_integer {Row : Type} {idOf : Row → Nat} {rows : List Row} {last : Nat}
    (hlast : fitsInt4 last = true) (hpositive : ∀ row ∈ rows, 0 < idOf row) :
    moreThan idOf (.integer last) rows = some (Keyset.above idOf last rows) := by
  unfold moreThan
  split_ifs with hfalsy
  · have hzero : last = 0 := by simpa [JsNumber.isFalsy] using hfalsy
    rw [Keyset.above, hzero,
      List.filter_eq_self.mpr fun row hrow => decide_eq_true (hpositive row hrow)]
  · rw [JsNumber.toInt4, if_pos hlast, Option.map_some, Keyset.above]
    simp only [Int.ofNat_lt]

theorem slice_limit {Row : Type} (limit : Nat) (rows : List Row) :
    slice limit rows = rows.take limit :=
  if_pos (Int.natCast_nonneg limit)

theorem Traverses.unique {Item : Type} {fetch : Nat → Option Text → Option (PaginatedResult Item)}
    {call : Nat} {cursor : Option Text} {left right : List Item}
    (hleft : Traverses fetch call cursor left) (hright : Traverses fetch call cursor right) :
    left = right := by
  induction hleft generalizing right with
  | last hpage hnext =>
      cases hright with
      | last hpage' =>
          cases hpage.symm.trans hpage'
          rfl
      | more hpage' hnext' =>
          cases hpage.symm.trans hpage'
          cases hnext.symm.trans hnext'
  | more hpage hnext hrest ih =>
      cases hright with
      | last hpage' hnext' =>
          cases hpage.symm.trans hpage'
          cases hnext.symm.trans hnext'
      | more hpage' hnext' hrest' =>
          cases hpage.symm.trans hpage'
          cases hnext.symm.trans hnext'
          rw [ih hrest']

section Traversal

variable {Row Item : Type} {number : Text → JsNumber} {take : Int → Option (Option Nat)}
  {idOf : Row → Nat} {toResponse : Row → Item} {tables : Nat → List Row} {limit call last : Nat}

/-- The page of the rows above `last`: there is a next one if it does not hold them all. -/
def pageAfter (idOf : Row → Nat) (toResponse : Row → Item) (limit last : Nat) (rows : List Row) :
    PaginatedResult Item :=
  let page := (Keyset.above idOf last rows).take limit
  { items := page.map toResponse
    nextCursor :=
      if limit < (Keyset.above idOf last rows).length then
        page.getLast?.map fun lastItem => encodeCursor (decimal (idOf lastItem))
      else none }

theorem pageOf_pos {left : List Row} {window : Option Nat}
    (hwindow : ∀ count, window = some count → limit < count ∨ left.length ≤ count) :
    pageOf idOf toResponse limit (window.elim left left.take) =
      { items := (left.take limit).map toResponse
        nextCursor :=
          if limit < left.length then
            (left.take limit).getLast?.map fun lastItem => encodeCursor (decimal (idOf lastItem))
          else none } := by
  have hwhole : pageOf idOf toResponse limit left =
      { items := (left.take limit).map toResponse
        nextCursor :=
          if limit < left.length then
            (left.take limit).getLast?.map fun lastItem => encodeCursor (decimal (idOf lastItem))
          else none } := by
    simp only [pageOf, slice_limit, Int.ofNat_lt]
  cases window with
  | none => exact hwhole
  | some count =>
      rw [Option.elim_some]
      rcases hwindow count rfl with hlook | hall
      · rw [← hwhole]
        have hcut : (left.take count).take limit = left.take limit := by
          rw [List.take_take, Nat.min_eq_left (Nat.le_of_lt hlook)]
        have hmore : limit < (left.take count).length ↔ limit < left.length := by
          rw [List.length_take]
          omega
        simp only [pageOf, slice_limit, hcut, Int.ofNat_lt, hmore]
      · rw [List.take_of_length_le hall]
        exact hwhole

/-- From a limit of 0 on, the rows that are read reach past the page or to the end of the list. -/
theorem window_fits {joined : Bool} (htake : LimitsRows joined take) {left : List Row}
    {window : Option Nat} (hlength : left.length ≤ 2147483647)
    (hwindow : take ((limit : Int) + 1) = some window) :
    ∀ count, window = some count → limit < count ∨ left.length ≤ count := by
  rintro count rfl
  have hsum : ((limit : Int) + 1) = (limit + 1 : Nat) := rfl
  rw [hsum] at hwindow
  rcases Nat.lt_or_ge 9007199254740992 (limit + 1) with hlarge | hsmall
  · obtain ⟨_, ⟨⟩, hle⟩ := htake.rounded _ hlarge _ hwindow
    exact .inr (by omega)
  · rw [htake.exact _ (Nat.succ_pos limit) hsmall] at hwindow
    cases hwindow
    exact .inl (Nat.lt_succ_self limit)

/-- The look-ahead row tells whether there is a next page. -/
theorem findPage_cursorAfter (hnumber : ReadsDecimals number) {joined : Bool}
    (htake : LimitsRows joined take) (hlimit : limit ≤ maxLimit) (hlast : last ≤ 2147483647)
    {rows : List Row} (hpositive : ∀ row ∈ rows, 0 < idOf row)
    (hlength : rows.length ≤ 2147483647) :
    findPage number take idOf toResponse (.integer limit) (cursorAfter last) rows =
      some (pageAfter idOf toResponse limit last rows) := by
  have hfits : fitsInt4 last = true := by
    simp only [fitsInt4, Bool.and_eq_true, decide_eq_true_eq]
    omega
  obtain ⟨window, hwindow⟩ := Option.ne_none_iff_exists'.mp
    (htake.accepted (limit + 1) (Nat.succ_le_succ hlimit))
  have habove : (Keyset.above idOf last rows).length ≤ 2147483647 :=
    Nat.le_trans (List.length_filter_le _ rows) hlength
  have hsum : take ((limit : Int) + 1) = some window := hwindow
  rw [findPage, afterId_cursorAfter hnumber hfits, moreThan_integer hfits hpositive, hsum]
  simp only [Option.bind_some, Option.map_some, pageAfter,
    pageOf_pos (window_fits htake habove hsum)]

/-- A limit that is no `bigint` fails the query. -/
theorem findPage_refused {joined : Bool} (htake : LimitsRows joined take) {limit : Int}
    (hlimit : 9223372036854775808 ≤ limit) (cursor : Option Text) (rows : List Row) :
    findPage number take idOf toResponse (.integer limit) cursor rows = none := by
  have hrefused : take (limit + 1) = none := htake.refused _ (by omega)
  rw [findPage]
  simp only [hrefused, Option.map_none, Option.bind_fun_none]

variable {fetch : Nat → Option Text → Option (PaginatedResult Item)}

theorem not_traverses_of_none {call : Nat} {cursor : Option Text} {items : List Item}
    (hnone : fetch call cursor = none) : ¬ Traverses fetch call cursor items := by
  intro htraverses
  cases htraverses with
  | last hpage hnext => cases hnone.symm.trans hpage
  | more hpage hnext hrest => cases hnone.symm.trans hpage

/-- The pages of the table are what the traversal returns. -/
theorem traverses_of_pages (hnumber : ReadsDecimals number) {joined : Bool}
    (htake : LimitsRows joined take) (hlimit : limit ≤ maxLimit)
    (hgrows : Keyset.Grows idOf tables 2147483647)
    (hpositive : ∀ call, ∀ row ∈ tables call, 0 < idOf row)
    (hfetch : ∀ call cursor, fetch call cursor =
      findPage number take idOf toResponse (.integer limit) cursor (tables call))
    {rows : List Row} (hlast : last ≤ 2147483647)
    (hpages : Keyset.Pages idOf limit tables call last rows) :
    Traverses fetch call (cursorAfter last) (rows.map toResponse) := by
  have hanswer : ∀ call last, last ≤ 2147483647 → fetch call (cursorAfter last) =
      some (pageAfter idOf toResponse limit last (tables call)) := by
    intro call last hlast
    rw [hfetch, findPage_cursorAfter hnumber htake hlimit hlast (hpositive call)]
    exact Keyset.length_le (hgrows.sorted call) fun row hrow =>
      ⟨hpositive call row hrow, hgrows.bounded call row hrow⟩
  induction hpages with
  | @last call last hend => exact .last (hanswer call last hlast) (if_neg hend)
  | @more call last row rest hmore hrow hrest ih =>
      obtain ⟨hmem, hlt⟩ := Keyset.last_lt hrow
      have hnext : (pageAfter idOf toResponse limit last (tables call)).nextCursor =
          some (encodeCursor (decimal (idOf row))) := by
        rw [pageAfter, if_pos hmore, hrow, Option.map_some]
      have hcursor : cursorAfter (idOf row) = some (encodeCursor (decimal (idOf row))) :=
        if_neg (Nat.ne_of_gt (Nat.zero_lt_of_lt hlt))
      have htail := ih (hgrows.bounded call row hmem)
      rw [hcursor] at htail
      rw [List.map_append]
      exact .more (hanswer call last hlast) hnext htail

/-- The traversal from no cursor ends, and what it returns is `rows`: in ascending order, all of
them visible to some call, with each row that was visible to the first call exactly once. -/
structure TraversesOnce (fetch : Nat → Option Text → Option (PaginatedResult Item))
    (idOf : Row → Nat) (toResponse : Row → Item) (tables : Nat → List Row) (rows : List Row) :
    Prop where
  returns : ∀ items, Traverses fetch 0 none items ↔ items = rows.map toResponse
  ascending : rows.Pairwise fun left right => idOf left < idOf right
  visible : ∀ row ∈ rows, ∃ call, row ∈ tables call
  once : ∀ row ∈ tables 0, (rows.filter fun found => idOf found = idOf row).length = 1

theorem exists_traversesOnce (hnumber : ReadsDecimals number) {joined : Bool}
    (htake : LimitsRows joined take) (hlimit : 1 ≤ limit) (hmax : limit ≤ maxLimit)
    (hgrows : Keyset.Grows idOf tables 2147483647)
    (hpositive : ∀ call, ∀ row ∈ tables call, 0 < idOf row)
    (hfetch : ∀ call cursor, fetch call cursor =
      findPage number take idOf toResponse (.integer limit) cursor (tables call)) :
    ∃ rows, TraversesOnce fetch idOf toResponse tables rows := by
  obtain ⟨rows, hpages⟩ := Keyset.exists_pages hlimit hgrows 0 0
  have htraverses : Traverses fetch 0 none (rows.map toResponse) :=
    traverses_of_pages hnumber htake hmax hgrows hpositive hfetch (Nat.zero_le _) hpages
  refine ⟨rows, ⟨fun items => ⟨fun hitems => hitems.unique htraverses, ?_⟩,
    (hpages.ascending hgrows).1, fun row hrow => hpages.mem_tables hrow, ?_⟩⟩
  · rintro rfl
    exact htraverses
  · intro row hrow
    exact hpages.count_eq_one hgrows hrow (hpositive 0 row hrow)

end Traversal

end Marketplace.Pagination

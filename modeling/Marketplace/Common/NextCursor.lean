import Marketplace.Common.Pagination

/-!
# A null cursor and the end of the list

A page is cut from the rows after the cursor, with one row more read to see whether others follow.
The cut is right for every limit from 1 on; a limit of 0, and one of -1, cut the last row off the
page and with it the cursor.
-/

namespace Marketplace.Pagination

open Checkout (JsNumber)

variable {Row Item : Type} {number : Text → JsNumber} {take : Int → Option (Option Nat)}
  {idOf : Row → Nat} {toResponse : Row → Item} {rows left : List Row} {cursor : Option Text}

/-- The page holds the first rows of `left`, and its cursor tells whether there are others: null if
there are none, else one that leaves exactly them. -/
structure TellsEnd (number : Text → JsNumber) (idOf : Row → Nat) (toResponse : Row → Item)
    (rows left : List Row) (page : PaginatedResult Item) : Prop where
  items : page.items = (left.take page.items.length).map toResponse
  null : page.nextCursor = none → left.drop page.items.length = []
  next : ∀ next, page.nextCursor = some next → left.drop page.items.length ≠ [] ∧
    moreThan idOf (afterId number (some next)) rows = some (left.drop page.items.length)

/-- What an answer to `cursor` owes if there is one. -/
def NullMeansEnd (number : Text → JsNumber) (idOf : Row → Nat) (toResponse : Row → Item)
    (rows : List Row) (cursor : Option Text) (answer : Option (PaginatedResult Item)) : Prop :=
  ∀ page, answer = some page → ∀ left, moreThan idOf (afterId number cursor) rows = some left →
    TellsEnd number idOf toResponse rows left page

/-- The limits that leave room for the rows after the cursor, or find none there. With a limit of -1
the list that joins relations reads all of the rows and leaves the last one out; the other reads
none. -/
def LimitFits (joined : Bool) (limit : Int) (left : List Row) : Prop :=
  (limit = 0 → left = []) ∧ (limit = -1 → if joined then left.length ≠ 1 else left = [])

/-! ### The rows after a cursor -/

theorem moreThan_sublist {after : JsNumber} (hleft : moreThan idOf after rows = some left) :
    left.Sublist rows := by
  unfold moreThan at hleft
  split_ifs at hleft
  · cases hleft
    exact List.Sublist.refl _
  · obtain ⟨value, -, rfl⟩ := Option.map_eq_some_iff.mp hleft
    exact List.filter_sublist

/-- What is above a row of `left` is in `left`. -/
theorem above_of_moreThan {after : JsNumber} (hleft : moreThan idOf after rows = some left)
    {row : Row} (hrow : row ∈ left) :
    Keyset.above idOf (idOf row) rows = Keyset.above idOf (idOf row) left := by
  unfold moreThan at hleft
  split_ifs at hleft
  · cases hleft
    rfl
  · obtain ⟨value, -, rfl⟩ := Option.map_eq_some_iff.mp hleft
    have hvalue := of_decide_eq_true (List.mem_filter.mp hrow).2
    unfold Keyset.above
    rw [List.filter_filter]
    refine List.filter_congr fun other _ => ?_
    rw [Bool.eq_iff_iff, Bool.and_eq_true, decide_eq_true_eq, decide_eq_true_eq]
    omega

theorem above_last {count : Nat} {row : Row}
    (hsorted : left.Pairwise fun left right => idOf left < idOf right)
    (hlast : (left.take count).getLast? = some row) :
    Keyset.above idOf (idOf row) left = left.drop count := by
  obtain ⟨front, hfront⟩ := List.getLast?_eq_some_iff.mp hlast
  have hsplit : left = front ++ row :: left.drop count := by
    conv_lhs => rw [← List.take_append_drop count left, hfront]
    rw [List.append_assoc, List.singleton_append]
  rw [hsplit] at hsorted
  obtain ⟨-, hback, hacross⟩ := List.pairwise_append.mp hsorted
  have hbefore : (front.filter fun other => idOf row < idOf other) = [] := by
    rw [List.filter_eq_nil_iff]
    intro other hother
    have hlt := hacross other hother row List.mem_cons_self
    rw [decide_eq_true_eq]
    omega
  have hafter : ((left.drop count).filter fun other => idOf row < idOf other) =
      left.drop count := by
    rw [List.filter_eq_self]
    intro other hother
    exact decide_eq_true ((List.pairwise_cons.mp hback).1 other hother)
  calc
    Keyset.above idOf (idOf row) left =
        (front ++ row :: left.drop count).filter fun other => idOf row < idOf other := by
      rw [← hsplit, Keyset.above]
    _ = left.drop count := by
      rw [List.filter_append, hbefore, List.filter_cons_of_neg (by simp), hafter, List.nil_append]

theorem moreThan_encodeCursor (hnumber : ReadsDecimals number)
    (hserial : ∀ row ∈ rows, 0 < idOf row ∧ idOf row ≤ 2147483647) {row : Row} (hrow : row ∈ rows) :
    moreThan idOf (afterId number (some (encodeCursor (decimal (idOf row))))) rows =
      some (Keyset.above idOf (idOf row) rows) := by
  obtain ⟨hpositive, hbound⟩ := hserial row hrow
  have hfits : fitsInt4 (idOf row) = true := by
    simp only [fitsInt4, Bool.and_eq_true, decide_eq_true_eq]
    omega
  have hcursor : cursorAfter (idOf row) = some (encodeCursor (decimal (idOf row))) :=
    if_neg (Nat.ne_of_gt hpositive)
  rw [← hcursor, afterId_cursorAfter hnumber hfits]
  exact moreThan_integer hfits fun other hother => (hserial other hother).1

/-! ### Pages -/

theorem tellsEnd_take (hnumber : ReadsDecimals number)
    (hsorted : rows.Pairwise fun left right => idOf left < idOf right)
    (hserial : ∀ row ∈ rows, 0 < idOf row ∧ idOf row ≤ 2147483647)
    (hleft : moreThan idOf (afterId number cursor) rows = some left) {count : Nat}
    (hcount : 0 < count) :
    TellsEnd number idOf toResponse rows left
      { items := (left.take count).map toResponse
        nextCursor :=
          if count < left.length then
            (left.take count).getLast?.map fun lastItem => encodeCursor (decimal (idOf lastItem))
          else none } := by
  have hsublist := moreThan_sublist hleft
  have hlength : ((left.take count).map toResponse).length = min count left.length := by
    rw [List.length_map, List.length_take]
  refine ⟨?_, ?_, ?_⟩
  · simp only [hlength]
    rw [← List.take_eq_take_min]
  · simp only [hlength]
    intro hnull
    split_ifs at hnull with hmore
    · have hempty : (left.take count).getLast? = none := by simpa using hnull
      rw [List.getLast?_eq_none_iff, List.take_eq_nil_iff] at hempty
      obtain hzero | rfl := hempty
      · omega
      · exact List.drop_nil
    · rw [Nat.min_eq_right (Nat.le_of_not_lt hmore), List.drop_length]
  · simp only [hlength]
    intro next hnext
    split_ifs at hnext with hmore
    obtain ⟨row, hlast, rfl⟩ := Option.map_eq_some_iff.mp hnext
    have hrow : row ∈ left := List.mem_of_mem_take (List.mem_of_getLast? hlast)
    rw [Nat.min_eq_left (Nat.le_of_lt hmore)]
    refine ⟨?_, ?_⟩
    · rw [ne_eq, List.drop_eq_nil_iff]
      omega
    · rw [moreThan_encodeCursor hnumber hserial (hsublist.mem hrow), above_of_moreThan hleft hrow,
        above_last (hsorted.sublist hsublist) hlast]

theorem tellsEnd_empty : TellsEnd number idOf toResponse rows left ⟨[], none⟩ ↔ left = [] := by
  constructor
  · intro htells
    exact htells.null rfl
  · rintro rfl
    exact ⟨rfl, fun _ => rfl, fun next hnext => nomatch hnext⟩

/-- With a limit of 0 the page has no last row to make a cursor from. -/
theorem pageOf_zero : pageOf idOf toResponse 0 left = ⟨[], none⟩ := by
  have hslice : slice 0 left = [] := slice_limit 0 left
  rw [pageOf, hslice, List.getLast?_nil, Option.map_none, List.map_nil, ite_self]

/-- With a limit of -1 no row is looked for ahead, and the last row that was read is cut off. -/
theorem pageOf_neg_one : pageOf idOf toResponse (-1) left =
    { items := (left.take (left.length - 1)).map toResponse
      nextCursor :=
        (left.take (left.length - 1)).getLast?.map fun lastItem =>
          encodeCursor (decimal (idOf lastItem)) } := by
  have hslice : slice (-1) left = left.take (left.length - 1) := if_neg (by decide)
  have hmore : (-1 : Int) < left.length := by omega
  rw [pageOf, hslice, if_pos hmore]

theorem tellsEnd_neg_one (hnumber : ReadsDecimals number)
    (hsorted : rows.Pairwise fun left right => idOf left < idOf right)
    (hserial : ∀ row ∈ rows, 0 < idOf row ∧ idOf row ≤ 2147483647)
    (hleft : moreThan idOf (afterId number cursor) rows = some left) :
    TellsEnd number idOf toResponse rows left (pageOf idOf toResponse (-1) left) ↔
      left.length ≠ 1 := by
  rw [pageOf_neg_one]
  by_cases htwo : 2 ≤ left.length
  · have htells : TellsEnd number idOf toResponse rows left _ :=
      tellsEnd_take hnumber hsorted hserial hleft (Nat.sub_pos_of_lt htwo)
    rw [if_pos (Nat.sub_lt (Nat.lt_of_lt_of_le Nat.zero_lt_two htwo) Nat.one_pos)] at htells
    exact iff_of_true htells (by omega)
  · have hcut : left.length - 1 = 0 := by omega
    rw [hcut, List.take_zero, List.getLast?_nil, Option.map_none, List.map_nil, tellsEnd_empty,
      ← List.length_eq_zero_iff]
    omega

/-- What a limit of -1 comes to in either list. -/
theorem tellsEnd_window_neg_one (hnumber : ReadsDecimals number)
    (hsorted : rows.Pairwise fun left right => idOf left < idOf right)
    (hserial : ∀ row ∈ rows, 0 < idOf row ∧ idOf row ≤ 2147483647)
    (hleft : moreThan idOf (afterId number cursor) rows = some left) (joined : Bool) :
    TellsEnd number idOf toResponse rows left (pageOf idOf toResponse (-1)
        ((if joined then none else some 0 : Option Nat).elim left left.take)) ↔
      if joined then left.length ≠ 1 else left = [] := by
  cases joined with
  | true => exact tellsEnd_neg_one hnumber hsorted hserial hleft
  | false => exact tellsEnd_empty

/-- When an answer tells the end of the list: its limit is from 1 on, or there is little to cut. -/
theorem nullMeansEnd_iff (hnumber : ReadsDecimals number) {joined : Bool}
    (htake : LimitsRows joined take)
    (hsorted : rows.Pairwise fun left right => idOf left < idOf right)
    (hserial : ∀ row ∈ rows, 0 < idOf row ∧ idOf row ≤ 2147483647) (limit : Int) :
    NullMeansEnd number idOf toResponse rows cursor
        (findPage number take idOf toResponse (.integer limit) cursor rows) ↔
      ∀ left, moreThan idOf (afterId number cursor) rows = some left →
        LimitFits joined limit left := by
  unfold NullMeansEnd
  cases hleft : moreThan idOf (afterId number cursor) rows with
  | none => simp [findPage, hleft]
  | some left =>
      have hlength : left.length ≤ 2147483647 :=
        Nat.le_trans (moreThan_sublist hleft).length_le (Keyset.length_le hsorted hserial)
      have hcalls : (∀ page, findPage number take idOf toResponse (.integer limit) cursor rows =
            some page → ∀ left', some left = some left' →
            TellsEnd number idOf toResponse rows left' page) ↔
          ∀ window, take (limit + 1) = some window → TellsEnd number idOf toResponse rows left
            (pageOf idOf toResponse limit (window.elim left left.take)) := by
        simp [findPage, hleft]
      rw [hcalls]
      simp only [Option.some.injEq, forall_eq']
      obtain hneg | rfl | rfl | hpos : limit < -1 ∨ limit = -1 ∨ limit = 0 ∨ 1 ≤ limit := by omega
      · rw [htake.negative _ (by omega)]
        refine iff_of_true (by simp) ⟨?_, ?_⟩ <;> intro hlimit <;> omega
      · rw [show (-1 : Int) + 1 = 0 from rfl, htake.zero]
        simp only [Option.some.injEq, forall_eq', LimitFits,
          tellsEnd_window_neg_one hnumber hsorted hserial hleft joined]
        simp
      · rw [show (0 : Int) + 1 = (1 : Nat) from rfl, htake.exact 1 Nat.one_pos (by omega)]
        simp [LimitFits, pageOf_zero, tellsEnd_empty]
      · obtain ⟨limit, rfl⟩ := Int.eq_ofNat_of_zero_le (Int.le_trans Int.one_nonneg hpos)
        refine iff_of_true ?_ ⟨?_, ?_⟩
        · intro window hwindow
          rw [pageOf_pos (window_fits htake hlength hwindow)]
          exact tellsEnd_take hnumber hsorted hserial hleft (by omega)
        · intro hlimit
          omega
        · intro hlimit
          omega

end Marketplace.Pagination

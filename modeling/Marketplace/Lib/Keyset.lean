import Mathlib.Data.List.Basic
import Mathlib.Data.List.Nodup
import Mathlib.Data.List.Perm.Subperm
import Mathlib.Order.Basic

/-!
# Keyset pagination

A table is read page by page: each page holds the first rows above the key of the last row that was
read, and reading goes on as long as there was one row more than the page has room for. The table
may change between two pages; `tables call` is what the call sees.
-/

namespace Keyset

variable {Row : Type} (key : Row → Nat) (limit : Nat) (tables : Nat → List Row)

/-- The rows a page is taken from. -/
def above (last : Nat) (rows : List Row) : List Row := rows.filter fun row => last < key row

/-- All the pages from one call on, put together. -/
inductive Pages : Nat → Nat → List Row → Prop
  | last {call last : Nat} (hend : ¬ limit < (above key last (tables call)).length) :
      Pages call last ((above key last (tables call)).take limit)
  | more {call last : Nat} {row : Row} {rest : List Row}
      (hmore : limit < (above key last (tables call)).length)
      (hlast : ((above key last (tables call)).take limit).getLast? = some row)
      (hrest : Pages (call + 1) (key row) rest) :
      Pages call last ((above key last (tables call)).take limit ++ rest)

/-- Tables in the order of their keys that only lose what nobody is looking for: a key that was
there stays there. -/
structure Grows (bound : Nat) : Prop where
  sorted : ∀ call, (tables call).Pairwise fun left right => key left < key right
  bounded : ∀ call, ∀ row ∈ tables call, key row ≤ bound
  kept : ∀ call, ∀ row ∈ tables call, ∃ row' ∈ tables (call + 1), key row' = key row

variable {key limit tables} {bound call last : Nat} {rows : List Row} {row : Row}

theorem mem_above : row ∈ above key last rows ↔ row ∈ rows ∧ last < key row := by
  rw [above, List.mem_filter, decide_eq_true_eq]

theorem length_le (hsorted : rows.Pairwise fun left right => key left < key right)
    (hbounded : ∀ row ∈ rows, 0 < key row ∧ key row ≤ bound) : rows.length ≤ bound := by
  have hnodup : (rows.map key).Nodup := List.pairwise_map.mpr (hsorted.imp Nat.ne_of_lt)
  have hsubset : rows.map key ⊆ List.range' 1 bound := by
    intro value hvalue
    obtain ⟨row, hrow, rfl⟩ := List.mem_map.mp hvalue
    have hrow := hbounded row hrow
    rw [List.mem_range'_1]
    omega
  have hlength := (List.subperm_of_subset hnodup hsubset).length_le
  rwa [List.length_map, List.length_range'] at hlength

theorem Grows.sorted_above (hgrows : Grows key tables bound) (call last : Nat) :
    (above key last (tables call)).Pairwise fun left right => key left < key right :=
  (hgrows.sorted call).sublist List.filter_sublist

theorem Grows.sorted_page (hgrows : Grows key tables bound) (limit call last : Nat) :
    ((above key last (tables call)).take limit).Pairwise fun left right => key left < key right :=
  (hgrows.sorted_above call last).sublist (List.take_sublist _ _)

/-- The row a page ends with comes after what the page started from. -/
theorem last_lt (hlast : ((above key last rows).take limit).getLast? = some row) :
    row ∈ rows ∧ last < key row :=
  mem_above.mp (List.mem_of_mem_take (List.mem_of_getLast? hlast))

theorem key_le_last (hgrows : Grows key tables bound)
    (hlast : ((above key last (tables call)).take limit).getLast? = some row) {other : Row}
    (hother : other ∈ (above key last (tables call)).take limit) : key other ≤ key row := by
  obtain ⟨front, hfront⟩ := List.getLast?_eq_some_iff.mp hlast
  have hsorted := hgrows.sorted_page limit call last
  rw [hfront] at hsorted hother
  rcases List.mem_append.mp hother with hold | hnew
  · exact Nat.le_of_lt
      ((List.pairwise_append.mp hsorted).2.2 other hold row List.mem_cons_self)
  · exact Nat.le_of_eq (congrArg key (List.mem_singleton.mp hnew))

/-- Reading ends: every page but the last moves up, and the keys are bounded. -/
theorem exists_pages (hlimit : 0 < limit) (hgrows : Grows key tables bound) (call last : Nat) :
    ∃ rows, Pages key limit tables call last rows := by
  obtain ⟨left, hleft⟩ : ∃ left, left = bound - last := ⟨_, rfl⟩
  induction left using Nat.strongRecOn generalizing call last with
  | ind left ih =>
      by_cases hmore : limit < (above key last (tables call)).length
      · have hne : (above key last (tables call)).take limit ≠ [] := by
          rw [← List.length_pos_iff, List.length_take]
          omega
        have hlast := List.getLast?_eq_getLast_of_ne_nil hne
        obtain ⟨hmem, hlt⟩ := last_lt hlast
        have hbound := hgrows.bounded call _ hmem
        have hless : bound - key _ < left := hleft ▸ Nat.sub_lt_sub_left (by omega) hlt
        obtain ⟨rest, hrest⟩ := ih _ hless (call + 1) _ rfl
        exact ⟨_, .more hmore hlast hrest⟩
      · exact ⟨_, .last hmore⟩

/-- What was read is in ascending order, and above where reading started. -/
theorem Pages.ascending (hgrows : Grows key tables bound)
    (hpages : Pages key limit tables call last rows) :
    rows.Pairwise (fun left right => key left < key right) ∧ ∀ row ∈ rows, last < key row := by
  induction hpages with
  | last hend =>
      exact ⟨hgrows.sorted_page _ _ _, fun row hrow => (mem_above.mp (List.mem_of_mem_take hrow)).2⟩
  | more hmore hlast hrest ih =>
      obtain ⟨hsorted, habove⟩ := ih
      have hlt := (last_lt hlast).2
      refine ⟨List.pairwise_append.mpr ⟨hgrows.sorted_page _ _ _, hsorted, ?_⟩, ?_⟩
      · intro left hleft right hright
        exact Nat.lt_of_le_of_lt (key_le_last hgrows hlast hleft) (habove right hright)
      · intro row hrow
        rcases List.mem_append.mp hrow with hpage | hlater
        · exact (mem_above.mp (List.mem_of_mem_take hpage)).2
        · exact Nat.lt_trans hlt (habove row hlater)

theorem Pages.mem_tables (hpages : Pages key limit tables call last rows) (hrow : row ∈ rows) :
    ∃ call, row ∈ tables call := by
  induction hpages with
  | last hend => exact ⟨_, (mem_above.mp (List.mem_of_mem_take hrow)).1⟩
  | more hmore hlast hrest ih =>
      rcases List.mem_append.mp hrow with hpage | hlater
      · exact ⟨_, (mem_above.mp (List.mem_of_mem_take hpage)).1⟩
      · exact ih hlater

/-- Nothing is skipped that was there when reading started. -/
theorem Pages.complete (hgrows : Grows key tables bound)
    (hpages : Pages key limit tables call last rows) (hrow : row ∈ tables call)
    (hlt : last < key row) : ∃ found ∈ rows, key found = key row := by
  induction hpages generalizing row with
  | last hend =>
      refine ⟨row, ?_, rfl⟩
      rw [List.take_of_length_le (Nat.le_of_not_lt hend)]
      exact mem_above.mpr ⟨hrow, hlt⟩
  | @more call last lastRow rest hmore hlast hrest ih =>
      have habove : row ∈ above key last (tables call) := mem_above.mpr ⟨hrow, hlt⟩
      rw [← List.take_append_drop limit (above key last (tables call))] at habove
      rcases List.mem_append.mp habove with hpage | hlater
      · exact ⟨row, List.mem_append_left _ hpage, rfl⟩
      · -- the row is above the page, so it is still there for the next one
        have hsorted := hgrows.sorted_above call last
        rw [← List.take_append_drop limit (above key last (tables call))] at hsorted
        have hnext : key lastRow < key row :=
          (List.pairwise_append.mp hsorted).2.2 _ (List.mem_of_getLast? hlast) row hlater
        obtain ⟨row', hrow', hkey⟩ := hgrows.kept call row hrow
        obtain ⟨found, hfound, heq⟩ := ih hrow' (hkey ▸ hnext)
        exact ⟨found, List.mem_append_right _ hfound, heq.trans hkey⟩

/-- Exactly once. -/
theorem Pages.count_eq_one (hgrows : Grows key tables bound)
    (hpages : Pages key limit tables call last rows) (hrow : row ∈ tables call)
    (hlt : last < key row) :
    (rows.filter fun found => key found = key row).length = 1 := by
  obtain ⟨found, hfound, hkey⟩ := hpages.complete hgrows hrow hlt
  obtain ⟨front, back, rfl⟩ := List.append_of_mem hfound
  have hsorted := (hpages.ascending hgrows).1
  obtain ⟨hfront, hback, hacross⟩ := List.pairwise_append.mp hsorted
  have hbefore : (front.filter fun other => key other = key row) = [] := by
    rw [List.filter_eq_nil_iff]
    intro other hother
    have hlt := hacross other hother found List.mem_cons_self
    rw [decide_eq_true_eq]
    omega
  have hafter : (back.filter fun other => key other = key row) = [] := by
    rw [List.filter_eq_nil_iff]
    intro other hother
    have hlt := (List.pairwise_cons.mp hback).1 other hother
    rw [decide_eq_true_eq]
    omega
  rw [List.filter_append, hbefore, List.filter_cons_of_pos (by simpa using hkey), hafter]
  rfl

end Keyset

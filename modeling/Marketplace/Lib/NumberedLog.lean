import Mathlib.Data.List.Range
import Mathlib.Order.Basic

/-!
# Numbered logs and bounded buffers

A log that only grows, whose entries carry the numbers 1, 2, 3, …, and the buffer of its last
entries. Asking the buffer for everything above a number gives the same answer as asking the log,
unless more than the buffer holds has been logged since.
-/

namespace NumberedLog

variable {Entry : Type} {number : Entry → Nat} {log : List Entry} {entry : Entry}

def Numbered (number : Entry → Nat) (log : List Entry) : Prop :=
  log.map number = List.range' 1 log.length

theorem numbered_nil : Numbered number [] := rfl

theorem Numbered.push (hlog : Numbered number log) (hentry : number entry = log.length + 1) :
    Numbered number (log ++ [entry]) := by
  unfold Numbered at hlog ⊢
  rw [List.map_append, hlog, List.length_append, List.length_singleton, List.range'_concat,
    List.map_singleton, hentry]
  congr 2
  omega

theorem Numbered.pairwise (hlog : Numbered number log) :
    log.Pairwise fun left right => number left < number right := by
  rw [← List.pairwise_map, hlog]
  exact List.pairwise_lt_range'

/-- The entries above a number are a suffix. -/
theorem filter_above (base : Nat) (above : Int) (log : List Entry)
    (hlog : log.map number = List.range' (base + 1) log.length) :
    (log.filter fun entry => above < number entry) = log.drop (above.toNat - base) := by
  induction log generalizing base with
  | nil => simp
  | cons first rest ih =>
      rw [List.map_cons, List.length_cons, List.range'_succ] at hlog
      obtain ⟨hfirst, hrest⟩ := List.cons_eq_cons.mp hlog
      have htail := ih (base + 1) hrest
      by_cases habove : above < number first
      · have hzero : above.toNat - base = 0 := by omega
        have hzero' : above.toNat - (base + 1) = 0 := by omega
        rw [List.filter_cons_of_pos (by simpa using habove), htail, hzero, hzero', List.drop_zero,
          List.drop_zero]
      · have hsucc : above.toNat - base = above.toNat - (base + 1) + 1 := by omega
        rw [List.filter_cons_of_neg (by simpa using habove), htail, hsucc, List.drop_succ_cons]

theorem Numbered.filter_above (hlog : Numbered number log) (above : Int) :
    (log.filter fun entry => above < number entry) = log.drop above.toNat :=
  NumberedLog.filter_above 0 above log (by rw [Nat.zero_add]; exact hlog)

theorem Numbered.number_pos (hlog : Numbered number log) (hmem : entry ∈ log) :
    0 < number entry := by
  have hnumber : number entry ∈ log.map number := List.mem_map_of_mem hmem
  rw [hlog, List.mem_range'_1] at hnumber
  omega

/-- The number of the last entry that somebody has seen, 0 if there is none. -/
def lastNumber (number : Entry → Nat) (seen : List Entry) : Nat :=
  (seen.getLast?.map number).getD 0

theorem number_le_lastNumber {seen : List Entry}
    (hsorted : seen.Pairwise fun left right => number left < number right) (hmem : entry ∈ seen) :
    number entry ≤ lastNumber number seen := by
  induction seen using List.reverseRecOn with
  | nil => cases hmem
  | append_singleton front last _ =>
      rw [lastNumber, List.getLast?_concat, Option.map_some, Option.getD_some]
      rcases List.mem_append.mp hmem with hfront | hlast
      · exact Nat.le_of_lt
          ((List.pairwise_append.mp hsorted).2.2 entry hfront last List.mem_cons_self)
      · rw [List.mem_singleton.mp hlast]

theorem lastNumber_lt {seen rest : List Entry} (hpos : ∀ entry ∈ rest, 0 < number entry)
    (hsorted : (seen ++ rest).Pairwise fun left right => number left < number right)
    (hmem : entry ∈ rest) : lastNumber number seen < number entry := by
  unfold lastNumber
  cases hlast : seen.getLast? with
  | none => exact hpos entry hmem
  | some last =>
      exact (List.pairwise_append.mp hsorted).2.2 last (List.mem_of_getLast? hlast) entry hmem

/-- Asking for what is above the last number seen gives exactly the entries not seen yet. -/
theorem filter_above_lastNumber {seen rest : List Entry} (hpos : ∀ entry ∈ rest, 0 < number entry)
    (hsorted : (seen ++ rest).Pairwise fun left right => number left < number right) :
    ((seen ++ rest).filter fun entry => ((lastNumber number seen : Nat) : Int) < number entry) =
      rest := by
  have hseen : (seen.filter fun entry => ((lastNumber number seen : Nat) : Int) < number entry) =
      [] := by
    rw [List.filter_eq_nil_iff]
    intro entry hentry
    have hle := number_le_lastNumber (List.pairwise_append.mp hsorted).1 hentry
    rw [decide_eq_true_eq]
    omega
  have hrest : (rest.filter fun entry => ((lastNumber number seen : Nat) : Int) < number entry) =
      rest := by
    rw [List.filter_eq_self]
    intro entry hentry
    have hlt := lastNumber_lt hpos hsorted hentry
    rw [decide_eq_true_eq]
    omega
  rw [List.filter_append, hseen, hrest, List.nil_append]

/-- The buffer: the last `limit` entries. -/
def lastOf (limit : Nat) (log : List Entry) : List Entry := log.drop (log.length - limit)

theorem lastOf_push {limit : Nat} (hlimit : 0 < limit) (log : List Entry) (entry : Entry) :
    (if limit < (lastOf limit log ++ [entry]).length then (lastOf limit log ++ [entry]).tail
      else lastOf limit log ++ [entry]) = lastOf limit (log ++ [entry]) := by
  unfold lastOf
  rw [List.length_append, List.length_drop, List.length_singleton, List.length_append,
    List.length_singleton]
  split
  · have hdrop : log.length + 1 - limit = log.length - limit + 1 := by omega
    rw [hdrop, ← List.drop_one, ← List.drop_append_of_le_length (by omega), List.drop_drop]
  · have hdrop : log.length - limit = 0 := by omega
    have hdrop' : log.length + 1 - limit = 0 := by omega
    rw [hdrop, hdrop', List.drop_zero, List.drop_zero]

/-- Where a replay of the buffer begins in the log. -/
theorem Numbered.filter_lastOf (hlog : Numbered number log) (limit : Nat) (above : Int) :
    ((lastOf limit log).filter fun entry => above < number entry) =
      log.drop (max (log.length - limit) above.toNat) := by
  have hsplit : log.drop (log.length - limit) =
      log.filter fun entry => ((log.length - limit : Nat) : Int) < number entry := by
    rw [hlog.filter_above, Int.toNat_natCast]
  rw [lastOf, hsplit, List.filter_filter, ← Int.toNat_natCast (max _ _), ← hlog.filter_above]
  refine List.filter_congr fun entry hentry => ?_
  rw [Bool.eq_iff_iff, Bool.and_eq_true, decide_eq_true_eq, decide_eq_true_eq, decide_eq_true_eq]
  omega

/-- What a subscription sees that starts at some place of the log: the entries of its kind from
there. -/
def follow (wanted : Entry → Bool) (start : Nat) (log : List Entry) : List Entry :=
  (log.drop start).filter wanted

theorem follow_push (wanted : Entry → Bool) (entry : Entry) {start : Nat}
    (hstart : start ≤ log.length) :
    follow wanted start (log ++ [entry]) =
      follow wanted start log ++ (if wanted entry then [entry] else []) := by
  rw [follow, List.drop_append_of_le_length hstart, List.filter_append, follow]
  cases hwanted : wanted entry <;> simp [hwanted]

theorem follow_suffix (wanted : Entry → Bool) (start : Nat) (log : List Entry) :
    follow wanted start log <:+ log.filter wanted :=
  (List.drop_suffix start log).filter wanted

end NumberedLog

import Mathlib.Data.List.Perm.Subperm

/-!
# The exact sliding window

A plain log of events in the order of their times, and the rule that lets one more in if the window
that ends with it has room. No interval of the window's length ever holds more than the limit.
-/

namespace SlidingWindow

variable {Event : Type} (time : Event → Int) {log : List Event} {event : Event} {limit window : Int}

/-- The events in the interval `(lo, hi]`. -/
def between (log : List Event) (lo hi : Int) : List Event :=
  log.filter fun event => lo < time event && time event ≤ hi

def Bounded (limit window : Int) (log : List Event) : Prop :=
  ∀ start, ((between time log start (start + window)).length : Int) ≤ limit

theorem between_eq_filter {lo hi : Int} (hle : ∀ event ∈ log, time event ≤ hi) :
    between time log lo hi = log.filter fun event => lo < time event := by
  refine List.filter_congr fun event hevent => ?_
  simp [hle event hevent]

theorem between_append (log rest : List Event) (lo hi : Int) :
    between time (log ++ rest) lo hi = between time log lo hi ++ between time rest lo hi :=
  List.filter_append ..

theorem between_singleton {lo hi : Int} (hlo : lo < time event) (hhi : time event ≤ hi) :
    between time [event] lo hi = [event] := by
  simp [between, hlo, hhi]

theorem length_between_mono {lo hi lo' hi' : Int}
    (hmono : ∀ event ∈ log, lo < time event → time event ≤ hi → lo' < time event ∧
      time event ≤ hi') :
    (between time log lo hi).length ≤ (between time log lo' hi').length := by
  unfold between
  rw [← List.countP_eq_length_filter, ← List.countP_eq_length_filter]
  apply List.countP_mono_left
  intro event hevent hin
  simp only [Bool.and_eq_true, decide_eq_true_eq] at hin ⊢
  exact hmono event hevent hin.1 hin.2

/-- Until the first event of a window leaves it, nothing does. -/
theorem length_between_le {now later first : Int} (rest : List Event)
    (hfirst : ∀ event ∈ between time log (now - window) now, first ≤ time event)
    (hnow : now ≤ later) (hlater : later < first + window) :
    (between time log (now - window) now).length ≤
      (between time (log ++ rest) (later - window) later).length := by
  rw [between_append, List.length_append]
  apply Nat.le_add_right_of_le
  apply length_between_mono
  intro event hevent hlo hhi
  have hle := hfirst event (List.mem_filter.mpr ⟨hevent, by simp [hlo, hhi]⟩)
  omega

/-- Once an event has left it and no other has come, the window has room. -/
theorem length_between_lt {now later : Int} (hle : ∀ event ∈ log, time event ≤ now)
    (hevent : event ∈ between time log (now - window) now) (hnow : now ≤ later)
    (hlater : time event + window ≤ later) :
    (between time log (later - window) later).length <
      (between time log (now - window) now).length := by
  have hkept : between time log (later - window) later =
      (between time log (now - window) now).filter fun event => later - window < time event := by
    unfold between
    rw [List.filter_filter]
    refine List.filter_congr fun other hother => ?_
    have hother := hle other hother
    rw [Bool.eq_iff_iff]
    simp only [Bool.and_eq_true, decide_eq_true_eq]
    omega
  rw [hkept, List.length_filter_lt_length_iff_exists]
  refine ⟨event, hevent, ?_⟩
  rw [decide_eq_true_eq]
  omega

theorem bounded_nil (hlimit : 0 ≤ limit) : Bounded time limit window [] := fun _ => hlimit

theorem Bounded.push (hbounded : Bounded time limit window log)
    (hle : ∀ other ∈ log, time other ≤ time event)
    (hroom : ((between time log (time event - window) (time event)).length : Int) < limit) :
    Bounded time limit window (log ++ [event]) := by
  intro start
  rw [between_append, List.length_append]
  by_cases hin : start < time event ∧ time event ≤ start + window
  · rw [between_singleton time hin.1 hin.2, List.length_singleton]
    -- what shares an interval with the new event is in the window that ends with it
    have hshared : (between time log start (start + window)).length ≤
        (between time log (time event - window) (time event)).length := by
      apply length_between_mono
      intro other hother hlo hhi
      have hother := hle other hother
      omega
    omega
  · have hnone : (between time [event] start (start + window)).length = 0 := by
      simpa [between] using fun hlo => Int.not_le.mp fun hhi => hin ⟨hlo, hhi⟩
    have hold := hbounded start
    omega

/-- What is picked out of a log, each event once, is bounded with it. -/
theorem Bounded.of_subset {picked : List Event} (hbounded : Bounded time limit window log)
    (hnodup : picked.Nodup) (hsubset : ∀ event ∈ picked, event ∈ log) :
    Bounded time limit window picked := by
  intro start
  have hpicked :
      between time picked start (start + window) ⊆ between time log start (start + window) := by
    intro event hevent
    obtain ⟨hmem, hin⟩ := List.mem_filter.mp hevent
    exact List.mem_filter.mpr ⟨hsubset event hmem, hin⟩
  have hlength := (List.subperm_of_subset (hnodup.filter _) hpicked).length_le
  exact Int.le_trans (Int.ofNat_le.mpr hlength) (hbounded start)

/-- A log of the same events under other names. -/
theorem between_map {Event' : Type} (rename : Event' → Event) (log : List Event') (lo hi : Int) :
    between time (log.map rename) lo hi = (between (time ∘ rename) log lo hi).map rename :=
  List.filter_map

/-- The same for intervals that are open on the right. -/
theorem Bounded.half_open (hbounded : Bounded time limit window log) (start : Int) :
    ((log.filter fun event => start ≤ time event && time event < start + window).length : Int) ≤
      limit := by
  have hshift : (log.filter fun event => start ≤ time event && time event < start + window) =
      between time log (start - 1) (start - 1 + window) := by
    refine List.filter_congr fun event _ => ?_
    rw [Bool.eq_iff_iff]
    simp only [Bool.and_eq_true, decide_eq_true_eq]
    omega
  rw [hshift]
  exact hbounded (start - 1)

end SlidingWindow

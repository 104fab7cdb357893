import Mathlib.Logic.Relation
import Mathlib.Tactic.Push

/-!
# Locks without a circle of waits

Two reasons why transactions never wait for each other in a circle, however many there are.

Where the locks have ranks, and each transaction asks only for locks above all that it holds, the
ranks rise along the waits.

A batch is a transaction that has fixed the set of rows it will lock and takes them in an order of
its own. Two batches are crossed when each still needs a row that is in the other's set, and these
are two different rows. No batches wait in a circle if no two are crossed, and of three batches the
middle one has every row that the outer two share.
-/

namespace LockOrder

open Relation

/-! ### Circles -/

section Circles

variable {Tx : Type} {Waits Waits' : Tx → Tx → Prop} {tx : Tx}

theorem waitedFor_of_circle (hcircle : TransGen Waits tx tx) :
    ∃ waiter, Waits waiter tx ∧ TransGen Waits waiter waiter := by
  obtain ⟨waiter, hpath, hwaits⟩ := TransGen.tail'_iff.mp hcircle
  exact ⟨waiter, hwaits, TransGen.head' hwaits hpath⟩

theorem waits_of_circle (hcircle : TransGen Waits tx tx) :
    ∃ holder, Waits tx holder ∧ TransGen Waits holder holder := by
  obtain ⟨holder, hwaits, hpath⟩ := TransGen.head'_iff.mp hcircle
  exact ⟨holder, hwaits, TransGen.tail' hpath hwaits⟩

/-- In a circle everybody waits and is waited for. -/
theorem circle_mono
    (hmono : ∀ waiter holder, (∃ before, Waits before waiter) → Waits waiter holder →
      (∃ next, Waits holder next) → Waits' waiter holder)
    (hcircle : TransGen Waits tx tx) : TransGen Waits' tx tx := by
  have hpath : ∀ start, TransGen Waits start tx → (∃ before, Waits before start) →
      TransGen Waits' start tx := by
    intro start hpath hbefore
    induction hpath using TransGen.head_induction_on with
    | single hwaits =>
        obtain ⟨next, hnext, -⟩ := waits_of_circle hcircle
        exact .single (hmono _ _ hbefore hwaits ⟨next, hnext⟩)
    | head hwaits hrest ih =>
        obtain ⟨next, hnext, -⟩ := TransGen.head'_iff.mp hrest
        exact .head (hmono _ _ hbefore hwaits ⟨next, hnext⟩) (ih ⟨_, hwaits⟩)
  obtain ⟨waiter, hwaits, -⟩ := waitedFor_of_circle hcircle
  exact hpath tx hcircle ⟨waiter, hwaits⟩

end Circles

/-! ### Locks with ranks -/

section Ranks

variable {Tx Key : Type} {Waits : Tx → Tx → Prop} {asks holds : Tx → Key → Prop} {rank : Key → Nat}
  {first last tx : Tx} {key : Key} {bound : Nat}

structure Ranked (Waits : Tx → Tx → Prop) (asks holds : Tx → Key → Prop) (rank : Key → Nat) :
    Prop where
  asked : ∀ waiter holder, Waits waiter holder → ∃ key, asks waiter key ∧ holds holder key
  above : ∀ tx key key', asks tx key → holds tx key' → rank key' < rank key

/-- The last of a chain of waits holds a lock at least as high as the one the first asks for. -/
theorem Ranked.rank_le (hranked : Ranked Waits asks holds rank)
    (hpath : TransGen Waits first last) :
    ∃ key key', asks first key ∧ holds last key' ∧ rank key ≤ rank key' := by
  induction hpath with
  | single hwaits =>
      obtain ⟨key, hasks, hholds⟩ := hranked.asked _ _ hwaits
      exact ⟨key, key, hasks, hholds, Nat.le_refl _⟩
  | tail _ hwaits ih =>
      obtain ⟨key, held, hasks, hheld, hle⟩ := ih
      obtain ⟨key', hasks', hholds'⟩ := hranked.asked _ _ hwaits
      have hlt := hranked.above _ key' held hasks' hheld
      exact ⟨key, key', hasks, hholds', by omega⟩

theorem Ranked.no_circle (hranked : Ranked Waits asks holds rank) (tx : Tx) :
    ¬ TransGen Waits tx tx := by
  intro hcircle
  obtain ⟨key, key', hasks, hholds, hle⟩ := hranked.rank_le hcircle
  have hlt := hranked.above tx key key' hasks hholds
  omega

theorem Ranked.exists_free_of_holds (hranked : Ranked Waits asks holds rank)
    (hbound : ∀ key, rank key ≤ bound) (hholds : holds tx key) :
    ∃ last, ReflTransGen Waits tx last ∧ ∀ next, ¬ Waits last next := by
  induction hgap : bound - rank key using Nat.strongRecOn generalizing tx key with
  | ind gap ih =>
      by_cases hfree : ∀ next, ¬ Waits tx next
      · exact ⟨tx, .refl, hfree⟩
      · push Not at hfree
        obtain ⟨next, hwaits⟩ := hfree
        obtain ⟨key', hasks, hnext⟩ := hranked.asked _ _ hwaits
        have hlt := hranked.above tx key' key hasks hholds
        have hle := hbound key'
        obtain ⟨last, hpath, hlast⟩ := ih (bound - rank key') (by omega) hnext rfl
        exact ⟨last, .head hwaits hpath, hlast⟩

/-- Whoever waits, waits in the end for a transaction that does not. -/
theorem Ranked.exists_free (hranked : Ranked Waits asks holds rank)
    (hbound : ∀ key, rank key ≤ bound) (tx : Tx) :
    ∃ last, ReflTransGen Waits tx last ∧ ∀ next, ¬ Waits last next := by
  by_cases hfree : ∀ next, ¬ Waits tx next
  · exact ⟨tx, .refl, hfree⟩
  · push Not at hfree
    obtain ⟨next, hwaits⟩ := hfree
    obtain ⟨key, -, hnext⟩ := hranked.asked _ _ hwaits
    obtain ⟨last, hpath, hlast⟩ := hranked.exists_free_of_holds hbound hnext
    exact ⟨last, .head hwaits hpath, hlast⟩

end Ranks

/-! ### Batches -/

/-- For each transaction: whether it is a batch, the rows of its set, and those it has locked. -/
structure Batches (Tx Key : Type) where
  running : Tx → Prop
  locks : Tx → Key → Prop
  holds : Tx → Key → Prop

namespace Batches

variable {Tx Key : Type} (batches : Batches Tx Key)

/-- A row of the set that is not locked yet. -/
def Needs (tx : Tx) (key : Key) : Prop := batches.locks tx key ∧ ¬ batches.holds tx key

def Waits (waiter holder : Tx) : Prop :=
  batches.running waiter ∧ batches.running holder ∧
    ∃ key, batches.Needs waiter key ∧ batches.holds holder key

def Crossed (left right : Tx) : Prop :=
  ∃ key key', key ≠ key' ∧ batches.Needs left key ∧ batches.locks right key ∧
    batches.Needs right key' ∧ batches.locks left key'

/-- `rank` is the order in which the batches fixed their sets. -/
structure Ordered (rank : Tx → Nat) : Prop where
  holds_locks : ∀ tx key, batches.running tx → batches.holds tx key → batches.locks tx key
  exclusive : ∀ tx other key, batches.holds tx key → batches.holds other key → tx = other
  rank_inj : ∀ tx other, batches.running tx → batches.running other →
    rank tx = rank other → tx = other
  convex : ∀ first middle last, batches.running first → batches.running middle →
    batches.running last → rank first < rank middle →
    rank middle < rank last →
    (∃ key, batches.locks first key ∧ batches.locks middle key) →
    ∀ key, batches.locks first key → batches.locks last key → batches.locks middle key
  uncrossed : ∀ left right, batches.running left → batches.running right → left ≠ right →
    ¬ batches.Crossed left right

variable {batches} {rank : Tx → Nat} {first middle last tx : Tx}

theorem Waits.ne (hwaits : batches.Waits first last) : first ≠ last := by
  rintro rfl
  obtain ⟨-, -, key, hneeds, hholds⟩ := hwaits
  exact hneeds.2 hholds

/-- Going back along the waits, once a batch is older than the one it waits for, all are. -/
theorem Ordered.older (hordered : batches.Ordered rank) (hfirst : batches.Waits first middle)
    (hmiddle : batches.Waits middle last) (hrank : rank middle < rank last) :
    rank first < rank middle := by
  have hne := hfirst.ne
  obtain ⟨hrunFirst, hrunMiddle, key, hneeds, hheld⟩ := hfirst
  obtain ⟨-, hrunLast, key', hneeds', hheld'⟩ := hmiddle
  have hkey : batches.locks middle key := hordered.holds_locks _ _ hrunMiddle hheld
  have hkey' : batches.locks last key' := hordered.holds_locks _ _ hrunLast hheld'
  have hdiff : key' ≠ key := by
    rintro rfl
    exact hneeds'.2 hheld
  rcases Nat.lt_trichotomy (rank first) (rank middle) with hlt | heq | hgt
  · exact hlt
  · exact absurd (hordered.rank_inj _ _ hrunFirst hrunMiddle heq) hne
  · rcases Nat.lt_or_ge (rank first) (rank last) with hlast | hlast
    · -- it started between the two, so it needs the row that they share as well
      have hseen : batches.locks first key' :=
        hordered.convex middle first last hrunMiddle hrunFirst
        hrunLast hgt hlast ⟨key, hkey, hneeds.1⟩ key' hneeds'.1 hkey'
      exact absurd ⟨key', key, hdiff, hneeds', hseen, hneeds, hkey⟩
        (hordered.uncrossed middle first hrunMiddle hrunFirst hne.symm)
    · -- it started last, or is the last one: the last one has the row it waits for in its set
      have hseen : batches.locks last key := by
        rcases Nat.eq_or_lt_of_le hlast with heq | hlt
        · rw [hordered.rank_inj _ _ hrunLast hrunFirst heq]
          exact hneeds.1
        · exact hordered.convex middle last first hrunMiddle hrunLast hrunFirst hrank hlt
            ⟨key', hneeds'.1, hkey'⟩ key hkey hneeds.1
      have hother : middle ≠ last := by
        rintro rfl
        exact Nat.lt_irrefl _ hrank
      have hfree : ¬ batches.holds last key := fun hlastHeld =>
        hother (hordered.exclusive _ _ _ hheld hlastHeld)
      exact absurd ⟨key', key, hdiff, hneeds', hkey', ⟨hseen, hfree⟩, hkey⟩
        (hordered.uncrossed middle last hrunMiddle hrunLast hother)

/-- In a circle somebody waits for a younger batch: the ranks cannot only fall. -/
theorem Ordered.exists_older (hordered : batches.Ordered rank)
    (hcircle : TransGen batches.Waits tx tx) :
    ∃ older younger, TransGen batches.Waits older older ∧ batches.Waits older younger ∧
      rank older < rank younger := by
  induction hrank : rank tx using Nat.strongRecOn generalizing tx with
  | ind bound ih =>
      obtain ⟨holder, hwaits, hholder⟩ := waits_of_circle hcircle
      obtain ⟨hrunTx, hrunHolder, -⟩ := id hwaits
      rcases Nat.lt_trichotomy (rank tx) (rank holder) with hlt | heq | hgt
      · exact ⟨tx, holder, hcircle, hwaits, hlt⟩
      · exact absurd (hordered.rank_inj _ _ hrunTx hrunHolder heq) hwaits.ne
      · exact ih _ (hrank ▸ hgt) hholder rfl

theorem Ordered.no_older (hordered : batches.Ordered rank) (hcircle : TransGen batches.Waits tx tx)
    (hwaits : batches.Waits tx last) (hrank : rank tx < rank last) : False := by
  induction hn : rank tx using Nat.strongRecOn generalizing tx last with
  | ind bound ih =>
      obtain ⟨waiter, hwaiter, hbefore⟩ := waitedFor_of_circle hcircle
      have holder := hordered.older hwaiter hwaits hrank
      exact ih _ (hn ▸ holder) hbefore hwaiter holder rfl

theorem Ordered.no_circle (hordered : batches.Ordered rank) (tx : Tx) :
    ¬ TransGen batches.Waits tx tx := by
  intro hcircle
  obtain ⟨older, younger, holder, hwaits, hrank⟩ := hordered.exists_older hcircle
  exact hordered.no_older holder hwaits hrank

end Batches

end LockOrder

import Mathlib.Algebra.Order.Ring.Int
import Mathlib.Data.List.Basic
import Mathlib.Data.List.Nodup
import Mathlib.Logic.Function.Basic

/-!
# Insert-only tables

A table whose rows are inserted and never updated: every row with the transaction that inserted it.
A row is committed when its transaction is, which the caller says by a predicate on transactions; a
rollback takes the rows of its transaction out.
-/

namespace ReadCommitted

abbrev Inserts (Tx Row : Type) := List (Tx × Row)

namespace Inserts

variable {Tx Row : Type}

def insert (rows : Inserts Tx Row) (tx : Tx) (row : Row) : Inserts Tx Row := rows ++ [(tx, row)]

def insertAll (rows : Inserts Tx Row) (tx : Tx) (new : List Row) : Inserts Tx Row :=
  rows ++ new.map fun row => (tx, row)

/-- The rows of the transactions that are not open. -/
def committed (rows : Inserts Tx Row) (isOpen : Tx → Bool) : Inserts Tx Row :=
  rows.filter fun entry => !isOpen entry.1

/-- A quantity summed over the committed rows that satisfy a condition. -/
def total (rows : Inserts Tx Row) (isOpen : Tx → Bool) (cond : Row → Bool) (weight : Row → Int) :
    Int :=
  (((rows.committed isOpen).filter fun entry => cond entry.2).map fun entry => weight entry.2).sum

variable [DecidableEq Tx]

def rollback (rows : Inserts Tx Row) (tx : Tx) : Inserts Tx Row :=
  rows.filter fun entry => entry.1 ≠ tx

def ofTx (rows : Inserts Tx Row) (tx : Tx) : List Row :=
  (rows.filter fun entry => entry.1 = tx).map Prod.snd

variable {rows : Inserts Tx Row} {tx other : Tx} {row : Row}

theorem mem_ofTx : row ∈ rows.ofTx tx ↔ (tx, row) ∈ rows := by
  simp [ofTx]

@[simp]
theorem ofTx_insert_self : (rows.insert tx row).ofTx tx = rows.ofTx tx ++ [row] := by
  simp [insert, ofTx, List.filter_append]

theorem ofTx_insertAll_self {new : List Row} :
    (rows.insertAll tx new).ofTx tx = rows.ofTx tx ++ new := by
  simp [insertAll, ofTx, List.filter_append, List.filter_map, Function.comp_def]

theorem ofTx_insertAll_of_ne {new : List Row} (hne : other ≠ tx) :
    (rows.insertAll tx new).ofTx other = rows.ofTx other := by
  simp [insertAll, ofTx, List.filter_append, hne.symm]

theorem ofTx_insert_of_ne (hne : other ≠ tx) :
    (rows.insert tx row).ofTx other = rows.ofTx other := by
  simp [insert, ofTx, List.filter_append, hne.symm]

@[simp]
theorem ofTx_rollback_self : (rows.rollback tx).ofTx tx = [] := by
  simp [rollback, ofTx, List.filter_filter]

theorem ofTx_rollback_of_ne (hne : other ≠ tx) :
    (rows.rollback tx).ofTx other = rows.ofTx other := by
  unfold rollback ofTx
  rw [List.filter_filter]
  congr 1
  refine List.filter_congr fun entry _ => ?_
  by_cases heq : entry.1 = other
  · simp [heq, hne]
  · simp [heq]

/-- Transactions that insert one row each, and at most one that inserts qualifies: one row at
most. -/
theorem length_filter_le_one (rows : Inserts Tx Row) (cond : Tx → Bool)
    (hsingle : ∀ tx, cond tx = true → (rows.ofTx tx).length ≤ 1)
    (hunique : ∀ left right, cond left = true → cond right = true → rows.ofTx left ≠ [] →
      rows.ofTx right ≠ [] → left = right) :
    (rows.filter fun entry => cond entry.1).length ≤ 1 := by
  have hwrote : ∀ entry ∈ rows, rows.ofTx entry.1 ≠ [] := fun entry hentry =>
    List.ne_nil_of_mem (mem_ofTx.mpr hentry)
  by_cases hany : ∃ entry ∈ rows, cond entry.1 = true
  · obtain ⟨⟨tx, row⟩, hentry, htx⟩ := hany
    have hsame : (rows.filter fun entry => cond entry.1) = rows.filter fun entry =>
        entry.1 = tx := by
      refine List.filter_congr fun other hother => ?_
      by_cases heq : other.1 = tx
      · simp [heq, htx]
      · have hfalse : cond other.1 = false := by
          by_contra hcond
          exact heq (hunique _ _ (Bool.of_not_eq_false hcond) htx (hwrote other hother)
            (hwrote (tx, row) hentry))
        simp [heq, hfalse]
    have hlength := hsingle tx htx
    rwa [ofTx, List.length_map, ← hsame] at hlength
  · have hnil : (rows.filter fun entry => cond entry.1) = [] := by
      rw [List.filter_eq_nil_iff]
      exact fun entry hentry hcond => hany ⟨entry, hentry, hcond⟩
    simp [hnil]

/-- Rows of one transaction only, of which there is one. -/
theorem filter_eq_singleton (rows : Inserts Tx Row) (cond : Row → Bool)
    (hrow : rows.ofTx tx = [row]) (hcond : ∀ entry ∈ rows, cond entry.2 = true ↔ entry.1 = tx) :
    (rows.filter fun entry => cond entry.2) = [(tx, row)] := by
  have hsame : (rows.filter fun entry => cond entry.2) = rows.filter fun entry => entry.1 = tx := by
    refine List.filter_congr fun entry hentry => ?_
    rw [Bool.eq_iff_iff, decide_eq_true_eq]
    exact hcond entry hentry
  rw [hsame]
  obtain ⟨⟨owner, row'⟩, hentry, rfl⟩ := List.map_eq_singleton_iff.mp hrow
  have hmem : (owner, row') ∈ rows.filter fun entry => entry.1 = tx := by simp [hentry]
  have howner : owner = tx := of_decide_eq_true (List.mem_filter.mp hmem).2
  rw [hentry, howner]

/-- The rows that satisfy a condition, where only the rows of one transaction do. -/
theorem map_filter_eq_ofTx (rows : Inserts Tx Row) (cond : Row → Bool)
    (hcond : ∀ entry ∈ rows, cond entry.2 = true ↔ entry.1 = tx) :
    (rows.filter fun entry => cond entry.2).map Prod.snd = rows.ofTx tx := by
  unfold ofTx
  congr 1
  apply List.filter_congr
  intro entry hentry
  rw [Bool.eq_iff_iff, decide_eq_true_eq]
  exact hcond entry hentry

/-! ### Rows that follow from what their transaction is doing -/

section Tracks

variable {Label : Type} {expected : Label → List Row → Prop} {labels : Tx → Label} {next : Label}

/-- The rows of every transaction are the ones its label calls for. -/
def Tracks (rows : Inserts Tx Row) (expected : Label → List Row → Prop) (labels : Tx → Label) :
    Prop :=
  ∀ tx, expected (labels tx) (rows.ofTx tx)

theorem Tracks.move {rows' : Inserts Tx Row} (htracks : rows.Tracks expected labels)
    (hother : ∀ other, other ≠ tx → rows'.ofTx other = rows.ofTx other)
    (hnext : expected next (rows'.ofTx tx)) :
    rows'.Tracks expected (Function.update labels tx next) := by
  intro other
  by_cases heq : other = tx
  · rw [heq, Function.update_self]
    exact hnext
  · rw [Function.update_of_ne heq, hother other heq]
    exact htracks other

theorem Tracks.keep (htracks : rows.Tracks expected labels)
    (hnext : ∀ written, expected (labels tx) written → expected next written) :
    rows.Tracks expected (Function.update labels tx next) :=
  htracks.move (fun _ _ => rfl) (hnext _ (htracks tx))

theorem Tracks.insert (htracks : rows.Tracks expected labels)
    (hnext : ∀ written, expected (labels tx) written → expected next (written ++ [row])) :
    (rows.insert tx row).Tracks expected (Function.update labels tx next) := by
  apply htracks.move fun other hne => ofTx_insert_of_ne hne
  rw [ofTx_insert_self]
  exact hnext _ (htracks tx)

theorem Tracks.insertAll {new : List Row} (htracks : rows.Tracks expected labels)
    (hnext : ∀ written, expected (labels tx) written → expected next (written ++ new)) :
    (rows.insertAll tx new).Tracks expected (Function.update labels tx next) := by
  apply htracks.move fun other hne => ofTx_insertAll_of_ne hne
  rw [ofTx_insertAll_self]
  exact hnext _ (htracks tx)

theorem Tracks.rollback (htracks : rows.Tracks expected labels) (hnext : expected next []) :
    (rows.rollback tx).Tracks expected (Function.update labels tx next) := by
  apply htracks.move fun other hne => ofTx_rollback_of_ne hne
  rwa [ofTx_rollback_self]

end Tracks

/-! ### Rows with the ids of a serial -/

section Serial

variable {idOf : Row → Nat} {next : Nat}

/-- The ids are different from each other, and `next` is above them all. -/
structure Serial (rows : Inserts Tx Row) (idOf : Row → Nat) (next : Nat) : Prop where
  below : ∀ entry ∈ rows, idOf entry.2 < next
  unique : (rows.map fun entry => idOf entry.2).Nodup

omit [DecidableEq Tx] in
theorem serial_nil : Serial ([] : Inserts Tx Row) idOf next :=
  ⟨fun _ hentry => absurd hentry List.not_mem_nil, List.nodup_nil⟩

omit [DecidableEq Tx] in
theorem Serial.insert (hserial : rows.Serial idOf next) (hid : idOf row = next) :
    (rows.insert tx row).Serial idOf (next + 1) where
  below entry hentry := by
    rcases List.mem_append.mp hentry with hold | hnew
    · exact Nat.lt_succ_of_lt (hserial.below entry hold)
    · rw [List.mem_singleton.mp hnew, hid]
      exact Nat.lt_succ_self next
  unique := by
    rw [Inserts.insert, List.map_append, List.nodup_append]
    refine ⟨hserial.unique, List.nodup_singleton _, ?_⟩
    intro id hold id' hnew heq
    obtain ⟨entry, hentry, rfl⟩ := List.mem_map.mp hold
    have hlt := hserial.below entry hentry
    have hfresh : id' = next := (List.mem_singleton.mp hnew).trans hid
    rw [heq, hfresh] at hlt
    exact Nat.lt_irrefl next hlt

theorem Serial.rollback (hserial : rows.Serial idOf next) :
    (rows.rollback tx).Serial idOf next where
  below entry hentry := hserial.below entry (List.mem_of_mem_filter hentry)
  unique := hserial.unique.sublist (List.Sublist.map _ List.filter_sublist)

omit [DecidableEq Tx] in
theorem Serial.eq_of_id (hserial : rows.Serial idOf next) {left right : Tx × Row}
    (hleft : left ∈ rows) (hright : right ∈ rows) (hid : idOf left.2 = idOf right.2) :
    left = right :=
  List.inj_on_of_nodup_map hserial.unique hleft hright hid

end Serial

/-! ### What a step does to the committed rows -/

section Committed

variable {isOpen isOpen' : Tx → Bool}

theorem committed_keep (htx : isOpen' tx = isOpen tx ∨ rows.ofTx tx = [])
    (hsame : ∀ other, other ≠ tx → isOpen' other = isOpen other) :
    rows.committed isOpen' = rows.committed isOpen := by
  refine List.filter_congr fun entry hentry => ?_
  by_cases heq : entry.1 = tx
  · rcases htx with htx | hnone
    · rw [heq, htx]
    · have hmem : entry.2 ∈ rows.ofTx tx := mem_ofTx.mpr (heq ▸ hentry)
      rw [hnone] at hmem
      exact absurd hmem List.not_mem_nil
  · rw [hsame entry.1 heq]

omit [DecidableEq Tx] in
theorem committed_insert (hopen : isOpen tx = true) :
    (rows.insert tx row).committed isOpen = rows.committed isOpen := by
  simp [committed, insert, List.filter_append, hopen]

theorem ofTx_committed (hclosed : isOpen tx = false) :
    (rows.committed isOpen).ofTx tx = rows.ofTx tx := by
  unfold committed ofTx
  rw [List.filter_filter]
  congr 1
  refine List.filter_congr fun entry _ => ?_
  by_cases heq : entry.1 = tx <;> simp [heq, hclosed]

theorem committed_rollback (hopen : isOpen tx = true)
    (hsame : ∀ other, other ≠ tx → isOpen' other = isOpen other) :
    (rows.rollback tx).committed isOpen' = rows.committed isOpen := by
  unfold committed rollback
  rw [List.filter_filter]
  refine List.filter_congr fun entry _ => ?_
  by_cases heq : entry.1 = tx
  · simp [heq, hopen]
  · simp [heq, hsame entry.1 heq]

/-- A COMMIT adds the rows of its transaction. -/
theorem total_commit (cond : Row → Bool) (weight : Row → Int) (hopen : isOpen tx = true)
    (hclosed : isOpen' tx = false) (hsame : ∀ other, other ≠ tx → isOpen' other = isOpen other) :
    rows.total isOpen' cond weight =
      rows.total isOpen cond weight + (((rows.ofTx tx).filter cond).map weight).sum := by
  induction rows with
  | nil => rfl
  | cons entry rest ih =>
      obtain ⟨owner, row⟩ := entry
      simp only [total, committed, ofTx] at ih ⊢
      by_cases howner : owner = tx
      · subst howner
        cases hcond : cond row with
        | true =>
            simp only [List.filter_cons, hopen, hclosed, hcond, decide_true, Bool.not_false,
              Bool.not_true, Bool.false_eq_true, if_true, if_false, List.map_cons, List.sum_cons]
            rw [ih]
            omega
        | false => simpa [List.filter_cons, hopen, hclosed, hcond] using ih
      · cases hcond : cond row with
        | true =>
            cases hrow : isOpen owner with
            | true => simpa [List.filter_cons, howner, hsame owner howner, hrow] using ih
            | false =>
                simp only [List.filter_cons, howner, hsame owner howner, hrow, hcond,
                  decide_false, Bool.not_false, Bool.false_eq_true, if_true, if_false,
                  List.map_cons, List.sum_cons]
                rw [ih]
                omega
        | false =>
            cases hrow : isOpen owner with
            | true => simpa [List.filter_cons, howner, hsame owner howner, hrow] using ih
            | false => simpa [List.filter_cons, howner, hsame owner howner, hrow, hcond] using ih

end Committed

end Inserts

end ReadCommitted

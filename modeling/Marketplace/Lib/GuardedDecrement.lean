import Marketplace.Lib.ReadCommitted

/-!
# Guarded decrements

`UPDATE … SET level = level - amount WHERE key = … AND level >= amount`, once in a transaction. A
transaction that has taken an amount holds the row until it ends, so the committed level moves by
exactly the amounts of the transactions that commit, and never below zero.
-/

namespace ReadCommitted

variable {Tx Key Row : Type}

/-- A number in a row, and how an UPDATE lowers it. -/
structure Counter (Row : Type) where
  level : Row → Int
  take : Int → Row → Row
  level_take : ∀ amount row, level (take amount row) = level row - amount

/-- What each open transaction has taken, and from which row. -/
abbrev Demand (Tx Key : Type) := Tx → Option (Key × Int)

/-- Exactly the rows that somebody has taken from are held, each with its lowered version. -/
structure Guarded (counter : Counter Row) (table : Table Tx Key Row) (demand : Demand Tx Key) :
    Prop where
  held : ∀ key tx version, (table.cell key).held = some (tx, version) →
    ∃ amount, demand tx = some (key, amount)
  taken : ∀ tx key amount, demand tx = some (key, amount) → ∃ row,
    table.cell key = ⟨some row, some (tx, some (counter.take amount row))⟩ ∧
      amount ≤ counter.level row

/-- The committed levels have fallen by what was spent, and not below zero. -/
def Conserved (counter : Counter Row) (initial table : Table Tx Key Row)
    (spent : Key → Int) : Prop :=
  ∀ key row, initial.committed key = some row → ∃ current, table.committed key = some current ∧
    counter.level row = counter.level current + spent key ∧ 0 ≤ counter.level current

namespace Guarded

variable {counter : Counter Row} {table : Table Tx Key Row} {demand : Demand Tx Key} {tx : Tx}
  {key : Key} {amount : Int} {row : Row}

theorem init (hquiet : table.Quiet) : Guarded counter table fun _ => none where
  held key tx version hheld := by
    rw [hquiet key] at hheld
    cases hheld
  taken _ _ _ hdemand := by cases hdemand

theorem not_held (hguarded : Guarded counter table demand) (hnone : demand tx = none) (key : Key)
    (version : Option Row) : (table.cell key).held ≠ some (tx, version) := by
  intro hheld
  obtain ⟨amount, hdemand⟩ := hguarded.held key tx version hheld
  rw [hnone] at hdemand
  cases hdemand

variable [DecidableEq Tx]

/-- The UPDATE of a transaction that has taken nothing so far. -/
theorem take [DecidableEq Key] {next : Table Tx Key Row} (hguarded : Guarded counter table demand)
    (hnone : demand tx = none)
    (hvisit : table.visit tx key (fun row => amount ≤ counter.level row) (counter.take amount) =
      some (next, true)) :
    Guarded counter next (Function.update demand tx (some (key, amount))) ∧
      ∀ other, next.committed other = table.committed other := by
  have hnot := hguarded.not_held hnone
  obtain ⟨hlock, hcases⟩ := Table.visit_eq_some hvisit
  obtain ⟨row, hview, hcond, -, rfl⟩ | ⟨_, _, _, hhit, _⟩ | ⟨_, hhit, _⟩ := hcases
  · rw [Table.view_of_not_held (hnot key)] at hview
    refine ⟨⟨?_, ?_⟩, fun other => Table.committed_put⟩
    · intro other owner version hheld
      rcases Table.held_put_iff.mp hheld with ⟨rfl, rfl, -⟩ | ⟨-, hold⟩
      · exact ⟨amount, Function.update_self ..⟩
      · have hne : owner ≠ tx := by
          rintro rfl
          exact hnot other version hold
        rw [Function.update_of_ne hne]
        exact hguarded.held other owner version hold
    · intro owner other amount' hdemand
      by_cases hown : owner = tx
      · subst hown
        rw [Function.update_self] at hdemand
        cases hdemand
        refine ⟨row, ?_, of_decide_eq_true hcond⟩
        rw [Table.cell_put_self, hview]
      · rw [Function.update_of_ne hown] at hdemand
        obtain ⟨row', hcell, hlevel⟩ := hguarded.taken owner other amount' hdemand
        refine ⟨row', ?_, hlevel⟩
        rw [← hcell]
        apply (Table.frame_put hlock).kept other owner _ hown
        rw [hcell]
  · cases hhit
  · cases hhit

/-- The row of another transaction is not in the way of the end of `tx`. -/
theorem finish {next : Table Tx Key Row} (hguarded : Guarded counter table demand)
    (hframe : Table.Frame tx table next)
    (hreleased : ∀ key version, (next.cell key).held ≠ some (tx, version)) :
    Guarded counter next (Function.update demand tx none) where
  held key owner version hheld := by
    have hne : owner ≠ tx := by
      rintro rfl
      exact hreleased key version hheld
    rw [Function.update_of_ne hne]
    exact hguarded.held key owner version (hframe.given key owner version hne hheld)
  taken owner key amount hdemand := by
    by_cases hown : owner = tx
    · subst hown
      rw [Function.update_self] at hdemand
      cases hdemand
    · rw [Function.update_of_ne hown] at hdemand
      obtain ⟨row, hcell, hlevel⟩ := hguarded.taken owner key amount hdemand
      refine ⟨row, ?_, hlevel⟩
      rw [← hcell]
      apply hframe.kept key owner _ hown
      rw [hcell]

theorem rollback (hguarded : Guarded counter table demand) :
    Guarded counter (table.rollback tx) (Function.update demand tx none) :=
  hguarded.finish Table.frame_rollback fun _ _ hheld => (Table.held_rollback_iff.mp hheld).1 rfl

theorem commit (hguarded : Guarded counter table demand) :
    Guarded counter (table.commit tx) (Function.update demand tx none) :=
  hguarded.finish Table.frame_commit fun _ _ hheld => (Table.held_commit_iff.mp hheld).1 rfl

theorem committed_commit_of_ne (hguarded : Guarded counter table demand)
    (hother : ∀ amount, demand tx ≠ some (key, amount)) :
    (table.commit tx).committed key = table.committed key := by
  apply congrArg Cell.committed
  apply Table.commit_of_not_held
  intro version hheld
  obtain ⟨amount, hdemand⟩ := hguarded.held key tx version hheld
  exact hother amount hdemand

/-- A COMMIT turns the amount that was taken into one that is spent. -/
theorem conserved_commit {initial : Table Tx Key Row} {spent spent' : Key → Int}
    (hguarded : Guarded counter table demand) (hconserved : Conserved counter initial table spent)
    (hdemand : demand tx = some (key, amount)) (hspent : spent' key = spent key + amount)
    (hsame : ∀ other, other ≠ key → spent' other = spent other) :
    Conserved counter initial (table.commit tx) spent' := by
  intro other row hrow
  obtain ⟨current, hcurrent, hsum, hlevel⟩ := hconserved other row hrow
  by_cases heq : other = key
  · subst heq
    obtain ⟨current', hcell, hle⟩ := hguarded.taken tx other amount hdemand
    have hcommitted : table.committed other = some current' := congrArg Cell.committed hcell
    obtain rfl : current = current' := Option.some.inj (hcurrent.symm.trans hcommitted)
    refine ⟨counter.take amount current, ?_, ?_, ?_⟩
    · exact congrArg Cell.committed (Table.commit_of_held (congrArg Cell.held hcell))
    · rw [counter.level_take, hspent]
      omega
    · rw [counter.level_take]
      omega
  · refine ⟨current, ?_, by rw [hsum, hsame other heq], hlevel⟩
    rw [hguarded.committed_commit_of_ne, hcurrent]
    intro amount' hdemand'
    rw [hdemand] at hdemand'
    cases hdemand'
    exact heq rfl

end Guarded

theorem Conserved.congr {counter : Counter Row} {initial table next : Table Tx Key Row}
    {spent spent' : Key → Int} (hconserved : Conserved counter initial table spent)
    (hcommitted : ∀ key, next.committed key = table.committed key)
    (hspent : ∀ key, spent' key = spent key) : Conserved counter initial next spent' := by
  intro key row hrow
  rw [hcommitted, hspent]
  exact hconserved key row hrow

end ReadCommitted

import Marketplace.Lib.ReadCommitted

/-!
# Transactions that insert one row

A table that is only inserted into, by transactions of which each inserts at most one row: the row
locks are what the transactions have inserted and not committed yet.
-/

namespace ReadCommitted.Table

variable {Tx Key Row : Type} [DecidableEq Tx] {table : Table Tx Key Row}
  {writes writes' : Tx → Option (Key × Row)} {tx : Tx} {key : Key} {row : Row}

/-- `writes` says what every transaction has inserted. -/
structure Inserting (table : Table Tx Key Row) (writes : Tx → Option (Key × Row)) : Prop where
  held : ∀ tx key version, (table.cell key).held = some (tx, version) ↔
    ∃ row, writes tx = some (key, row) ∧ version = some row
  fresh : ∀ tx key row, writes tx = some (key, row) → table.committed key = none

omit [DecidableEq Tx] in
theorem inserting_empty : (empty : Table Tx Key Row).Inserting fun _ => none where
  held := by simp [Cell.absent]
  fresh := by simp

omit [DecidableEq Tx] in
theorem Inserting.congr (hinserting : table.Inserting writes)
    (hwrites : ∀ tx, writes' tx = writes tx) : table.Inserting writes' := by
  rwa [funext hwrites]

omit [DecidableEq Tx] in
theorem Inserting.not_held (hinserting : table.Inserting writes) (hnone : writes tx = none)
    (key : Key) (version : Option Row) : (table.cell key).held ≠ some (tx, version) := by
  rw [ne_eq, hinserting.held, hnone]
  simp

/-- What the outcome of an INSERT says, for a transaction that has inserted nothing. -/
theorem Inserting.outcome_spec (hinserting : table.Inserting writes) (hnone : writes tx = none)
    (key : Key) :
    match table.insertOutcome tx key with
    | .inserted => table.cell key = Cell.absent
    | .conflict => ∃ row, table.committed key = some row
    | .wait => ∃ owner version, owner ≠ tx ∧ (table.cell key).held = some (owner, version) :=
  insertOutcome_spec (hinserting.not_held hnone key)

/-- A key that is not committed, and that nobody else is inserting, can be inserted. -/
theorem Inserting.insertOutcome (hinserting : table.Inserting writes) (hnone : writes tx = none)
    (hcommitted : table.committed key = none)
    (hothers : ∀ other row, writes other ≠ some (key, row)) :
    table.insertOutcome tx key = .inserted := by
  have hspec := hinserting.outcome_spec hnone key
  cases houtcome : table.insertOutcome tx key with
  | inserted => rfl
  | conflict =>
      rw [houtcome] at hspec
      obtain ⟨row, hrow⟩ := hspec
      simp [hcommitted] at hrow
  | wait =>
      rw [houtcome] at hspec
      obtain ⟨owner, version, -, hheld⟩ := hspec
      obtain ⟨row, hwrites, -⟩ := (hinserting.held owner key version).mp hheld
      exact absurd hwrites (hothers owner row)

theorem Inserting.put [DecidableEq Key] (hinserting : table.Inserting writes)
    (hnone : writes tx = none) (houtcome : table.insertOutcome tx key = .inserted)
    (hself : writes' tx = some (key, row))
    (hothers : ∀ other, other ≠ tx → writes' other = writes other) :
    (table.put tx key (some row)).Inserting writes' where
  held owner other version := by
    have hcell : table.cell key = Cell.absent := by
      have hspec := hinserting.outcome_spec hnone key
      rwa [houtcome] at hspec
    rw [held_put_iff]
    by_cases howner : owner = tx
    · subst howner
      rw [hself, hinserting.held, hnone]
      simp only [Option.some.injEq, Prod.mk.injEq]
      constructor
      · rintro (⟨rfl, -, rfl⟩ | ⟨-, row', hrow', -⟩)
        · exact ⟨row, ⟨rfl, rfl⟩, rfl⟩
        · cases hrow'
      · rintro ⟨row', ⟨rfl, rfl⟩, rfl⟩
        exact .inl ⟨rfl, trivial, rfl⟩
    · rw [hothers owner howner, ← hinserting.held]
      constructor
      · rintro (⟨-, heq, -⟩ | ⟨-, hheld⟩)
        · exact absurd heq howner
        · exact hheld
      · intro hheld
        refine .inr ⟨?_, hheld⟩
        rintro rfl
        simp [hcell, Cell.absent] at hheld
  fresh owner other row' hwrites := by
    rw [committed_put]
    by_cases howner : owner = tx
    · subst howner
      rw [hself, Option.some.injEq, Prod.mk.injEq] at hwrites
      have hspec := hinserting.outcome_spec hnone key
      rw [houtcome] at hspec
      rw [← hwrites.1, committed, hspec]
      rfl
    · exact hinserting.fresh owner other row' (hothers owner howner ▸ hwrites)

/-- A COMMIT adds the row of its transaction to what is committed. -/
theorem Inserting.committed_commit [DecidableEq Key] (hinserting : table.Inserting writes)
    (key : Key) :
    (table.commit tx).committed key =
      if (writes tx).map Prod.fst =
        some key then (writes tx).map Prod.snd else table.committed key := by
  rcases commit_cases table tx key with ⟨version, hheld, hcell⟩ | ⟨hnot, hcell⟩
  · obtain ⟨row, hwrites, rfl⟩ := (hinserting.held tx key version).mp hheld
    simp [committed, hcell, hwrites]
  · rw [committed, hcell, if_neg]
    · rfl
    · rw [Option.map_eq_some_iff]
      rintro ⟨⟨key', row⟩, hwrites, rfl⟩
      exact hnot (some row) ((hinserting.held tx key' (some row)).mpr ⟨row, hwrites, rfl⟩)

omit [DecidableEq Tx] in
/-- Distinct transactions insert distinct keys. -/
theorem Inserting.tx_eq {other : Tx} {row' : Row} (hinserting : table.Inserting writes)
    (hleft : writes tx = some (key, row)) (hright : writes other = some (key, row')) :
    tx = other := by
  have hheld := (hinserting.held tx key (some row)).mpr ⟨row, hleft, rfl⟩
  have hheld' := (hinserting.held other key (some row')).mpr ⟨row', hright, rfl⟩
  rw [hheld, Option.some.injEq, Prod.mk.injEq] at hheld'
  exact hheld'.1

/-- A transaction lets its row go, to what is committed or not. -/
theorem Inserting.release {released : Table Tx Key Row} (hinserting : table.Inserting writes)
    (hself : writes' tx = none) (hothers : ∀ other, other ≠ tx → writes' other = writes other)
    (hheld : ∀ key owner version, (released.cell key).held = some (owner, version) ↔
      owner ≠ tx ∧ (table.cell key).held = some (owner, version))
    (hfresh : ∀ owner key row, owner ≠ tx → writes owner = some (key, row) →
      released.committed key = none) : released.Inserting writes' where
  held owner other version := by
    rw [hheld, hinserting.held]
    by_cases howner : owner = tx
    · simp [howner, hself]
    · simp [howner, hothers owner howner]
  fresh owner other row' hwrites := by
    have hne : owner ≠ tx := by
      rintro rfl
      simp [hself] at hwrites
    exact hfresh owner other row' hne (hothers owner hne ▸ hwrites)

theorem Inserting.commit (hinserting : table.Inserting writes) (hself : writes' tx = none)
    (hothers : ∀ other, other ≠ tx → writes' other = writes other) :
    (table.commit tx).Inserting writes' := by
  apply hinserting.release hself hothers fun _ _ _ => held_commit_iff
  intro owner other row' hne hwrites
  rcases commit_cases table tx other with ⟨version, hheld, -⟩ | ⟨-, hcell⟩
  · obtain ⟨row, hmine, -⟩ := (hinserting.held tx other version).mp hheld
    exact absurd (hinserting.tx_eq hwrites hmine) hne
  · rw [committed, hcell]
    exact hinserting.fresh owner other row' hwrites

theorem Inserting.rollback (hinserting : table.Inserting writes) (hself : writes' tx = none)
    (hothers : ∀ other, other ≠ tx → writes' other = writes other) :
    (table.rollback tx).Inserting writes' := by
  apply hinserting.release hself hothers fun _ _ _ => held_rollback_iff
  intro owner other row' _ hwrites
  rw [committed_rollback]
  exact hinserting.fresh owner other row' hwrites

end ReadCommitted.Table

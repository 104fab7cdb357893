import Mathlib.Data.List.Dedup
import Mathlib.Data.List.Nodup
import Mathlib.Data.List.Perm.Basic
import Mathlib.Logic.Function.Basic

/-!
# Rows under READ COMMITTED

A table as concurrent transactions see it. A row is a *cell*: the version that was committed last
and, while some transaction holds the row lock, that transaction together with the version it leaves
behind at COMMIT. A lock has one slot, so two holders of one row cannot be written down, and a
version that nobody has committed is visible to its owner only.

A statement that touches several rows is a scan, which fixes the keys that match in its snapshot,
and then one visit for each of them: the visit waits for the lock, looks at the version that is
current once it has it, and re-checks the condition on that version.
-/

namespace ReadCommitted

variable {Tx Key Row : Type} [DecidableEq Tx]

/-- `none` as a version is a row that does not exist: not inserted yet, or deleted. -/
@[ext]
structure Cell (Tx Row : Type) where
  committed : Option Row
  held : Option (Tx × Option Row)
  deriving DecidableEq

namespace Cell

def absent : Cell Tx Row := ⟨none, none⟩

/-- What a statement of `tx` sees: its own version if it has one, the committed version
otherwise. -/
def view (cell : Cell Tx Row) (tx : Tx) : Option Row :=
  match cell.held with
  | some (owner, version) => if owner = tx then version else cell.committed
  | none => cell.committed

/-- The lock can be taken without waiting: it is free, or `tx` has it already. -/
def lockable (cell : Cell Tx Row) (tx : Tx) : Bool :=
  match cell.held with
  | some (owner, _) => owner = tx
  | none => true

def put (cell : Cell Tx Row) (tx : Tx) (version : Option Row) : Cell Tx Row :=
  { cell with held := some (tx, version) }

def commit (cell : Cell Tx Row) (tx : Tx) : Cell Tx Row :=
  match cell.held with
  | some (owner, version) => if owner = tx then ⟨version, none⟩ else cell
  | none => cell

def rollback (cell : Cell Tx Row) (tx : Tx) : Cell Tx Row :=
  match cell.held with
  | some (owner, _) => if owner = tx then ⟨cell.committed, none⟩ else cell
  | none => cell

end Cell

/-- A table: the keys that were ever used, in insertion order, and a cell for each. -/
structure Table (Tx Key Row : Type) where
  keys : List Key
  cell : Key → Cell Tx Row
  nodup : keys.Nodup
  listed : ∀ key, cell key ≠ Cell.absent → key ∈ keys

namespace Table

def empty : Table Tx Key Row where
  keys := []
  cell := fun _ => Cell.absent
  nodup := List.nodup_nil
  listed := fun _ habsent => absurd rfl habsent

/-- The committed rows of a list, the first one for each key, and nobody at work. -/
def ofRows [DecidableEq Key] (rows : List (Key × Row)) : Table Tx Key Row where
  keys := (rows.map Prod.fst).dedup
  cell key := ⟨(rows.find? fun entry => entry.1 = key).map Prod.snd, none⟩
  nodup := List.nodup_dedup _
  listed key hkey := by
    rw [List.mem_dedup]
    cases hfind : rows.find? fun entry => entry.1 = key with
    | none =>
        rw [hfind] at hkey
        exact absurd rfl hkey
    | some entry =>
        have hentry : entry.1 = key := by simpa using List.find?_some hfind
        exact hentry ▸ List.mem_map_of_mem (List.mem_of_find?_eq_some hfind)

variable (table : Table Tx Key Row) (tx : Tx) (key : Key)

/-- The version a COMMIT made visible to everyone. -/
def committed : Option Row := (table.cell key).committed

def view : Option Row := (table.cell key).view tx

def lockable : Bool := (table.cell key).lockable tx

/-- Write a version and hold the row lock until the end of the transaction. With the current version
this is a plain lock; with a key that is not in use it is an INSERT. -/
def put [DecidableEq Key] (version : Option Row) : Table Tx Key Row where
  keys := if key ∈ table.keys then table.keys else table.keys ++ [key]
  cell := Function.update table.cell key ((table.cell key).put tx version)
  nodup := by
    split
    · exact table.nodup
    · rename_i hfresh
      exact List.nodup_append.mpr ⟨table.nodup, List.nodup_singleton key, by
        intro left hleft right hright heq
        rw [List.mem_singleton] at hright
        exact hfresh (hright ▸ heq ▸ hleft)⟩
  listed := by
    intro other hother
    by_cases heq : other = key
    · subst heq
      split
      · assumption
      · simp
    · rw [Function.update_of_ne heq] at hother
      split
      · exact table.listed other hother
      · exact List.mem_append_left _ (table.listed other hother)

def commit : Table Tx Key Row where
  keys := table.keys
  cell := fun key => (table.cell key).commit tx
  nodup := table.nodup
  listed := by
    intro key hkey
    apply table.listed
    rintro habsent
    exact hkey (by rw [habsent]; rfl)

def rollback : Table Tx Key Row where
  keys := table.keys
  cell := fun key => (table.cell key).rollback tx
  nodup := table.nodup
  listed := by
    intro key hkey
    apply table.listed
    rintro habsent
    exact hkey (by rw [habsent]; rfl)

/-- The snapshot of a statement: the keys whose visible version satisfies its WHERE. -/
def scan (cond : Key → Row → Bool) : List Key :=
  table.keys.filter fun key => (table.view tx key).any (cond key)

/-- Visit one row of a statement's snapshot. `none`: the lock is taken, so the statement waits. The
row stays locked whether the re-check passes or not; the flag says whether it did. -/
def visit [DecidableEq Key] (cond : Row → Bool) (set : Row → Row) :
    Option (Table Tx Key Row × Bool) :=
  if table.lockable tx key then
    match table.view tx key with
    | some row =>
        if cond row then some (table.put tx key (some (set row)), true)
        else some (table.put tx key (some row), false)
    | none => some (table, false)
  else none

/-- What `INSERT … ON CONFLICT DO NOTHING` does for a key. -/
inductive InsertOutcome where
  | inserted
  | conflict
  | wait
  deriving DecidableEq

/-- A committed row, or one inserted by the transaction itself, is a conflict; a key inserted by
another open transaction makes the statement wait for that transaction. -/
def insertOutcome : InsertOutcome :=
  match (table.cell key).held with
  | some (owner, version) =>
      if owner = tx then (if version.isSome then .conflict else .inserted)
      else if (table.cell key).committed.isSome then .conflict else .wait
  | none => if (table.cell key).committed.isSome then .conflict else .inserted

/-- The keys of the committed rows that satisfy a condition. -/
def matching (cond : Row → Bool) : List Key :=
  table.keys.filter fun key => (table.committed key).any cond

def count (cond : Row → Bool) : Nat := (table.matching cond).length

/-- No transaction holds a row: what a table looks like between runs. -/
def Quiet : Prop := ∀ key, (table.cell key).held = none

/-! ### Single cells -/

section Cells

variable {table : Table Tx Key Row} {tx owner : Tx} {key other : Key} {version : Option Row}

omit [DecidableEq Tx] in
@[simp]
theorem cell_empty : (empty : Table Tx Key Row).cell key = Cell.absent := rfl

omit [DecidableEq Tx] in
@[simp]
theorem committed_empty : (empty : Table Tx Key Row).committed key = none := rfl

omit [DecidableEq Tx] in
theorem quiet_ofRows [DecidableEq Key] (rows : List (Key × Row)) :
    (ofRows rows : Table Tx Key Row).Quiet := fun _ => rfl

omit [DecidableEq Tx] in
theorem mem_of_committed_ofRows [DecidableEq Key] {rows : List (Key × Row)} {row : Row}
    (hrow : (ofRows rows : Table Tx Key Row).committed key = some row) : (key, row) ∈ rows := by
  obtain ⟨⟨key', row'⟩, hentry, rfl⟩ := Option.map_eq_some_iff.mp hrow
  have hkey : key' = key := by simpa using List.find?_some hentry
  exact hkey ▸ List.mem_of_find?_eq_some hentry

theorem lockable_iff :
    table.lockable tx key = true ↔
      ∀ owner version, (table.cell key).held = some (owner, version) → owner = tx := by
  unfold lockable Cell.lockable
  cases hheld : (table.cell key).held with
  | none => simp
  | some pair =>
      obtain ⟨holder, version⟩ := pair
      simp only [decide_eq_true_eq, Option.some.injEq, Prod.mk.injEq]
      exact ⟨fun hholder owner _ hpair => hpair.1 ▸ hholder, fun h => h holder version ⟨rfl, rfl⟩⟩

theorem lockable_of_held (hheld : (table.cell key).held = some (tx, version)) :
    table.lockable tx key = true := by
  simp [lockable, Cell.lockable, hheld]

theorem view_of_held (hheld : (table.cell key).held = some (tx, version)) :
    table.view tx key = version := by
  simp [view, Cell.view, hheld]

theorem view_of_not_held (hheld : ∀ version, (table.cell key).held ≠ some (tx, version)) :
    table.view tx key = table.committed key := by
  unfold view Cell.view committed
  split
  · rename_i owner version heq
    rw [if_neg]
    rintro rfl
    exact hheld version heq
  · rfl

theorem commit_of_held (hheld : (table.cell key).held = some (tx, version)) :
    (table.commit tx).cell key = ⟨version, none⟩ := by
  simp [commit, Cell.commit, hheld]

theorem commit_of_not_held (hheld : ∀ version, (table.cell key).held ≠ some (tx, version)) :
    (table.commit tx).cell key = table.cell key := by
  change (table.cell key).commit tx = table.cell key
  unfold Cell.commit
  split
  · rename_i owner version heq
    rw [if_neg]
    rintro rfl
    exact hheld version heq
  · rfl

theorem rollback_of_held (hheld : (table.cell key).held = some (tx, version)) :
    (table.rollback tx).cell key = ⟨table.committed key, none⟩ := by
  simp [rollback, Cell.rollback, hheld, committed]

theorem rollback_of_not_held (hheld : ∀ version, (table.cell key).held ≠ some (tx, version)) :
    (table.rollback tx).cell key = table.cell key := by
  change (table.cell key).rollback tx = table.cell key
  unfold Cell.rollback
  split
  · rename_i owner version heq
    rw [if_neg]
    rintro rfl
    exact hheld version heq
  · rfl

omit [DecidableEq Tx] in
theorem held_cases (cell : Cell Tx Row) (tx : Tx) :
    (∃ version, cell.held = some (tx, version)) ∨ ∀ version, cell.held ≠ some (tx, version) := by
  by_cases hheld : ∃ version, cell.held = some (tx, version)
  · exact .inl hheld
  · push Not at hheld
    exact .inr hheld

/-- A COMMIT publishes the held version of a row its transaction holds, and touches no other row. -/
theorem commit_cases (table : Table Tx Key Row) (tx : Tx) (key : Key) :
    (∃ version, (table.cell key).held = some (tx, version) ∧
      (table.commit tx).cell key = ⟨version, none⟩) ∨
    ((∀ version, (table.cell key).held ≠ some (tx, version)) ∧
      (table.commit tx).cell key = table.cell key) := by
  rcases held_cases (table.cell key) tx with ⟨version, hheld⟩ | hheld
  · exact .inl ⟨version, hheld, commit_of_held hheld⟩
  · exact .inr ⟨hheld, commit_of_not_held hheld⟩

theorem rollback_cases (table : Table Tx Key Row) (tx : Tx) (key : Key) :
    (∃ version, (table.cell key).held = some (tx, version) ∧
      (table.rollback tx).cell key = ⟨table.committed key, none⟩) ∨
    ((∀ version, (table.cell key).held ≠ some (tx, version)) ∧
      (table.rollback tx).cell key = table.cell key) := by
  rcases held_cases (table.cell key) tx with ⟨version, hheld⟩ | hheld
  · exact .inl ⟨version, hheld, rollback_of_held hheld⟩
  · exact .inr ⟨hheld, rollback_of_not_held hheld⟩

@[simp]
theorem committed_rollback : (table.rollback tx).committed key = table.committed key := by
  rcases rollback_cases table tx key with ⟨_, _, hcell⟩ | ⟨_, hcell⟩ <;> simp [committed, hcell]

omit [DecidableEq Tx] in
/-- What is left of the locks of a row, if those of one transaction go. -/
theorem held_released_iff {cell released : Cell Tx Row}
    (hmine : ∀ version, cell.held = some (tx, version) → released.held = none)
    (hother : (∀ version, cell.held ≠ some (tx, version)) → released = cell) :
    released.held = some (owner, version) ↔ owner ≠ tx ∧ cell.held = some (owner, version) := by
  rcases held_cases cell tx with ⟨mine, hheld⟩ | hnot
  · rw [hmine mine hheld, hheld]
    simp only [reduceCtorEq, Option.some.injEq, Prod.mk.injEq, false_iff, not_and]
    exact fun hne heq => absurd heq.symm hne
  · rw [hother hnot]
    constructor
    · intro hheld
      refine ⟨?_, hheld⟩
      rintro rfl
      exact hnot version hheld
    · exact And.right

/-- After its COMMIT a transaction holds nothing, and the locks of the others are what they were. -/
theorem held_commit_iff :
    ((table.commit tx).cell key).held = some (owner, version) ↔
      owner ≠ tx ∧ (table.cell key).held = some (owner, version) :=
  held_released_iff (fun _ hheld => by rw [commit_of_held hheld]) commit_of_not_held

theorem held_rollback_iff :
    ((table.rollback tx).cell key).held = some (owner, version) ↔
      owner ≠ tx ∧ (table.cell key).held = some (owner, version) :=
  held_released_iff (fun _ hheld => by rw [rollback_of_held hheld]) rollback_of_not_held

theorem mem_scan {cond : Key → Row → Bool} :
    key ∈ table.scan tx cond ↔ ∃ row, table.view tx key = some row ∧ cond key row = true := by
  have hlisted : ∀ row, table.view tx key = some row → key ∈ table.keys := by
    intro row hrow
    apply table.listed
    intro habsent
    simp [view, Cell.view, habsent, Cell.absent] at hrow
  simp only [scan, List.mem_filter, Option.any_eq_true_iff_get]
  constructor
  · rintro ⟨-, hsome, hcond⟩
    exact ⟨_, (Option.some_get hsome).symm, hcond⟩
  · rintro ⟨row, hrow, hcond⟩
    exact ⟨hlisted row hrow, by simp [hrow], by simpa [hrow] using hcond⟩

variable [DecidableEq Key]

omit [DecidableEq Tx] in
@[simp]
theorem cell_put_self :
    (table.put tx key version).cell key = ⟨table.committed key, some (tx, version)⟩ := by
  simp [put, Cell.put, committed]

omit [DecidableEq Tx] in
theorem cell_put_of_ne (hne : other ≠ key) :
    (table.put tx key version).cell other = table.cell other := by
  simp [put, Function.update_of_ne hne]

omit [DecidableEq Tx] in
@[simp]
theorem committed_put : (table.put tx key version).committed other = table.committed other := by
  by_cases heq : other = key
  · subst heq
    simp [committed]
  · simp [committed, cell_put_of_ne heq]

omit [DecidableEq Tx] in
/-- Taking or rewriting a row leaves every other lock alone and puts this one in `tx`'s hands. -/
theorem held_put_iff :
    ((table.put tx key version).cell other).held = some (owner, v) ↔
      (other = key ∧ owner = tx ∧ v = version) ∨
        (other ≠ key ∧ (table.cell other).held = some (owner, v)) := by
  by_cases heq : other = key
  · subst heq
    simp only [cell_put_self, Option.some.injEq, Prod.mk.injEq, ne_eq, not_true_eq_false, false_and,
      or_false, true_and]
    exact ⟨fun h => ⟨h.1.symm, h.2.symm⟩, fun h => ⟨h.1.symm, h.2.symm⟩⟩
  · simp [cell_put_of_ne heq, heq]

@[simp]
theorem view_put_self : (table.put tx key version).view tx key = version :=
  view_of_held (by rw [cell_put_self])

theorem view_put_of_ne (hne : other ≠ key) :
    (table.put tx key version).view tx other = table.view tx other := by
  unfold view
  rw [cell_put_of_ne hne]

/-- A lock that can be taken stays so while the transaction works. -/
theorem lockable_put (hlock : table.lockable tx key = true) :
    (table.put tx other version).lockable tx key = true := by
  rw [lockable_iff] at hlock ⊢
  intro owner held hheld
  rcases held_put_iff.mp hheld with ⟨-, howner, -⟩ | ⟨-, hold⟩
  · exact howner
  · exact hlock owner held hold

omit [DecidableEq Key] in
/-- Nobody holds the row after a ROLLBACK of the only transaction that may have held it. -/
theorem cell_rollback_of_lockable {row : Row} (hlock : table.lockable tx key = true)
    (hrow : table.committed key = some row) : (table.rollback tx).cell key = ⟨some row, none⟩ := by
  rcases rollback_cases table tx key with ⟨held, -, hcell⟩ | ⟨hnot, hcell⟩
  · rw [hcell, hrow]
  · rw [hcell]
    apply Cell.ext hrow
    rw [Option.eq_none_iff_forall_ne_some]
    rintro ⟨owner, held⟩ hheld
    exact hnot held (lockable_iff.mp hlock owner held hheld ▸ hheld)

/-- Everything a visit can do. -/
theorem visit_eq_some {cond : Row → Bool} {set : Row → Row} {next : Table Tx Key Row} {hit : Bool}
    (hvisit : table.visit tx key cond set = some (next, hit)) :
    table.lockable tx key = true ∧
      ((∃ row, table.view tx key = some row ∧ cond row = true ∧ hit = true ∧
          next = table.put tx key (some (set row))) ∨
        (∃ row, table.view tx key = some row ∧ cond row = false ∧ hit = false ∧
          next = table.put tx key (some row)) ∨
        (table.view tx key = none ∧ hit = false ∧ next = table)) := by
  unfold visit at hvisit
  split at hvisit
  · rename_i hlock
    refine ⟨hlock, ?_⟩
    split at hvisit
    · rename_i row hrow
      split at hvisit
      · rename_i hcond
        cases hvisit
        exact .inl ⟨row, hrow, hcond, rfl, rfl⟩
      · rename_i hcond
        cases hvisit
        exact .inr (.inl ⟨row, hrow, by simpa using hcond, rfl, rfl⟩)
    · rename_i hrow
      cases hvisit
      exact .inr (.inr ⟨hrow, rfl, rfl⟩)
  · cases hvisit

/-- A visit waits for the lock and for nothing else. -/
theorem visit_eq_none_iff {cond : Row → Bool} {set : Row → Row} :
    table.visit tx key cond set = none ↔ table.lockable tx key = false := by
  rw [← Bool.not_eq_true]
  constructor
  · intro hvisit hlock
    rw [visit, if_pos hlock] at hvisit
    split at hvisit
    · split at hvisit <;> cases hvisit
    · cases hvisit
  · intro hlock
    rw [visit, if_neg hlock]

section Visit

variable {cond : Row → Bool} {set : Row → Row} {next : Table Tx Key Row} {hit : Bool}

theorem committed_visit (hvisit : table.visit tx key cond set = some (next, hit)) (other : Key) :
    next.committed other = table.committed other := by
  obtain ⟨-, ⟨_, -, -, -, rfl⟩ | ⟨_, -, -, -, rfl⟩ | ⟨-, -, rfl⟩⟩ := visit_eq_some hvisit
  · exact committed_put
  · exact committed_put
  · rfl

theorem cell_visit_of_ne (hvisit : table.visit tx key cond set = some (next, hit))
    (hne : other ≠ key) : next.cell other = table.cell other := by
  obtain ⟨-, ⟨_, -, -, -, rfl⟩ | ⟨_, -, -, -, rfl⟩ | ⟨-, -, rfl⟩⟩ := visit_eq_some hvisit
  · exact cell_put_of_ne hne
  · exact cell_put_of_ne hne
  · rfl

/-- RETURNING finds the row that the statement has changed. -/
theorem exists_view_of_visit (hvisit : table.visit tx key cond set = some (next, true)) :
    ∃ row, next.view tx key = some row := by
  obtain ⟨-, ⟨row, -, -, -, rfl⟩ | ⟨_, -, -, hhit, -⟩ | ⟨-, hhit, -⟩⟩ := visit_eq_some hvisit
  · exact ⟨set row, view_put_self⟩
  · cases hhit
  · cases hhit

end Visit

omit [DecidableEq Key] in
/-- What the outcome of an INSERT says about the cell, for a transaction that has not touched it. -/
theorem insertOutcome_spec (hfree : ∀ version, (table.cell key).held ≠ some (tx, version)) :
    match table.insertOutcome tx key with
    | .inserted => table.cell key = Cell.absent
    | .conflict => ∃ row, table.committed key = some row
    | .wait => ∃ owner version, owner ≠ tx ∧ (table.cell key).held = some (owner, version) := by
  unfold insertOutcome
  cases hheld : (table.cell key).held with
  | none =>
      cases hcommitted : (table.cell key).committed with
      | none => exact Cell.ext hcommitted hheld
      | some row => exact ⟨row, hcommitted⟩
  | some pair =>
      obtain ⟨owner, version⟩ := pair
      have hne : owner ≠ tx := by
        rintro rfl
        exact hfree version hheld
      cases hcommitted : (table.cell key).committed with
      | none => simp [hne]
      | some row => simpa [hne] using ⟨row, hcommitted⟩

omit [DecidableEq Key] in
theorem lockable_of_inserted (houtcome : table.insertOutcome tx key = .inserted) :
    table.lockable tx key = true := by
  rw [lockable_iff]
  intro owner version hheld
  by_contra hne
  unfold insertOutcome at houtcome
  rw [hheld] at houtcome
  simp only [hne, if_false] at houtcome
  split at houtcome <;> cases houtcome

end Cells

/-! ### Frames -/

/-- A step of `tx` leaves alone every row that another transaction holds, and puts no row into
another transaction's hands. -/
structure Frame (tx : Tx) (before after : Table Tx Key Row) : Prop where
  kept : ∀ key owner version, owner ≠ tx → (before.cell key).held = some (owner, version) →
    after.cell key = before.cell key
  given : ∀ key owner version, owner ≠ tx → (after.cell key).held = some (owner, version) →
    (before.cell key).held = some (owner, version)

section Frames

variable {table : Table Tx Key Row} {tx : Tx} {key : Key} {version : Option Row}

omit [DecidableEq Tx] in
theorem frame_refl : Frame tx table table :=
  ⟨fun _ _ _ _ _ => rfl, fun _ _ _ _ hheld => hheld⟩

omit [DecidableEq Tx] in
theorem Frame.trans {first second third : Table Tx Key Row} (hleft : Frame tx first second)
    (hright : Frame tx second third) : Frame tx first third where
  kept key owner version hne hheld := by
    have hcell := hleft.kept key owner version hne hheld
    rw [← hcell] at hheld
    rw [hright.kept key owner version hne hheld, hcell]
  given key owner version hne hheld :=
    hleft.given key owner version hne (hright.given key owner version hne hheld)

theorem frame_put [DecidableEq Key] (hlock : table.lockable tx key = true) :
    Frame tx table (table.put tx key version) where
  kept other owner held hne hheld := by
    apply cell_put_of_ne
    rintro rfl
    exact hne (lockable_iff.mp hlock owner held hheld)
  given other owner held hne hheld := by
    rcases held_put_iff.mp hheld with ⟨_, heq, _⟩ | ⟨_, hold⟩
    · exact absurd heq hne
    · exact hold

theorem frame_visit [DecidableEq Key] {cond : Row → Bool} {set : Row → Row}
    {next : Table Tx Key Row} {hit : Bool}
    (hvisit : table.visit tx key cond set = some (next, hit)) : Frame tx table next := by
  obtain ⟨hlock, ⟨_, -, -, -, rfl⟩ | ⟨_, -, -, -, rfl⟩ | ⟨-, -, rfl⟩⟩ := visit_eq_some hvisit
  · exact frame_put hlock
  · exact frame_put hlock
  · exact frame_refl

theorem frame_commit : Frame tx table (table.commit tx) where
  kept key owner held hne hheld := by
    apply commit_of_not_held
    intro version hversion
    rw [hheld] at hversion
    cases hversion
    exact hne rfl
  given key owner held _ hheld := (held_commit_iff.mp hheld).2

theorem frame_rollback : Frame tx table (table.rollback tx) where
  kept key owner held hne hheld := by
    apply rollback_of_not_held
    intro version hversion
    rw [hheld] at hversion
    cases hversion
    exact hne rfl
  given key owner held _ hheld := (held_rollback_iff.mp hheld).2

end Frames

/-! ### Counting committed rows -/

section Counting

variable {before after : Table Tx Key Row} {key : Key} {cond : Row → Bool}

omit [DecidableEq Tx] in
theorem mem_matching {table : Table Tx Key Row} :
    key ∈ table.matching cond ↔ ∃ row, table.committed key = some row ∧ cond row = true := by
  rw [matching, List.mem_filter, Option.any_eq_true]
  refine ⟨And.right, fun hrow => ⟨table.listed key ?_, hrow⟩⟩
  rintro habsent
  obtain ⟨row, hrow, -⟩ := hrow
  simp [committed, habsent, Cell.absent] at hrow

omit [DecidableEq Tx] in
theorem nodup_matching (table : Table Tx Key Row) (cond : Row → Bool) :
    (table.matching cond).Nodup :=
  table.nodup.filter _

omit [DecidableEq Tx] in
theorem count_congr
    (hsame : ∀ key, key ∈ after.matching cond ↔ key ∈ before.matching cond) :
    after.count cond = before.count cond :=
  List.Perm.length_eq
    ((List.perm_ext_iff_of_nodup (nodup_matching after _) (nodup_matching before _)).mpr hsame)

omit [DecidableEq Tx] in
/-- One row more: `key` starts to count and nothing else changes. -/
theorem count_succ (before : Table Tx Key Row) (key : Key) (hold : key ∉ before.matching cond)
    (hnew : key ∈ after.matching cond)
    (hsame : ∀ other, other ≠ key → (other ∈ after.matching cond ↔ other ∈ before.matching cond)) :
    after.count cond = before.count cond + 1 := by
  have hperm : List.Perm (after.matching cond) (key :: before.matching cond) := by
    refine (List.perm_ext_iff_of_nodup (nodup_matching after _)
      (List.nodup_cons.mpr ⟨hold, nodup_matching before _⟩)).mpr fun other => ?_
    rw [List.mem_cons]
    by_cases heq : other = key
    · subst heq
      simp [hnew]
    · simp [heq, hsame other heq]
  simpa [count] using hperm.length_eq

omit [DecidableEq Tx] in
theorem count_eq_zero (hnone : ∀ key, key ∉ before.matching cond) : before.count cond = 0 := by
  rw [count, List.length_eq_zero_iff, List.eq_nil_iff_forall_not_mem]
  exact hnone

omit [DecidableEq Tx] in
theorem count_le_one (hunique : ∀ key other, key ∈ before.matching cond →
    other ∈ before.matching cond → key = other) : before.count cond ≤ 1 := by
  unfold count
  cases hkeys : before.matching cond with
  | nil => exact Nat.zero_le 1
  | cons first rest =>
      have hrest : rest = [] := List.eq_nil_iff_forall_not_mem.mpr fun other hother => by
        have hfirst := hunique first other (by simp [hkeys]) (by simp [hkeys, hother])
        have hnodup := nodup_matching before cond
        rw [hkeys, List.nodup_cons] at hnodup
        exact hnodup.1 (hfirst ▸ hother)
      simp [hrest]

end Counting

end Table

end ReadCommitted

import Mathlib.Logic.Function.Basic

/-!
# Entries with deadlines

A store each of whose entries can be read until its deadline. An entry that nobody can read any more
may stay where it is.
-/

namespace Expiring

structure Item (Value : Type) where
  value : Value
  /-- The entry is gone from then on. -/
  deadline : Nat
  deriving DecidableEq

abbrev Store (Key Value : Type) := Key → Option (Item Value)

namespace Store

variable {Key Value : Type}

def read (store : Store Key Value) (now : Nat) (key : Key) : Option Value :=
  ((store key).filter fun item => now < item.deadline).map Item.value

variable {store : Store Key Value} {now : Nat} {key other : Key} {value : Value} {item : Item Value}

theorem read_eq_some (hread : store.read now key = some value) :
    ∃ item, store key = some item ∧ now < item.deadline ∧ item.value = value := by
  obtain ⟨item, hitem, hvalue⟩ := Option.map_eq_some_iff.mp hread
  obtain ⟨hstored, hlive⟩ := Option.filter_eq_some_iff.mp hitem
  exact ⟨item, hstored, of_decide_eq_true hlive, hvalue⟩

theorem read_of_eq_none (hnone : store key = none) (now : Nat) : store.read now key = none := by
  simp [read, hnone]

theorem read_of_lt (hitem : store key = some item) (hlive : now < item.deadline) :
    store.read now key = some item.value := by
  simp [read, hitem, Option.filter, hlive]

theorem read_of_ge (hitem : store key = some item) (hdead : item.deadline ≤ now) :
    store.read now key = none := by
  simp [read, hitem, hdead]

theorem read_congr {store' : Store Key Value} (hsame : store key = store' key) (now : Nat) :
    store.read now key = store'.read now key := by
  rw [read, hsame, read]

variable [DecidableEq Key]

def set (store : Store Key Value) (now : Nat) (key : Key) (value : Value) (ttlMs : Nat) :
    Store Key Value :=
  Function.update store key (some ⟨value, now + ttlMs⟩)

/-- A new deadline for an entry that can be read. -/
def refresh (store : Store Key Value) (now : Nat) (key : Key) (ttlMs : Nat) : Store Key Value :=
  match store.read now key with
  | some value => store.set now key value ttlMs
  | none => store

def delete (store : Store Key Value) (key : Key) : Store Key Value := Function.update store key none

@[simp]
theorem set_self (ttlMs : Nat) : store.set now key value ttlMs key = some ⟨value, now + ttlMs⟩ :=
  Function.update_self _ _ _

theorem set_of_ne (hne : other ≠ key) (now : Nat) (value : Value) (ttlMs : Nat) :
    store.set now key value ttlMs other = store other :=
  Function.update_of_ne hne _ _

theorem refresh_of_read (hread : store.read now key = some value) (ttlMs : Nat) :
    store.refresh now key ttlMs = store.set now key value ttlMs := by
  rw [refresh, hread]

theorem refresh_of_none (hread : store.read now key = none) (ttlMs : Nat) :
    store.refresh now key ttlMs = store := by
  rw [refresh, hread]

theorem refresh_of_ne (hne : other ≠ key) (now ttlMs : Nat) :
    store.refresh now key ttlMs other = store other := by
  cases hread : store.read now key with
  | none => rw [refresh_of_none hread]
  | some value => rw [refresh_of_read hread, set_of_ne hne]

@[simp]
theorem delete_self : store.delete key key = none := Function.update_self _ _ _

theorem delete_of_ne (hne : other ≠ key) : store.delete key other = store other :=
  Function.update_of_ne hne _ _

end Store

end Expiring

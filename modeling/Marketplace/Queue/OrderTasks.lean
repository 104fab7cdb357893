import Mathlib.Data.List.Nodup
import Marketplace.Outbox.Outbox

/-!
# The queue of receipts

`OrderTasksQueue.enqueueReceipt` on a BullMQ queue: `add` leaves a job alone that is still kept
under the same id. A finished job is kept for a while and then removed.
-/

namespace Marketplace.OrderTasks

def jobSendReceipt : String := "send-receipt"

def receiptAttempts : Nat := 5

def completedKeepSec : Nat := 24 * 3600

def failedKeepSec : Nat := 7 * 24 * 3600

structure ReceiptJobData where
  orderId : OrderId
  customerEmail : String
  deriving DecidableEq

def receiptJobId (orderId : OrderId) : Text :=
  ['r', 'e', 'c', 'e', 'i', 'p', 't', '-', 'o', 'r', 'd', 'e', 'r', '-'] ++ decimal orderId

/-- How and when a worker was done with a job. -/
structure Finish where
  completed : Bool
  time : Nat
  deriving DecidableEq

structure Job where
  name : String
  data : ReceiptJobData
  id : Text
  attempts : Nat
  createdAt : Nat
  finish : Option Finish
  deriving DecidableEq

/-- `removeOnComplete` and `removeOnFail`: nothing removes a job that is not finished. -/
def Job.keptUntil (job : Job) : Option Nat :=
  job.finish.map fun finish =>
    finish.time + seconds (if finish.completed then completedKeepSec else failedKeepSec)

structure Queue where
  clock : Nat
  jobs : List Job
  /-- The jobs that were removed, in that order. -/
  removed : List Job
  deriving DecidableEq

namespace Queue

variable (queue : Queue)

def init : Queue := ⟨0, [], []⟩

def has (id : Text) : Bool := queue.jobs.any fun job => job.id = id

/-- `Queue.add` with a `jobId`. -/
def add (name : String) (data : ReceiptJobData) (id : Text) (attempts : Nat) : Queue :=
  if queue.has id then queue
  else { queue with jobs := queue.jobs ++ [⟨name, data, id, attempts, queue.clock, none⟩] }

def enqueueReceipt (data : ReceiptJobData) : Queue :=
  queue.add jobSendReceipt data (receiptJobId data.orderId) receiptAttempts

def tick (elapsed : Nat) : Queue := { queue with clock := queue.clock + elapsed }

def finishJob (id : Text) (completed : Bool) (job : Job) : Job :=
  if job.id = id ∧
    job.finish = none then { job with finish := some ⟨completed, queue.clock⟩ } else job

/-- A worker is done with the job, for good or after its last attempt. -/
def finish (id : Text) (completed : Bool) : Queue :=
  { queue with jobs := queue.jobs.map (queue.finishJob id completed) }

/-- The job is older than it is kept for. -/
def remove (id : Text) : Option Queue :=
  match queue.jobs.find? fun job => job.id = id with
  | none => none
  | some job =>
      if job.keptUntil.any fun limit => limit < queue.clock then
        some { queue with
          jobs := queue.jobs.filter fun other => other.id ≠ id
          removed := queue.removed ++ [job] }
      else none

/-- Every job there ever was. -/
def all : List Job := queue.removed ++ queue.jobs

/-- A receipt of this id has been added. -/
def Added (id : Text) : Prop := ∃ job ∈ queue.all, job.name = jobSendReceipt ∧ job.id = id

end Queue

/-- The one job was finished and its time was up before the other was added. -/
def Job.GoneBefore (job later : Job) : Prop := ∃ limit, job.keptUntil = some limit ∧
    limit < later.createdAt

/-- One job for each id at a time, and all of them receipts. -/
structure Once (queue : Queue) : Prop where
  receipts : ∀ job ∈ queue.jobs, job.name = jobSendReceipt
  ids : (queue.jobs.map Job.id).Nodup
  expired : ∀ job ∈ queue.removed, ∃ limit, job.keptUntil = some limit ∧ limit < queue.clock
  apart : ∀ earlier ∈ queue.removed, ∀ later ∈ queue.jobs, earlier.id = later.id →
    earlier.GoneBefore later
  removed : queue.removed.Pairwise fun earlier later => earlier.id = later.id →
    earlier.GoneBefore later

variable {queue after : Queue} {id : Text}

theorem once_init : Once .init where
  receipts := by simp [Queue.init]
  ids := List.nodup_nil
  expired := by simp [Queue.init]
  apart := by simp [Queue.init]
  removed := List.Pairwise.nil

/-- Jobs of one id are apart by the time that the first one is kept. -/
theorem Once.all (honce : Once queue) :
    queue.all.Pairwise fun earlier later => earlier.id = later.id → earlier.GoneBefore later := by
  refine List.pairwise_append.mpr ⟨honce.removed, ?_, honce.apart⟩
  exact (List.pairwise_map.mp honce.ids).imp fun hne heq => absurd heq hne

theorem Once.filter_length_le (honce : Once queue) (id : Text) :
    (queue.jobs.filter fun job => job.id = id).length ≤ 1 := by
  calc
    (queue.jobs.filter fun job => job.id = id).length = (queue.jobs.map Job.id).count id := by
      rw [← List.countP_eq_length_filter, List.count, List.countP_map]
      congr 1
      funext job
      by_cases heq : job.id = id <;> simp [heq]
    _ ≤ 1 := List.nodup_iff_count_le_one.mp honce.ids id

/-! ### What the operations do -/

theorem id_finishJob (completed : Bool) (job : Job) :
    (queue.finishJob id completed job).id = job.id := by
  unfold Queue.finishJob
  split <;> rfl

theorem createdAt_finishJob (completed : Bool) (job : Job) :
    (queue.finishJob id completed job).createdAt = job.createdAt := by
  unfold Queue.finishJob
  split <;> rfl

theorem name_finishJob (completed : Bool) (job : Job) :
    (queue.finishJob id completed job).name = job.name := by
  unfold Queue.finishJob
  split <;> rfl

theorem has_iff : queue.has id = true ↔ ∃ job ∈ queue.jobs, job.id = id := by
  simp [Queue.has]

theorem remove_spec (hremove : queue.remove id = some after) : ∃ job ∈ queue.jobs, job.id = id ∧
    (∃ limit, job.keptUntil = some limit ∧ limit < queue.clock) ∧
    after = { queue with
      jobs := queue.jobs.filter fun other => other.id ≠ id
      removed := queue.removed ++ [job] } := by
  unfold Queue.remove at hremove
  split at hremove
  · cases hremove
  rename_i job hjob
  split at hremove <;> cases hremove
  rename_i hexpired
  obtain ⟨limit, hlimit, hless⟩ := Option.any_eq_true _ _ |>.mp hexpired
  exact ⟨job, List.mem_of_find?_eq_some hjob, by simpa using List.find?_some hjob,
    ⟨limit, hlimit, of_decide_eq_true hless⟩, rfl⟩

theorem Once.enqueueReceipt (honce : Once queue) (data : ReceiptJobData) :
    Once (queue.enqueueReceipt data) := by
  unfold Queue.enqueueReceipt Queue.add
  split
  · exact honce
  rename_i hfresh
  have hnew : ∀ job ∈ queue.jobs, job.id ≠ receiptJobId data.orderId := fun job hjob heq =>
    hfresh (has_iff.mpr ⟨job, hjob, heq⟩)
  constructor
  · intro job hjob
    rcases List.mem_append.mp hjob with hold | hadded
    · exact honce.receipts job hold
    · rw [List.mem_singleton.mp hadded]
  · rw [List.map_append, List.nodup_append]
    refine ⟨honce.ids, List.nodup_singleton _, ?_⟩
    intro left hleft right hright
    obtain ⟨job, hjob, rfl⟩ := List.mem_map.mp hleft
    rw [List.map_singleton, List.mem_singleton] at hright
    rw [hright]
    exact hnew job hjob
  · exact honce.expired
  · intro earlier hearlier later hlater hid
    rcases List.mem_append.mp hlater with hold | hadded
    · exact honce.apart earlier hearlier later hold hid
    · rw [List.mem_singleton.mp hadded]
      exact honce.expired earlier hearlier
  · exact honce.removed

theorem Once.tick (honce : Once queue) (elapsed : Nat) : Once (queue.tick elapsed) where
  receipts := honce.receipts
  ids := honce.ids
  expired job hjob := by
    obtain ⟨limit, hlimit, hless⟩ := honce.expired job hjob
    exact ⟨limit, hlimit, Nat.lt_of_lt_of_le hless (Nat.le_add_right _ _)⟩
  apart := honce.apart
  removed := honce.removed

theorem Once.finish (honce : Once queue) (id : Text) (completed : Bool) :
    Once (queue.finish id completed) where
  receipts job hjob := by
    obtain ⟨before, hbefore, rfl⟩ := List.mem_map.mp hjob
    rw [name_finishJob]
    exact honce.receipts before hbefore
  ids := by
    have hmap : (queue.finish id completed).jobs.map Job.id = queue.jobs.map Job.id := by
      simp [Queue.finish, id_finishJob]
    rw [hmap]
    exact honce.ids
  expired := honce.expired
  apart earlier hearlier later hlater heq := by
    obtain ⟨job, hjob, rfl⟩ := List.mem_map.mp hlater
    rw [id_finishJob] at heq
    obtain ⟨limit, hlimit, hless⟩ := honce.apart earlier hearlier job hjob heq
    exact ⟨limit, hlimit, by rwa [createdAt_finishJob]⟩
  removed := honce.removed

theorem Once.remove (honce : Once queue) (hremove : queue.remove id = some after) : Once after := by
  obtain ⟨job, hjob, hid, hexpired, rfl⟩ := remove_spec hremove
  constructor
  · exact fun other hother => honce.receipts other (List.mem_of_mem_filter hother)
  · exact (List.filter_sublist.map _).nodup honce.ids
  · intro other hother
    rcases List.mem_append.mp hother with hold | hnew
    · exact honce.expired other hold
    · rw [List.mem_singleton.mp hnew]
      exact hexpired
  · intro earlier hearlier later hlater heq
    obtain ⟨hkept, hother⟩ := List.mem_filter.mp hlater
    rcases List.mem_append.mp hearlier with hold | hnew
    · exact honce.apart earlier hold later hkept heq
    · rw [List.mem_singleton.mp hnew] at heq
      exact absurd (heq.symm.trans hid) (of_decide_eq_true hother)
  · refine List.pairwise_append.mpr ⟨honce.removed, List.pairwise_singleton _ _, ?_⟩
    intro earlier hearlier later hlater
    rw [List.mem_singleton.mp hlater]
    exact honce.apart earlier hearlier job hjob

/-! ### A receipt that was added stays in the history -/

theorem added_enqueueReceipt (honce : Once queue) (data : ReceiptJobData) :
    (queue.enqueueReceipt data).Added (receiptJobId data.orderId) := by
  unfold Queue.enqueueReceipt Queue.add
  split
  · rename_i hhas
    obtain ⟨job, hjob, hid⟩ := has_iff.mp hhas
    exact ⟨job, List.mem_append_right _ hjob, honce.receipts job hjob, hid⟩
  · exact ⟨_, List.mem_append_right _ (List.mem_append_right _ List.mem_cons_self), rfl, rfl⟩

theorem Queue.Added.enqueueReceipt (hadded : queue.Added id) (data : ReceiptJobData) :
    (queue.enqueueReceipt data).Added id := by
  unfold Queue.enqueueReceipt Queue.add
  split
  · exact hadded
  · obtain ⟨job, hjob, hname, hid⟩ := hadded
    refine ⟨job, ?_, hname, hid⟩
    rw [Queue.all, ← List.append_assoc]
    exact List.mem_append_left _ hjob

theorem Queue.Added.finish (hadded : queue.Added id) (other : Text) (completed : Bool) :
    (queue.finish other completed).Added id := by
  obtain ⟨job, hjob, hname, hid⟩ := hadded
  rcases List.mem_append.mp hjob with hremoved | hkept
  · exact ⟨job, List.mem_append_left _ hremoved, hname, hid⟩
  · refine ⟨queue.finishJob other completed job,
      List.mem_append_right _ (List.mem_map_of_mem hkept), ?_, ?_⟩
    · rw [name_finishJob, hname]
    · rw [id_finishJob, hid]

theorem Queue.Added.remove {other : Text} (honce : Once queue) (hadded : queue.Added id)
    (hremove : queue.remove other = some after) : after.Added id := by
  obtain ⟨removed, hremoved, hother, -, rfl⟩ := remove_spec hremove
  obtain ⟨job, hjob, hname, hid⟩ := hadded
  rcases List.mem_append.mp hjob with hgone | hkept
  · exact ⟨job, List.mem_append_left _ (List.mem_append_left _ hgone), hname, hid⟩
  by_cases hsame : job.id = other
  · have heq : job = removed :=
      List.inj_on_of_nodup_map honce.ids hkept hremoved (hsame.trans hother.symm)
    exact ⟨job, List.mem_append_left _ (List.mem_append_right _ (by simp [heq])), hname, hid⟩
  · exact ⟨job, List.mem_append_right _ (List.mem_filter.mpr ⟨hkept, decide_eq_true hsame⟩),
      hname, hid⟩

end Marketplace.OrderTasks

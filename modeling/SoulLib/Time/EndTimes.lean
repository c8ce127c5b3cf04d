import Mathlib.Algebra.Order.Ring.Nat
import Mathlib.Data.List.Basic
import SoulLib.Time.TimerManager

/-! When a timed task ends.

A task is restarted and extended by adding a duration to a time, both of 64 bits.
The exact end time is the same sum without an overflow, and what the task and its
manager say is compared with that.
-/

set_option autoImplicit false

namespace SoulLib.Time

namespace TimedTask

variable (task : TimedTask)

def restart (newDuration : BitVec 64) : TimedTask := { task with endTime := task.startTime + newDuration }

def extend (duration : BitVec 64) : TimedTask := { task with endTime := task.endTime + duration }

def forceComplete : TimedTask := { task with endTime := 0 }

end TimedTask

inductive TaskCall where
  | restart (newDuration : BitVec 64)
  | extend (duration : BitVec 64)
  | forceComplete
  deriving DecidableEq, Repr

namespace TimedTask

def call (task : TimedTask) : TaskCall → TimedTask
  | .restart newDuration => task.restart newDuration
  | .extend duration => task.extend duration
  | .forceComplete => task.forceComplete

def after (task : TimedTask) (calls : List TaskCall) : TimedTask := calls.foldl call task

/-- The end time that a call leaves, given the one before. -/
def exactCall (task : TimedTask) (exact : Nat) : TaskCall → Nat
  | .restart newDuration => task.startTime.toNat + newDuration.toNat
  | .extend duration => exact + duration.toNat
  | .forceComplete => 0

def exactEnd (task : TimedTask) (calls : List TaskCall) : Nat := calls.foldl task.exactCall task.endTime.toNat

/-- No task ends later than the last time there is. -/
def cappedEnd (task : TimedTask) (calls : List TaskCall) : Nat := min (task.exactEnd calls) (2 ^ 64 - 1)

end TimedTask

/-- The task has the exact remaining time, and if it was extended last then not into completion. -/
structure TellsTime (task : TimedTask) (calls : List TaskCall) : Prop where
  remaining : ∀ currentTime,
    ((task.after calls).getRemainingTime currentTime).toNat = task.cappedEnd calls - currentTime.toNat
  extended : ∀ prior duration, calls = prior ++ [.extend duration] →
    ∀ currentTime, (task.after calls).isComplete currentTime → (task.after prior).isComplete currentTime

/-- The tasks at some addresses, each after its own calls. -/
def managed (tasks : Nat → TimedTask) (calls : Nat → List TaskCall) (addresses : List Nat) : TimerManager where
  activeTasks := addresses.map fun address => ⟨address, (tasks address).after (calls address)⟩

/-- The tasks that end later stay, in their order. -/
def RemovesExactly (tasks : Nat → TimedTask) (calls : Nat → List TaskCall) (addresses : List Nat) : Prop :=
  ∀ currentTime : BitVec 64,
    (managed tasks calls addresses).removeCompletedTasks currentTime =
      managed tasks calls
        (addresses.filter fun address => currentTime.toNat < (tasks address).cappedEnd (calls address))

/-- A sum of 64 bits that is as good as the exact one. -/
def Fits (exact : Nat) : Prop := exact < 2 ^ 64 ∨ exact % 2 ^ 64 = 2 ^ 64 - 1

variable {task : TimedTask} {calls : List TaskCall} {exact : Nat}

namespace TimedTask

theorem isComplete_iff (task : TimedTask) (currentTime : BitVec 64) :
    task.isComplete currentTime = true ↔ task.endTime.toNat ≤ currentTime.toNat := by
  rw [isComplete, decide_eq_true_iff, BitVec.le_def]

theorem getRemainingTime_toNat (task : TimedTask) (currentTime : BitVec 64) :
    (task.getRemainingTime currentTime).toNat = task.endTime.toNat - currentTime.toNat := by
  unfold getRemainingTime
  split
  · next complete => exact (Nat.sub_eq_zero_of_le complete).symm
  · next ahead => exact BitVec.toNat_sub_of_le (BitVec.le_of_lt (BitVec.not_le.mp ahead))

theorem call_endTime (wraps : task.endTime.toNat = exact % 2 ^ 64) (call : TaskCall) :
    (task.call call).startTime = task.startTime ∧
      (task.call call).endTime.toNat = task.exactCall exact call % 2 ^ 64 := by
  cases call with
  | restart newDuration => exact ⟨rfl, BitVec.toNat_add _ _⟩
  | extend duration =>
      refine ⟨rfl, ?_⟩
      show (task.endTime + duration).toNat = _
      rw [BitVec.toNat_add, wraps, exactCall, Nat.mod_add_mod]
  | forceComplete => exact ⟨rfl, rfl⟩

theorem foldl_call_endTime (wraps : task.endTime.toNat = exact % 2 ^ 64) (calls : List TaskCall) :
    (calls.foldl call task).endTime.toNat = calls.foldl task.exactCall exact % 2 ^ 64 := by
  induction calls generalizing task exact with
  | nil => exact wraps
  | cons first calls ih =>
      obtain ⟨start, wraps⟩ := call_endTime wraps first
      have same : (task.call first).exactCall = task.exactCall := by
        funext exact other
        cases other with
        | restart newDuration => simp only [exactCall, start]
        | extend duration => rfl
        | forceComplete => rfl
      rw [List.foldl_cons, List.foldl_cons, ih wraps, same]

theorem after_endTime (task : TimedTask) (calls : List TaskCall) :
    (task.after calls).endTime.toNat = task.exactEnd calls % 2 ^ 64 :=
  foldl_call_endTime (Nat.mod_eq_of_lt task.endTime.isLt).symm calls

theorem exactEnd_extend (task : TimedTask) (prior : List TaskCall) (duration : BitVec 64) :
    task.exactEnd (prior ++ [.extend duration]) = task.exactEnd prior + duration.toNat := by
  rw [exactEnd, List.foldl_append]
  rfl

end TimedTask

theorem fits_iff : Fits exact ↔ exact % 2 ^ 64 = min exact (2 ^ 64 - 1) := by
  unfold Fits
  omega

theorem fits_exactEnd_iff : Fits (task.exactEnd calls) ↔ (task.after calls).endTime.toNat = task.cappedEnd calls := by
  rw [fits_iff, TimedTask.after_endTime, TimedTask.cappedEnd]

/-- An extension that fits keeps the end time or makes it later. -/
theorem endTime_le_of_extend {prior : List TaskCall} {duration : BitVec 64}
    (fits : Fits (task.exactEnd (prior ++ [.extend duration]))) :
    (task.after prior).endTime.toNat ≤ (task.after (prior ++ [.extend duration])).endTime.toNat := by
  rw [TimedTask.exactEnd_extend] at fits
  rw [TimedTask.after_endTime, TimedTask.after_endTime, TimedTask.exactEnd_extend]
  unfold Fits at fits
  omega

theorem tellsTime_iff (task : TimedTask) (calls : List TaskCall) :
    TellsTime task calls ↔ Fits (task.exactEnd calls) := by
  constructor
  · intro tells
    have atZero := tells.remaining 0
    rw [TimedTask.getRemainingTime_toNat] at atZero
    exact fits_exactEnd_iff.mpr atZero
  · intro fits
    refine ⟨?_, ?_⟩
    · intro currentTime
      rw [TimedTask.getRemainingTime_toNat, fits_exactEnd_iff.mp fits]
    · rintro prior duration rfl currentTime complete
      rw [TimedTask.isComplete_iff] at complete ⊢
      exact Nat.le_trans (endTime_le_of_extend fits) complete

section Managing

variable (tasks : Nat → TimedTask) (calls : Nat → List TaskCall) (addresses : List Nat)

theorem removeCompletedTasks_managed (currentTime : BitVec 64) :
    (managed tasks calls addresses).removeCompletedTasks currentTime =
      managed tasks calls
        (addresses.filter fun address => !((tasks address).after (calls address)).isComplete currentTime) := by
  simp only [managed, TimerManager.removeCompletedTasks, List.filter_map]
  rfl

theorem managed_injective : Function.Injective (managed tasks calls) := by
  have known (addresses : List Nat) :
      (managed tasks calls addresses).activeTasks.map TaskPointer.address = addresses := by
    rw [managed, List.map_map]
    exact List.map_id addresses
  intro first second same
  rw [← known first, same, known]

theorem filter_eq_iff {α : Type} {stays kept : α → Bool} {elements : List α} :
    elements.filter stays = elements.filter kept ↔ ∀ element ∈ elements, stays element = kept element := by
  constructor
  · intro same element member
    have both : element ∈ elements.filter stays ↔ element ∈ elements.filter kept := by rw [same]
    rw [List.mem_filter, List.mem_filter, and_iff_right member, and_iff_right member] at both
    exact Bool.eq_iff_iff.mpr both
  · exact List.filter_congr

/-- A task is complete at the right times only if its end time fits: the two end times,
each taken as the current time, bound each other. -/
theorem fits_of_isComplete {task : TimedTask} {calls : List TaskCall}
    (same : ∀ currentTime : BitVec 64,
      (!(task.after calls).isComplete currentTime) = decide (currentTime.toNat < task.cappedEnd calls)) :
    Fits (task.exactEnd calls) := by
  have iff (currentTime : BitVec 64) :
      (task.after calls).endTime.toNat ≤ currentTime.toNat ↔ task.cappedEnd calls ≤ currentTime.toNat := by
    rw [← TimedTask.isComplete_iff, ← Nat.not_lt, ← decide_eq_false_iff_not, ← same, Bool.not_eq_false']
  have capped : task.cappedEnd calls < 2 ^ 64 := by
    unfold TimedTask.cappedEnd
    omega
  refine fits_exactEnd_iff.mpr (Nat.le_antisymm ?_ ?_)
  · have atEnd := (iff (BitVec.ofNat 64 (task.cappedEnd calls))).mpr
    rw [BitVec.toNat_ofNat, Nat.mod_eq_of_lt capped] at atEnd
    exact atEnd (Nat.le_refl _)
  · exact (iff (task.after calls).endTime).mp (Nat.le_refl _)

theorem removesExactly_iff :
    RemovesExactly tasks calls addresses ↔ ∀ address ∈ addresses, Fits ((tasks address).exactEnd (calls address)) := by
  have unfolded : RemovesExactly tasks calls addresses ↔
      ∀ currentTime : BitVec 64, ∀ address ∈ addresses,
        (!((tasks address).after (calls address)).isComplete currentTime) =
          decide (currentTime.toNat < (tasks address).cappedEnd (calls address)) := by
    unfold RemovesExactly
    simp only [removeCompletedTasks_managed, (managed_injective tasks calls).eq_iff, filter_eq_iff]
  rw [unfolded]
  constructor
  · intro same address member
    exact fits_of_isComplete fun currentTime => same currentTime address member
  · intro fits currentTime address member
    rw [Bool.eq_iff_iff, Bool.not_eq_true', ← Bool.not_eq_true, TimedTask.isComplete_iff, decide_eq_true_iff,
      fits_exactEnd_iff.mp (fits address member), Nat.not_le]

/-- Tasks and manager keep exact time if and only if the end times of the tasks fit. -/
theorem exact_time_iff :
    ((∀ address ∈ addresses, TellsTime (tasks address) (calls address)) ∧ RemovesExactly tasks calls addresses) ↔
      ∀ address ∈ addresses, Fits ((tasks address).exactEnd (calls address)) := by
  rw [removesExactly_iff]
  simp only [tellsTime_iff, and_self]

end Managing

/-- A task that never ends, once extended, is complete at the very beginning. -/
theorem extended_into_completion :
    let tasks : Nat → TimedTask := fun _ => { startTime := 0, endTime := BitVec.allOnes 64 }
    let calls : Nat → List TaskCall := fun _ => [.extend 1]
    ¬TellsTime (tasks 1) (calls 1) ∧ ¬RemovesExactly tasks calls [1] := by
  constructor
  · intro tells
    have complete := tells.extended [] 1 rfl 0 (by decide)
    exact absurd complete (by decide)
  · intro exactly
    exact absurd (exactly 0) (by decide)

end SoulLib.Time

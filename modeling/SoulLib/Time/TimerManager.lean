import Mathlib.Data.List.Induction

/-! The timer manager.

The manager holds shared pointers. A pointer is an address together with the task
it points to when a method is called.
-/

set_option autoImplicit false

namespace SoulLib.Time

structure TimedTask where
  startTime : BitVec 64
  endTime : BitVec 64
  id : String := ""
  deriving DecidableEq, Repr

namespace TimedTask

def isComplete (task : TimedTask) (currentTime : BitVec 64) : Bool := decide (task.endTime ≤ currentTime)

def getRemainingTime (task : TimedTask) (currentTime : BitVec 64) : BitVec 64 :=
  if task.endTime ≤ currentTime then 0 else task.endTime - currentTime

end TimedTask

structure TaskPointer where
  address : Nat
  task : TimedTask
  deriving DecidableEq, Repr

structure TimerManager where
  activeTasks : List TaskPointer := []
  deriving DecidableEq, Repr

/-- The variables of the scan, with `UINT64_MAX` to begin with. -/
structure Scan where
  nextTask : Option TaskPointer := none
  minTime : BitVec 64 := BitVec.allOnes 64
  deriving DecidableEq, Repr

def Scan.visit (currentTime : BitVec 64) (scan : Scan) (pointer : TaskPointer) : Scan :=
  let remainingTime := pointer.task.getRemainingTime currentTime
  if remainingTime < scan.minTime then { nextTask := some pointer, minTime := remainingTime } else scan

namespace TimerManager

variable (manager : TimerManager)

def addTask (task : TaskPointer) : TimerManager := { manager with activeTasks := manager.activeTasks ++ [task] }

def getCompletedTasks (currentTime : BitVec 64) : List TaskPointer :=
  manager.activeTasks.filter fun pointer => pointer.task.isComplete currentTime

def removeCompletedTasks (currentTime : BitVec 64) : TimerManager :=
  { manager with activeTasks := manager.activeTasks.filter fun pointer => !pointer.task.isComplete currentTime }

def findTaskById (id : String) : Option TaskPointer := manager.activeTasks.find? fun pointer => pointer.task.id = id

def getNextToComplete (currentTime : BitVec 64) : Option TaskPointer :=
  (manager.activeTasks.foldl (Scan.visit currentTime) {}).nextTask

theorem findTaskById_addTask (task : TaskPointer) (id : String) :
    (manager.addTask task).findTaskById id =
      (manager.findTaskById id).or (if task.task.id = id then some task else none) := by
  rw [findTaskById, addTask, List.find?_append]
  by_cases same : task.task.id = id <;> simp [findTaskById, same]

theorem getCompletedTasks_perm (currentTime : BitVec 64) :
    (manager.getCompletedTasks currentTime ++ (manager.removeCompletedTasks currentTime).activeTasks).Perm
      manager.activeTasks := List.filter_append_perm _ _

end TimerManager

/-- The task at a position has the least remaining time, and those before it have more. -/
structure Soonest (currentTime : BitVec 64) (tasks : List TaskPointer) (pointer : TaskPointer) (position : Nat) :
    Prop where
  active : tasks[position]? = some pointer
  least : ∀ other ∈ tasks, pointer.task.getRemainingTime currentTime ≤ other.task.getRemainingTime currentTime
  earliest : ∀ earlier < position, ∀ other, tasks[earlier]? = some other →
    pointer.task.getRemainingTime currentTime < other.task.getRemainingTime currentTime

/-- No task is returned only if there is none, and otherwise the soonest one. -/
structure FindsSoonest (manager : TimerManager) (currentTime : BitVec 64) : Prop where
  none : manager.getNextToComplete currentTime = none ↔ manager.activeTasks = []
  some : ∀ pointer, manager.getNextToComplete currentTime = some pointer →
    ∃ position, Soonest currentTime manager.activeTasks pointer position

section Scanning

variable {currentTime : BitVec 64}

/-- What the scan has found among the tasks so far. -/
inductive Scanned (currentTime : BitVec 64) (tasks : List TaskPointer) : Scan → Prop where
  | nothing (late : ∀ other ∈ tasks, other.task.getRemainingTime currentTime = BitVec.allOnes 64) :
      Scanned currentTime tasks {}
  | found {pointer : TaskPointer} {position : Nat} (soonest : Soonest currentTime tasks pointer position)
      (sooner : pointer.task.getRemainingTime currentTime ≠ BitVec.allOnes 64) :
      Scanned currentTime tasks
        { nextTask := some pointer, minTime := pointer.task.getRemainingTime currentTime }

/-- A task that is scanned after others becomes the soonest, or does not change which one is. -/
theorem Soonest.append {tasks : List TaskPointer} {pointer : TaskPointer} {position : Nat}
    (soonest : Soonest currentTime tasks pointer position) {next : TaskPointer}
    (later : pointer.task.getRemainingTime currentTime ≤ next.task.getRemainingTime currentTime) :
    Soonest currentTime (tasks ++ [next]) pointer position := by
  have bound := (List.getElem?_eq_some_iff.mp soonest.active).1
  refine ⟨?_, ?_, ?_⟩
  · rw [List.getElem?_append_left bound, soonest.active]
  · intro other member
    rcases List.mem_append.mp member with old | new
    · exact soonest.least other old
    · rw [List.mem_singleton.mp new]
      exact later
  · intro earlier before other here
    rw [List.getElem?_append_left (Nat.lt_trans before bound)] at here
    exact soonest.earliest earlier before other here

theorem soonest_last {tasks : List TaskPointer} {next : TaskPointer}
    (sooner : ∀ other ∈ tasks, next.task.getRemainingTime currentTime < other.task.getRemainingTime currentTime) :
    Soonest currentTime (tasks ++ [next]) next tasks.length := by
  refine ⟨by simp, ?_, ?_⟩
  · intro other member
    rcases List.mem_append.mp member with old | new
    · exact BitVec.le_of_lt (sooner other old)
    · rw [List.mem_singleton.mp new]
      exact BitVec.le_refl _
  · intro earlier before other here
    rw [List.getElem?_append_left before] at here
    exact sooner other (List.mem_of_getElem? here)

theorem Scanned.visit {tasks : List TaskPointer} {scan : Scan} (scanned : Scanned currentTime tasks scan)
    (next : TaskPointer) : Scanned currentTime (tasks ++ [next]) (scan.visit currentTime next) := by
  cases scanned with
  | nothing late =>
      simp only [Scan.visit]
      split
      · next below =>
          have sooner := BitVec.lt_allOnes_iff.mp below
          refine .found (soonest_last ?_) sooner
          intro other member
          rw [late other member]
          exact below
      · next notBelow =>
          refine .nothing ?_
          intro other member
          rcases List.mem_append.mp member with old | new
          · exact late other old
          · rw [List.mem_singleton.mp new]
            by_contra differ
            exact notBelow (BitVec.lt_allOnes_iff.mpr differ)
  | @found pointer position soonest sooner =>
      simp only [Scan.visit]
      split
      · next below =>
          refine .found (soonest_last ?_) ?_
          · intro other member
            exact Nat.lt_of_lt_of_le below (soonest.least other member)
          · exact BitVec.lt_allOnes_iff.mp (BitVec.lt_trans below (BitVec.lt_allOnes_iff.mpr sooner))
      · next notBelow => exact .found (soonest.append (BitVec.not_lt.mp notBelow)) sooner

theorem scanned_foldl (currentTime : BitVec 64) (tasks : List TaskPointer) :
    Scanned currentTime tasks (tasks.foldl (Scan.visit currentTime) {}) := by
  induction tasks using List.reverseRecOn with
  | nil => exact .nothing (by simp)
  | append_singleton tasks next ih =>
      rw [List.foldl_append, List.foldl_cons, List.foldl_nil]
      exact ih.visit next

/-- A task has the longest remaining time only if it never ends and the clock has not started. -/
theorem getRemainingTime_eq_allOnes_iff {task : TimedTask} :
    task.getRemainingTime currentTime = BitVec.allOnes 64 ↔ currentTime = 0 ∧ task.endTime = BitVec.allOnes 64 := by
  have bound := task.endTime.isLt
  unfold TimedTask.getRemainingTime
  constructor
  · intro longest
    split at longest
    · cases longest
    · next ahead =>
        rw [BitVec.not_le] at ahead
        have below := BitVec.lt_def.mp ahead
        have left := congrArg BitVec.toNat longest
        rw [BitVec.toNat_sub_of_le (BitVec.le_of_lt ahead), BitVec.toNat_allOnes] at left
        constructor
        · apply BitVec.eq_of_toNat_eq
          show currentTime.toNat = 0
          omega
        · apply BitVec.eq_of_toNat_eq
          rw [BitVec.toNat_allOnes]
          omega
  · rintro ⟨rfl, never⟩
    rw [never]
    decide

theorem Scanned.finds_iff {manager : TimerManager}
    (scanned : Scanned currentTime manager.activeTasks (manager.activeTasks.foldl (Scan.visit currentTime) {})) :
    FindsSoonest manager currentTime ↔
      manager.activeTasks = [] ∨
        ∃ pointer ∈ manager.activeTasks, pointer.task.getRemainingTime currentTime ≠ BitVec.allOnes 64 := by
  generalize ended : manager.activeTasks.foldl (Scan.visit currentTime) {} = scan at scanned
  have next : manager.getNextToComplete currentTime = scan.nextTask := congrArg Scan.nextTask ended
  cases scanned with
  | nothing late =>
      have nobody : ¬∃ pointer ∈ manager.activeTasks,
          pointer.task.getRemainingTime currentTime ≠ BitVec.allOnes 64 := by
        rintro ⟨pointer, member, sooner⟩
        exact sooner (late pointer member)
      rw [or_iff_left nobody]
      constructor
      · intro finds
        exact finds.none.mp next
      · intro empty
        refine ⟨⟨fun _ => empty, fun _ => next⟩, ?_⟩
        intro pointer same
        cases next.symm.trans same
  | @found pointer position soonest sooner =>
      have member := List.mem_of_getElem? soonest.active
      have filled : manager.activeTasks ≠ [] := List.ne_nil_of_mem member
      refine ⟨fun _ => .inr ⟨pointer, member, sooner⟩, fun _ => ⟨?_, ?_⟩⟩
      · constructor
        · intro none
          cases next.symm.trans none
        · intro empty
          exact absurd empty filled
      · intro other same
        cases next.symm.trans same
        exact ⟨position, soonest⟩

end Scanning

/-- The soonest task is found unless the clock stands at zero and all of the tasks never end. -/
theorem findsSoonest_iff (manager : TimerManager) (currentTime : BitVec 64) :
    FindsSoonest manager currentTime ↔
      manager.activeTasks = [] ∨
        ∃ pointer ∈ manager.activeTasks, currentTime ≠ 0 ∨ pointer.task.endTime ≠ BitVec.allOnes 64 := by
  rw [(scanned_foldl currentTime manager.activeTasks).finds_iff]
  simp only [ne_eq, getRemainingTime_eq_allOnes_iff, not_and_or]

/-- Before the clock is synchronized, a task that never ends is not found. -/
theorem getNextToComplete_misses :
    let manager : TimerManager := { activeTasks := [⟨1, { startTime := 0, endTime := BitVec.allOnes 64 }⟩] }
    manager.getNextToComplete 0 = none ∧ manager.activeTasks ≠ [] ∧ ¬FindsSoonest manager 0 := by
  have missed : TimerManager.getNextToComplete
      { activeTasks := [⟨1, { startTime := 0, endTime := BitVec.allOnes 64 }⟩] } 0 = none := by decide
  refine ⟨missed, by decide, ?_⟩
  intro finds
  exact absurd (finds.none.mp missed) (by decide)

/-- Of three tasks, two of which end at the same time. -/
example : TimerManager.getNextToComplete
    { activeTasks := [⟨1, ⟨0, 9, "a"⟩⟩, ⟨2, ⟨0, 5, "b"⟩⟩, ⟨3, ⟨0, 5, "c"⟩⟩] } 2 = some ⟨2, ⟨0, 5, "b"⟩⟩ := by
  decide

end SoulLib.Time

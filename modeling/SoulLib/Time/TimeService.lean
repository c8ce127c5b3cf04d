import Mathlib.Algebra.Order.Ring.Int
import Mathlib.Data.List.Chain

/-! The time service.

Instants of the steady clock are numbers of nanoseconds, and every method takes
the instant at which it reads the clock. Server times are in milliseconds.
-/

set_option autoImplicit false

namespace SoulLib.Time

structure TimeService where
  serverTimeAtSync : BitVec 64 := 0
  lastSyncLocalTime : Int
  synced : Bool := false
  deriving DecidableEq, Repr

namespace TimeService

/-- `duration_cast` to milliseconds truncates towards zero. -/
def elapsed (service : TimeService) (now : Int) : Int := (now - service.lastSyncLocalTime).tdiv 1000000

def getCurrentTime (service : TimeService) (now : Int) : BitVec 64 :=
  if service.synced then service.serverTimeAtSync + BitVec.ofInt 64 (service.elapsed now) else 0

def syncWithServerTime (_ : TimeService) (now : Int) (serverTime : BitVec 64) : TimeService where
  serverTimeAtSync := serverTime
  lastSyncLocalTime := now
  synced := true

def updateRealTime (service : TimeService) (now : Int) : TimeService :=
  if service.synced then
    { service with
      serverTimeAtSync := service.serverTimeAtSync + BitVec.ofInt 64 (service.elapsed now)
      lastSyncLocalTime := now }
  else service

end TimeService

/-- Whole milliseconds of each interval between consecutive instants, added up. -/
def wholes (base : Int) : List Int → Int
  | [] => 0
  | next :: rest => (next - base) / 1000000 + wholes next rest

/-- What is left of each interval beyond its whole milliseconds, added up. -/
def remainders (base : Int) : List Int → Int
  | [] => 0
  | next :: rest => (next - base) % 1000000 + remainders next rest

variable {base last : Int}

theorem remainders_nonneg (base : Int) (instants : List Int) : 0 ≤ remainders base instants := by
  induction instants generalizing base with
  | nil => exact le_rfl
  | cons next rest ih =>
      have here := Int.emod_nonneg (next - base) (show (1000000 : Int) ≠ 0 by decide)
      have later := ih next
      simp only [remainders]
      omega

theorem wholes_add_remainders (base last : Int) (instants : List Int) :
    1000000 * wholes base (instants ++ [last]) + remainders base (instants ++ [last]) = last - base := by
  induction instants generalizing base with
  | nil =>
      simp only [List.nil_append, wholes, remainders]
      omega
  | cons next rest ih =>
      have later := ih next
      simp only [List.cons_append, wholes, remainders]
      omega

theorem wholes_nonneg {instants : List Int} (ordered : (base :: instants).IsChain (· ≤ ·)) :
    0 ≤ wholes base instants := by
  induction instants generalizing base with
  | nil => exact le_rfl
  | cons next rest ih =>
      have le : base ≤ next := (List.isChain_cons_cons.mp ordered).1
      have later := ih (List.isChain_cons_cons.mp ordered).2
      simp only [wholes]
      omega

namespace TimeService

theorem getCurrentTime_updates (service : TimeService) {instants : List Int} (synced : service.synced = true)
    (ordered : (service.lastSyncLocalTime :: (instants ++ [last])).IsChain (· ≤ ·)) :
    (instants.foldl updateRealTime service).getCurrentTime last =
      service.serverTimeAtSync + BitVec.ofInt 64 (wholes service.lastSyncLocalTime (instants ++ [last])) := by
  induction instants generalizing service with
  | nil =>
      have le : service.lastSyncLocalTime ≤ last := (List.isChain_cons_cons.mp ordered).1
      have exact : service.elapsed last = (last - service.lastSyncLocalTime) / 1000000 :=
        Int.tdiv_eq_ediv_of_nonneg (by omega)
      simp [getCurrentTime, synced, exact, wholes]
  | cons next rest ih =>
      have le : service.lastSyncLocalTime ≤ next := (List.isChain_cons_cons.mp ordered).1
      have exact : service.elapsed next = (next - service.lastSyncLocalTime) / 1000000 :=
        Int.tdiv_eq_ediv_of_nonneg (by omega)
      have later : (next :: (rest ++ [last])).IsChain (· ≤ ·) := (List.isChain_cons_cons.mp ordered).2
      obtain ⟨updated, isUpdated, first, moved, still⟩ : ∃ updated, service.updateRealTime next = updated ∧
          updated.serverTimeAtSync =
            service.serverTimeAtSync + BitVec.ofInt 64 ((next - service.lastSyncLocalTime) / 1000000) ∧
          updated.lastSyncLocalTime = next ∧ updated.synced = true :=
        ⟨_, rfl, by simp [updateRealTime, synced, exact], by simp [updateRealTime, synced],
          by simp [updateRealTime, synced]⟩
      rw [List.foldl_cons, isUpdated, ih updated still (by rwa [moved]), first, moved]
      simp only [List.cons_append, wholes]
      rw [BitVec.ofInt_add, BitVec.add_assoc]

theorem toNat_add_ofInt {value : BitVec 64} {added : Int} (nonneg : 0 ≤ added) (bound : value.toNat + added < 2 ^ 64) :
    ((value + BitVec.ofInt 64 added).toNat : Int) = value.toNat + added := by
  obtain ⟨count, rfl⟩ := Int.eq_ofNat_of_zero_le nonneg
  have small : value.toNat + count < 2 ^ 64 := by exact_mod_cast bound
  rw [BitVec.ofInt_natCast, BitVec.toNat_add, BitVec.toNat_ofNat, Nat.add_mod_mod, Nat.mod_eq_of_lt small,
    Nat.cast_add]

/-- The clock is exact as long as what the truncations drop stays below a millisecond. -/
theorem getCurrentTime_exact_iff (service : TimeService) (serverTime : BitVec 64) {start now : Int}
    {instants : List Int} (ordered : (start :: (instants ++ [now])).IsChain (· ≤ ·))
    (bound : serverTime.toNat + (now - start) / 1000000 < 2 ^ 64) :
    (((instants.foldl updateRealTime (service.syncWithServerTime start serverTime)).getCurrentTime now).toNat : Int) =
        serverTime.toNat + (now - start) / 1000000 ↔
      remainders start (instants ++ [now]) < 1000000 := by
  have total := wholes_add_remainders start now instants
  have dropped := remainders_nonneg start (instants ++ [now])
  have whole := wholes_nonneg ordered
  -- The interval as a whole has at least the whole milliseconds of its parts.
  have below : wholes start (instants ++ [now]) ≤ (now - start) / 1000000 := by omega
  have read : (instants.foldl updateRealTime (service.syncWithServerTime start serverTime)).getCurrentTime now =
      serverTime + BitVec.ofInt 64 (wholes start (instants ++ [now])) := getCurrentTime_updates _ rfl ordered
  rw [read, toNat_add_ofInt whole (by omega)]
  constructor
  · intro exact
    omega
  · intro small
    omega

/-- Three calls that each drop 0.3 milliseconds. -/
theorem getCurrentTime_exact_three :
    ((([10300000, 20600000, 30900000].foldl updateRealTime
      (syncWithServerTime { lastSyncLocalTime := 0 } 0 5)).getCurrentTime 30900000).toNat : Int) = 35 :=
  (getCurrentTime_exact_iff _ _ (by decide) (by decide)).mpr (by decide)

/-- Two calls, 0.6 ms apart each: 1.2 ms after the synchronization the clock has not moved. -/
theorem updateRealTime_loses_time :
    ((([600000, 1200000].foldl updateRealTime
      (syncWithServerTime { lastSyncLocalTime := 0 } 0 5)).getCurrentTime 1200000).toNat : Int) = 5 ∧
      ¬((([600000, 1200000].foldl updateRealTime
        (syncWithServerTime { lastSyncLocalTime := 0 } 0 5)).getCurrentTime 1200000).toNat : Int) =
          (5 : BitVec 64).toNat + (1200000 - 0) / 1000000 := by
  decide

end TimeService

end SoulLib.Time

import SoulLib.Time.TimeService

/-! What a synchronized clock reads.

Readings and updates of the time service come in any order. Against the exact
clock, an update loses less than a millisecond, and so does a reading.
-/

set_option autoImplicit false

namespace SoulLib.Time

inductive TimeCall where
  | getCurrentTime
  | updateRealTime
  deriving DecidableEq, Repr

/-- A reading: when it was taken, after how many updates, and what it was. -/
structure Reading where
  instant : Int
  updates : Nat
  value : BitVec 64
  deriving DecidableEq, Repr

namespace TimeService

/-- The readings of a run of calls, each made at an instant. -/
def readings (service : TimeService) (updates : Nat) : List (TimeCall × Int) → List Reading
  | [] => []
  | (.getCurrentTime, now) :: rest => ⟨now, updates, service.getCurrentTime now⟩ :: service.readings updates rest
  | (.updateRealTime, now) :: rest => (service.updateRealTime now).readings (updates + 1) rest

/-- The server time at an instant, if the clock lost nothing. -/
def exactTime (received : BitVec 64) (start now : Int) : Int := received.toNat + (now - start) / 1000000

/-- The service shows `base` at its last synchronization or update, and has lost at most what `updates`
updates can lose. -/
structure Lags (received : BitVec 64) (start : Int) (updates : Nat) (base : Int) (service : TimeService) : Prop where
  synced : service.synced = true
  shows : service.serverTimeAtSync = BitVec.ofInt 64 base
  behind : 1000000 * base ≤ 1000000 * received.toNat + (service.lastSyncLocalTime - start)
  close : 1000000 * received.toNat + (service.lastSyncLocalTime - start) ≤ 1000000 * base + 999999 * updates
  nonneg : 0 ≤ base

variable {received : BitVec 64} {start now base : Int} {updates : Nat} {service : TimeService}

theorem elapsed_eq (later : service.lastSyncLocalTime ≤ now) :
    service.elapsed now = (now - service.lastSyncLocalTime) / 1000000 := Int.tdiv_eq_ediv_of_nonneg (by omega)

theorem lags_sync (before : TimeService) (received : BitVec 64) (start : Int) :
    Lags received start 0 received.toNat (before.syncWithServerTime start received) := by
  refine ⟨rfl, ?_, ?_, ?_, ?_⟩
  · simp [syncWithServerTime]
  · simp [syncWithServerTime]
  · simp [syncWithServerTime]
  · omega

theorem Lags.update (lags : Lags received start updates base service) (later : service.lastSyncLocalTime ≤ now) :
    Lags received start (updates + 1) (base + (now - service.lastSyncLocalTime) / 1000000)
      (service.updateRealTime now) := by
  obtain ⟨synced, shows, behind, close, nonneg⟩ := lags
  refine ⟨?_, ?_, ?_, ?_, ?_⟩
  · simp [updateRealTime, synced]
  · simp [updateRealTime, synced, shows, elapsed_eq later, BitVec.ofInt_add]
  · simp only [updateRealTime, synced, if_true]
    omega
  · simp only [updateRealTime, synced, if_true]
    omega
  · omega

theorem Lags.getCurrentTime (lags : Lags received start updates base service) (later : service.lastSyncLocalTime ≤ now)
    (bound : exactTime received start now < 2 ^ 64) :
    ((service.getCurrentTime now).toNat : Int) = base + (now - service.lastSyncLocalTime) / 1000000 := by
  obtain ⟨synced, shows, behind, close, nonneg⟩ := lags
  unfold exactTime at bound
  have shown : service.getCurrentTime now = BitVec.ofInt 64 (base + (now - service.lastSyncLocalTime) / 1000000) := by
    simp [TimeService.getCurrentTime, synced, shows, elapsed_eq later, BitVec.ofInt_add]
  have small : base + (now - service.lastSyncLocalTime) / 1000000 < 2 ^ 64 := by omega
  have whole : 0 ≤ base + (now - service.lastSyncLocalTime) / 1000000 := by omega
  obtain ⟨count, same⟩ := Int.eq_ofNat_of_zero_le whole
  rw [same] at shown small ⊢
  have word : count < 2 ^ 64 := by exact_mod_cast small
  rw [shown, BitVec.ofInt_natCast, BitVec.toNat_ofNat, Nat.mod_eq_of_lt word]

/-- A reading lies between the exact clock and as many milliseconds before it as there were updates. -/
def Reading.Close (received : BitVec 64) (start : Int) (reading : Reading) : Prop :=
  exactTime received start reading.instant - reading.updates ≤ reading.value.toNat ∧
    (reading.value.toNat : Int) ≤ exactTime received start reading.instant

theorem Lags.close_reading (lags : Lags received start updates base service)
    (later : service.lastSyncLocalTime ≤ now) (bound : exactTime received start now < 2 ^ 64) :
    Reading.Close received start ⟨now, updates, service.getCurrentTime now⟩ := by
  have read := lags.getCurrentTime later bound
  have behind := lags.behind
  have close := lags.close
  simp only [Reading.Close, exactTime, read]
  constructor
  · omega
  · omega

theorem Lags.readings {calls : List (TimeCall × Int)} (lags : Lags received start updates base service)
    (later : service.lastSyncLocalTime ≤ now) (ordered : (now :: calls.map Prod.snd).IsChain (· ≤ ·))
    (bound : ∀ call ∈ calls, exactTime received start call.2 < 2 ^ 64) :
    (∀ reading ∈ service.readings updates calls,
      base + (now - service.lastSyncLocalTime) / 1000000 ≤ reading.value.toNat ∧
        Reading.Close received start reading) ∧
      (service.readings updates calls).Pairwise fun earlier later => earlier.value ≤ later.value := by
  induction calls generalizing service updates base now with
  | nil => exact ⟨by simp [TimeService.readings], .nil⟩
  | cons call rest ih =>
      obtain ⟨call, next⟩ := call
      have le : now ≤ next := (List.isChain_cons_cons.mp ordered).1
      have rested : (next :: rest.map Prod.snd).IsChain (· ≤ ·) := (List.isChain_cons_cons.mp ordered).2
      have small : ∀ call ∈ rest, exactTime received start call.2 < 2 ^ 64 :=
        fun call member => bound call (List.mem_cons_of_mem _ member)
      cases call with
      | getCurrentTime =>
          -- a reading is at least what the base gives now, which the earlier ones do not exceed
          have soon := bound (.getCurrentTime, next) List.mem_cons_self
          have read := lags.getCurrentTime (Int.le_trans later le) soon
          obtain ⟨above, sorted⟩ := ih lags (Int.le_trans later le) rested small
          have here := lags.close_reading (Int.le_trans later le) soon
          rw [TimeService.readings]
          refine ⟨?_, List.pairwise_cons.mpr ⟨?_, sorted⟩⟩
          · rintro reading (_ | ⟨_, member⟩)
            · rw [read]
              exact ⟨by omega, here⟩
            · obtain ⟨least, close⟩ := above reading member
              exact ⟨by omega, close⟩
          · intro reading member
            have least := (above reading member).1
            show (service.getCurrentTime next).toNat ≤ reading.value.toNat
            omega
      | updateRealTime =>
          -- an update moves the base on, and drops less than a millisecond
          have moved : (service.updateRealTime next).lastSyncLocalTime = next := by simp [updateRealTime, lags.synced]
          obtain ⟨above, sorted⟩ := ih (lags.update (Int.le_trans later le)) (Int.le_of_eq moved) rested small
          rw [TimeService.readings]
          refine ⟨?_, sorted⟩
          intro reading member
          obtain ⟨least, close⟩ := above reading member
          rw [moved] at least
          exact ⟨by omega, close⟩

/-- The clock never goes back and never runs ahead, and it lags by at most a millisecond for each update. -/
theorem readings_monotone_close (service : TimeService) (received : BitVec 64) {start : Int}
    {calls : List (TimeCall × Int)} (ordered : (start :: calls.map Prod.snd).IsChain (· ≤ ·))
    (bound : ∀ call ∈ calls, exactTime received start call.2 < 2 ^ 64) :
    ((service.syncWithServerTime start received).readings 0 calls).Pairwise
        (fun earlier later => earlier.value ≤ later.value) ∧
      ∀ reading ∈ (service.syncWithServerTime start received).readings 0 calls,
        Reading.Close received start reading := by
  have synced := lags_sync service received start
  obtain ⟨above, sorted⟩ := synced.readings (Int.le_refl _) ordered bound
  exact ⟨sorted, fun reading member => (above reading member).2⟩

/-- An update loses 0.9 milliseconds, and the next one wins nothing back. -/
theorem readings_monotone_close_three :
    let calls : List (TimeCall × Int) := [(.getCurrentTime, 2500000), (.updateRealTime, 2900000),
      (.getCurrentTime, 3100000), (.updateRealTime, 3200000), (.getCurrentTime, 5000000)]
    (syncWithServerTime { lastSyncLocalTime := 0 } 0 7).readings 0 calls =
        [⟨2500000, 0, 9⟩, ⟨3100000, 1, 9⟩, ⟨5000000, 2, 10⟩] ∧
      ∀ reading ∈ (syncWithServerTime { lastSyncLocalTime := 0 } 0 7).readings 0 calls,
        Reading.Close 7 0 reading := by
  refine ⟨by decide, ?_⟩
  exact (readings_monotone_close _ 7 (by decide) (by decide)).2

end TimeService

end SoulLib.Time

import BlkdevSnapshot.Epoch
import BlkdevSnapshot.FloorCount
import BlkdevSnapshot.Machine

/-!
# The lifetime of an epoch

Activations, deactivations, mounts and umounts of one device, one after another
and with all allocations succeeding. Beside the object of the device the state
keeps the mounts, the events since the activation, every epoch opened so far and
the epochs whose cleanup was queued.
-/
namespace BlkdevSnapshot

/-- `live` holds the attached mounts, oldest first, true for those made since the
last activation; `history` the events since then, true for a mount; `opened` the
address of every epoch with the clock at its first mount. -/
structure Lifetime where
  data : Option ObjectData
  live : List Bool
  nextAddr : ℕ
  history : List Bool
  opened : List (ℕ × ClockSec)
  cleanups : List ℕ

/-- What is done to the device; `umount i` ends the mount at place `i`. -/
inductive LifetimeAct where
  | activate (name : CStr)
  | deactivate
  | mount (tv : ClockSec)
  | umount (i : ℕ)

namespace Lifetime

/-- The address of the open epoch. -/
def current (s : Lifetime) : Option ℕ := (s.data.bind ObjectData.e).map Epoch.addr

/-- `register_device`, which fails for a registered device. -/
def activate (name : CStr) (s : Lifetime) : Lifetime :=
  match s.data with
  | some _ => s
  | none => { s with
      data := some (initObjectData name)
      live := s.live.map fun _ => false
      history := [] }

/-- `unregister_device` with `cleanup_object_data`. -/
def deactivate (s : Lifetime) : Lifetime :=
  match s.data with
  | none => s
  | some data => { s with
      data := none
      cleanups := s.cleanups ++ ((cleanupObjectData true true data).2.map Epoch.addr).toList }

/-- A mount event. -/
def mount (tv : ClockSec) (s : Lifetime) : Lifetime :=
  match s.data with
  | none => { s with live := s.live ++ [true] }
  | some data => { s with
      data := some (data.countMount (some s.nextAddr) tv)
      live := s.live ++ [true]
      nextAddr := s.nextAddr + 1
      history := s.history ++ [true]
      opened := if data.e = none then s.opened ++ [(s.nextAddr, tv)] else s.opened }

/-- An umount event, which does not tell which mount it ends. -/
def umount (i : ℕ) (s : Lifetime) : Lifetime :=
  match s.data with
  | none => { s with live := s.live.eraseIdx i }
  | some data => { s with
      data := some (data.countUmount true).1
      live := s.live.eraseIdx i
      history := s.history ++ [false]
      cleanups := s.cleanups ++ ((data.countUmount true).2.map Epoch.addr).toList }

end Lifetime

/-- Operations on one device, which may have mounts from before the first of them. -/
def lifetimeMachine : Machine Lifetime LifetimeAct where
  init s := s.data = none ∧ s.opened = [] ∧ s.cleanups = []
  step
    | s, .activate name => some (s.activate name)
    | s, .deactivate => some s.deactivate
    | s, .mount tv => some (s.mount tv)
    | s, .umount i => if i < s.live.length then some (s.umount i) else none

namespace Lifetime

/-- No umount takes a mount from before the activation off an open epoch. -/
def EndsOwnMounts (s : Lifetime) : LifetimeAct → Prop
  | .umount i => s.current ≠ none → s.live[i]? = some true
  | _ => True

instance (s : Lifetime) (a : LifetimeAct) : Decidable (s.EndsOwnMounts a) := by
  cases a <;> unfold EndsOwnMounts <;> infer_instance

/-- The law of the epochs of a device. -/
structure Inv (s : Lifetime) : Prop where
  active : ∀ data, s.data = some data → data.Active
  counter : ∀ data, s.data = some data → data.counter = floorCount s.history
  dated : ∀ data e, s.data = some data → data.e = some e →
    ∃ tv, (e.addr, tv) ∈ s.opened ∧ e.firstMountDate = firstMountDate tv
  fresh : ∀ p ∈ s.opened, p.1 < s.nextAddr
  nodup : (s.opened.map Prod.fst).Nodup
  ended : (s.cleanups ++ s.current.toList).Perm (s.opened.map Prod.fst)

variable {s : Lifetime}

theorem Inv.activate (h : s.Inv) (name : CStr) : (s.activate name).Inv := by
  unfold Lifetime.activate
  cases hdata : s.data with
  | some data => exact h
  | none =>
    have hended := h.ended
    simp only [current, hdata, Option.bind_none, Option.map_none] at hended
    constructor
    · rintro data ⟨⟩
      exact ObjectData.initObjectData_active name
    · rintro data ⟨⟩
      simp
    · rintro data e ⟨⟩ he
      cases he
    · exact h.fresh
    · exact h.nodup
    · exact hended

theorem Inv.deactivate (h : s.Inv) : s.deactivate.Inv := by
  unfold Lifetime.deactivate
  cases hdata : s.data with
  | none => exact h
  | some data =>
    have hended := h.ended
    simp only [current, hdata, Option.bind_some] at hended
    constructor
    · simp
    · simp
    · simp
    · exact h.fresh
    · exact h.nodup
    · simpa [current, cleanupObjectData] using hended

/-- A mount event that opens an epoch. -/
theorem Inv.open {data : ObjectData} (h : s.Inv) (hdata : s.data = some data)
    (he : data.e = none) (tv : ClockSec) : Inv { s with
      data := some (data.countMount (some s.nextAddr) tv)
      live := s.live ++ [true]
      nextAddr := s.nextAddr + 1
      history := s.history ++ [true]
      opened := s.opened ++ [(s.nextAddr, tv)] } := by
  have hended := h.ended
  simp only [current, hdata, Option.bind_some, he, Option.map_none, Option.toList_none,
    List.append_nil] at hended
  have hnew := ObjectData.countMount_of_none he (some s.nextAddr) tv
  rw [Option.map_some] at hnew
  constructor
  · rintro _ ⟨⟩
    exact (h.active data hdata).countMount _ _
  · rintro _ ⟨⟩
    rw [ObjectData.counter_countMount tv (by simp), h.counter data hdata]
    simp
  · rintro _ e ⟨⟩ he'
    rw [hnew, Option.some.injEq] at he'
    subst he'
    exact ⟨tv, by simp [Epoch.countMount, Epoch.zeroed], by simp [Epoch.countMount, Epoch.zeroed]⟩
  · intro p hp
    rcases List.mem_append.mp hp with hp | hp
    · exact Nat.lt_succ_of_lt (h.fresh p hp)
    · rw [List.mem_singleton.mp hp]
      exact Nat.lt_succ_self _
  · have hnotin : s.nextAddr ∉ s.opened.map Prod.fst := by
      intro hmem
      obtain ⟨p, hp, haddr⟩ := List.mem_map.mp hmem
      have := h.fresh p hp
      omega
    simpa using h.nodup.concat hnotin
  · have hcurrent : (some (data.countMount (some s.nextAddr) tv)).bind ObjectData.e =
        some ((Epoch.zeroed s.nextAddr).countMount tv) := hnew
    simp only [current, hcurrent, Option.map_some, Option.toList_some, List.map_append,
      List.map_cons, List.map_nil]
    exact hended.append_right _

/-- An event in an open epoch that leaves it open. -/
theorem Inv.stay {data data' : ObjectData} {e e' : Epoch} {nextAddr : ℕ} {up : Bool}
    (h : s.Inv) (live : List Bool) (hdata : s.data = some data) (he : data.e = some e)
    (he' : data'.e = some e') (haddr : e'.addr = e.addr)
    (hdate : e'.firstMountDate = e.firstMountDate) (hactive : data'.Active)
    (hcounter : data'.counter = floorCount (s.history ++ [up])) (hnext : s.nextAddr ≤ nextAddr) :
    Inv { s with
      data := some data'
      live := live
      nextAddr := nextAddr
      history := s.history ++ [up] } := by
  have hended := h.ended
  simp only [current, hdata, Option.bind_some, he, Option.map_some] at hended
  constructor
  · rintro _ ⟨⟩
    exact hactive
  · rintro _ ⟨⟩
    exact hcounter
  · rintro _ f ⟨⟩ hf
    rw [he', Option.some.injEq] at hf
    subst hf
    rw [haddr, hdate]
    exact h.dated data e hdata he
  · intro p hp
    exact lt_of_lt_of_le (h.fresh p hp) hnext
  · exact h.nodup
  · simpa only [current, Option.bind_some, he', Option.map_some, haddr] using hended

/-- An event that leaves no epoch open; an epoch that was open is queued. -/
theorem Inv.close {data data' : ObjectData} {live : List Bool} {ended : List ℕ} (h : s.Inv)
    (hdata : s.data = some data) (he' : data'.e = none) (hactive : data'.Active)
    (hcounter : data'.counter = floorCount (s.history ++ [false]))
    (hcleanup : ended = (data.e.map Epoch.addr).toList) :
    Inv { s with
      data := some data'
      live := live
      history := s.history ++ [false]
      cleanups := s.cleanups ++ ended } := by
  have hended := h.ended
  simp only [current, hdata, Option.bind_some] at hended
  constructor
  · rintro _ ⟨⟩
    exact hactive
  · rintro _ ⟨⟩
    exact hcounter
  · rintro _ f ⟨⟩ hf
    rw [he'] at hf
    cases hf
  · exact h.fresh
  · exact h.nodup
  · simpa [current, he', hcleanup] using hended

/-- A mount or an umount of a device that is not active. -/
theorem Inv.inactive (h : s.Inv) (hdata : s.data = none) (live : List Bool) :
    Inv { s with live := live } := by
  constructor
  · simp [hdata]
  · simp [hdata]
  · simp [hdata]
  · exact h.fresh
  · exact h.nodup
  · exact h.ended

theorem Inv.mount (h : s.Inv) (tv : ClockSec) : (s.mount tv).Inv := by
  cases hdata : s.data with
  | none => simpa [Lifetime.mount, hdata] using h.inactive hdata (s.live ++ [true])
  | some data =>
    cases he : data.e with
    | none => simpa [Lifetime.mount, hdata, he] using h.open hdata he tv
    | some e =>
      have hactive := h.active data hdata
      have hpos := hactive.pos e he
      have hmounted := ObjectData.countMount_of_some he (some s.nextAddr) tv
      have hcounter := ObjectData.counter_countMount tv
        (fun _ : data.e = none => Option.some_ne_none s.nextAddr)
      have hdate : (e.countMount tv).firstMountDate = e.firstMountDate := by
        simp only [Epoch.countMount]
        exact if_neg (by omega)
      rw [h.counter data hdata] at hcounter
      simp only [Lifetime.mount, hdata, he, reduceCtorEq, if_false]
      exact h.stay _ hdata he hmounted rfl hdate (hactive.countMount _ _) (by simpa using hcounter)
        (Nat.le_succ _)

theorem Inv.umount (h : s.Inv) (i : ℕ) : (s.umount i).Inv := by
  cases hdata : s.data with
  | none => simpa [Lifetime.umount, hdata] using h.inactive hdata (s.live.eraseIdx i)
  | some data =>
    have hactive := h.active data hdata
    have hcounter := h.counter data hdata
    simp only [Lifetime.umount, hdata]
    cases he : data.e with
    | none =>
      have hzero := hactive.e_eq_none_iff.mp he
      have hignored := ObjectData.countUmount_of_none he true
      rw [hignored]
      apply h.close hdata he hactive
      · rw [floorCount_down]
        omega
      · simp [he]
    | some e =>
      have hpos := hactive.pos e he
      have hn : data.counter = e.nCurrentlyMounted := by simp [ObjectData.counter, he]
      have hless := ObjectData.counter_countUmount hactive (by omega) true
      have hfloor : (data.countUmount true).1.counter = floorCount (s.history ++ [false]) := by
        rw [floorCount_down]
        omega
      rcases hactive.countUmount_cases he true with
        ⟨-, hnone, haddr⟩ | ⟨-, left, hleft, hno, -, haddr, hdate⟩
      · exact h.close hdata hnone (hactive.countUmount _) hfloor (by simp [haddr, he])
      · simpa [hno] using h.stay (s.live.eraseIdx i) hdata he hleft haddr hdate
          (hactive.countUmount _) hfloor le_rfl

theorem inv_of_reachable (h : lifetimeMachine.Reachable s) : s.Inv := by
  apply h.invariant
  · rintro s ⟨hdata, hopened, hcleanups⟩
    constructor <;> simp [hdata, hopened, hcleanups, current]
  · intro s a s' hinv _ hstep
    cases a with
    | activate name =>
      cases hstep
      exact hinv.activate name
    | deactivate =>
      cases hstep
      exact hinv.deactivate
    | mount tv =>
      cases hstep
      exact hinv.mount tv
    | umount i =>
      simp only [lifetimeMachine] at hstep
      split at hstep
      · cases hstep
        exact hinv.umount i
      · cases hstep

/-- The counter is the number of mounts made since the activation. -/
def CountsOwnMounts (s : Lifetime) : Prop :=
  ∀ data, s.data = some data → data.Active ∧ data.counter = s.live.count true

theorem CountsOwnMounts.umount (h : s.CountsOwnMounts) {i : ℕ} (hi : i < s.live.length)
    (hown : s.EndsOwnMounts (.umount i)) : (s.umount i).CountsOwnMounts := by
  cases hdata : s.data with
  | none => simp [CountsOwnMounts, Lifetime.umount, hdata]
  | some data =>
    obtain ⟨hactive, hcounter⟩ := h data hdata
    have hcount := (List.getElem_cons_eraseIdx_perm hi).count_eq true
    simp only [Lifetime.umount, hdata]
    rintro _ ⟨⟩
    refine ⟨hactive.countUmount true, ?_⟩
    cases he : data.e with
    | none =>
      have hzero := hactive.e_eq_none_iff.mp he
      rw [List.count_cons] at hcount
      simp only [ObjectData.countUmount_of_none he]
      omega
    | some e =>
      have hlive : s.live[i]? = some true := hown (by simp [current, hdata, he])
      rw [List.getElem?_eq_getElem hi, Option.some.injEq] at hlive
      rw [hlive, List.count_cons_self] at hcount
      have hless := ObjectData.counter_countUmount hactive (by omega) true
      simp only
      omega

theorem countsOwnMounts_of_reach (h : lifetimeMachine.Reach EndsOwnMounts s) :
    s.CountsOwnMounts := by
  apply h.invariant
  · rintro s ⟨hdata, -, -⟩
    simp [CountsOwnMounts, hdata]
  · intro s a s' hown hact hstep
    cases a with
    | activate name =>
      cases hstep
      cases hdata : s.data with
      | some data => simpa [Lifetime.activate, hdata] using hown
      | none =>
        simp only [Lifetime.activate, hdata]
        rintro _ ⟨⟩
        refine ⟨ObjectData.initObjectData_active name, ?_⟩
        simp [List.map_const', List.count_replicate]
    | deactivate =>
      cases hstep
      cases hdata : s.data with
      | none => simpa [Lifetime.deactivate, hdata] using hown
      | some data => simp [CountsOwnMounts, Lifetime.deactivate, hdata]
    | mount tv =>
      cases hstep
      cases hdata : s.data with
      | none => simp [CountsOwnMounts, Lifetime.mount, hdata]
      | some data =>
        obtain ⟨hactive, hcounter⟩ := hown data hdata
        have hmore := ObjectData.counter_countMount tv
          (fun _ : data.e = none => Option.some_ne_none s.nextAddr)
        simp only [Lifetime.mount, hdata]
        rintro _ ⟨⟩
        refine ⟨hactive.countMount _ _, ?_⟩
        rw [hmore, hcounter, List.count_append]
        simp
    | umount i =>
      simp only [lifetimeMachine] at hstep
      split at hstep
      · cases hstep
        exact hown.umount ‹_› hact
      · cases hstep

/-- While the device is active it has an open epoch iff in some stretch of events up
to now there were more mounts than umounts; the epoch keeps the date of its first
mount, and every other epoch was queued for cleanup, once. -/
structure FollowsEvents (s : Lifetime) : Prop where
  lifetime : ∀ data, s.data = some data → (data.e ≠ none ↔
    ∃ recent, recent <:+ s.history ∧ recent.count false < recent.count true)
  dated : ∀ data e, s.data = some data → data.e = some e →
    ∃ tv, (e.addr, tv) ∈ s.opened ∧ e.firstMountDate = firstMountDate tv
  nodup : (s.opened.map Prod.fst).Nodup
  ended : (s.cleanups ++ s.current.toList).Perm (s.opened.map Prod.fst)

end Lifetime

open Lifetime

/-- The epochs of a device follow its mount and umount events, and they follow the
mounts made since the activation as long as no older mount ends in an open epoch. -/
theorem epoch_follows_events {s : Lifetime} (h : lifetimeMachine.Reachable s) :
    s.FollowsEvents ∧ (lifetimeMachine.Reach EndsOwnMounts s →
      ∀ data, s.data = some data → (data.e ≠ none ↔ true ∈ s.live)) := by
  have hinv := inv_of_reachable h
  constructor
  · refine ⟨fun data hdata => ?_, hinv.dated, hinv.nodup, hinv.ended⟩
    have hcounter := hinv.counter data hdata
    have hfloor := lt_floorCount_iff s.history 0
    simp only [add_zero] at hfloor
    rw [Ne, (hinv.active data hdata).e_eq_none_iff, ← hfloor]
    omega
  · intro hown data hdata
    obtain ⟨hactive, hcounter⟩ := countsOwnMounts_of_reach hown data hdata
    rw [Ne, hactive.e_eq_none_iff, hcounter, ← List.count_pos_iff]
    omega

/-- A device that was never mounted nor activated. -/
def untouched : Lifetime := ⟨none, [], 0, [], [], []⟩

theorem untouched_init : lifetimeMachine.init untouched := ⟨rfl, rfl, rfl⟩

/-- Activated, mounted twice, and the older mount umounted. -/
theorem epoch_follows_events_twice_mounted :
    ∃ s, lifetimeMachine.run untouched
      [.activate "/img".toList, .mount ⟨5, by decide⟩, .mount ⟨6, by decide⟩, .umount 0] = some s ∧
      s.data.isSome ∧ s.FollowsEvents ∧
      ∀ data, s.data = some data → (data.e ≠ none ↔ true ∈ s.live) := by
  have hrun := Machine.run_eq_getD lifetimeMachine untouched
    [.activate "/img".toList, .mount ⟨5, by decide⟩, .mount ⟨6, by decide⟩, .umount 0]
    (by decide +kernel)
  have hown := Machine.Reach.run (.init untouched_init)
    (by decide +kernel : lifetimeMachine.Meets EndsOwnMounts _ _) hrun
  have hfollows := epoch_follows_events (Machine.reachable_of_run untouched_init _ hrun)
  exact ⟨_, hrun, by decide +kernel, hfollows.1, hfollows.2 hown⟩

/-- Mounted, activated, mounted again, and the older mount umounted: the device has
no epoch while the mount made since the activation is still there. -/
theorem epoch_ends_under_own_mount :
    ∃ s, lifetimeMachine.run untouched
      [.mount ⟨5, by decide⟩, .activate "/img".toList, .mount ⟨6, by decide⟩, .umount 0] = some s ∧
      s.data.map ObjectData.e = some none ∧ true ∈ s.live := by
  refine ⟨_, Machine.run_eq_getD lifetimeMachine untouched _ (by decide +kernel), ?_⟩
  decide +kernel

end BlkdevSnapshot

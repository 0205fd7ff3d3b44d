import BlkdevSnapshot.MountDate

/-!
# The epoch of a device

`struct epoch` and `struct object_data` with the callbacks that count mounts and
umounts and the creation and cleanup of a device's object. The directory handle
and the cache of an epoch belong to its works. Mounted file systems stay far from
the range of `int`, so the counter is an integer.
-/
namespace BlkdevSnapshot

/-- `struct epoch` with its address. The counter is never left below zero. -/
structure Epoch where
  addr : ℕ
  nCurrentlyMounted : ℤ
  firstMountDate : CStr
  nonneg : 0 ≤ nCurrentlyMounted
  deriving DecidableEq

namespace Epoch

/-- The epoch that `kzalloc` returns. -/
def zeroed (addr : ℕ) : Epoch := ⟨addr, 0, [], le_rfl⟩

/-- The part of `__epoch_event_cb_count_mount` behind the allocation. -/
def countMount (tv : ClockSec) (e : Epoch) : Epoch where
  addr := e.addr
  nCurrentlyMounted := e.nCurrentlyMounted + 1
  firstMountDate :=
    if e.nCurrentlyMounted + 1 = 1 then BlkdevSnapshot.firstMountDate tv else e.firstMountDate
  nonneg := by
    have h := e.nonneg
    omega

end Epoch

/-- `__epoch_event_cb_count_mount`; `kzalloc` is the address of a new epoch, if any. -/
def epochEventCbCountMount (kzalloc : Option ℕ) (tv : ClockSec) :
    Option Epoch → Option Epoch
  | some e => some (e.countMount tv)
  | none => kzalloc.map fun addr => (Epoch.zeroed addr).countMount tv

/-- `__epoch_event_cb_count_umount`: the new `*epoch`, and the epoch whose cleanup
is queued. Without memory for the cleanup work the epoch is only forgotten. -/
def epochEventCbCountUmount (kmalloc wqIsDestroyed : Bool) :
    Option Epoch → Option Epoch × Option Epoch
  | none => (none, none)
  | some e =>
    if h : e.nCurrentlyMounted - 1 < 0 then
      (some { e with nCurrentlyMounted := 0, nonneg := le_rfl }, none)
    else
      let left : Epoch :=
        { e with nCurrentlyMounted := e.nCurrentlyMounted - 1, nonneg := not_lt.mp h }
      if left.nCurrentlyMounted = 0 ∧ !wqIsDestroyed then
        (none, if kmalloc then some left else none)
      else (some left, none)

/-- `PATH_MAX` -/
def pathMax : ℕ := 4096

/-- `strscpy` into a buffer of `size` bytes. -/
def strscpy (size : ℕ) (s : CStr) : CStr := s.take (size - 1)

/-- `struct object_data`, without its locks and its work queue. -/
structure ObjectData where
  wqIsDestroyed : Bool
  e : Option Epoch
  originalDevName : CStr
  deriving DecidableEq

/-- `__init_object_data` -/
def initObjectData (originalDevName : CStr) : ObjectData where
  wqIsDestroyed := false
  e := none
  originalDevName := strscpy pathMax originalDevName

/-- `cleanup_object_data`: the object, and the epoch that the deferred destruction
is scheduled for when both of its allocations succeed. -/
def cleanupObjectData (wlistnode wargs : Bool) (data : ObjectData) : ObjectData × Option Epoch :=
  ({ data with wqIsDestroyed := true, e := none }, if wlistnode && wargs then data.e else none)

namespace ObjectData

/-- A mount event for the device. -/
def countMount (kzalloc : Option ℕ) (tv : ClockSec) (data : ObjectData) : ObjectData :=
  { data with e := epochEventCbCountMount kzalloc tv data.e }

/-- An umount event for the device. -/
def countUmount (kmalloc : Bool) (data : ObjectData) : ObjectData × Option Epoch :=
  let r := epochEventCbCountUmount kmalloc data.wqIsDestroyed data.e
  ({ data with e := r.1 }, r.2)

/-- The counter of the device's epoch, zero when there is none. -/
def counter (data : ObjectData) : ℤ := (data.e.map Epoch.nCurrentlyMounted).getD 0

/-- What holds of the object of an active device between two events: an epoch that
is open counts at least one mount. -/
structure Active (data : ObjectData) : Prop where
  wq : data.wqIsDestroyed = false
  pos : ∀ e, data.e = some e → 0 < e.nCurrentlyMounted

theorem initObjectData_active (name : CStr) : (initObjectData name).Active :=
  ⟨by simp [initObjectData], by simp [initObjectData]⟩

@[simp] theorem initObjectData_counter (name : CStr) : (initObjectData name).counter = 0 := by
  simp [initObjectData, counter]

@[simp] theorem countMount_originalDevName (kzalloc : Option ℕ) (tv : ClockSec)
    (data : ObjectData) : (data.countMount kzalloc tv).originalDevName = data.originalDevName := rfl

@[simp] theorem countUmount_originalDevName (kmalloc : Bool) (data : ObjectData) :
    (data.countUmount kmalloc).1.originalDevName = data.originalDevName := rfl

theorem Active.e_eq_none_iff {data : ObjectData} (h : data.Active) :
    data.e = none ↔ data.counter = 0 := by
  unfold counter
  cases he : data.e with
  | none => simp
  | some e => simpa [he] using (h.pos e he).ne'

/-- A mount event in an open epoch counts one mount more. -/
theorem countMount_of_some {data : ObjectData} {e : Epoch} (he : data.e = some e)
    (kzalloc : Option ℕ) (tv : ClockSec) :
    (data.countMount kzalloc tv).e = some (e.countMount tv) := by
  simp [countMount, epochEventCbCountMount, he]

/-- A mount event without an open epoch opens one, when memory allows. -/
theorem countMount_of_none {data : ObjectData} (he : data.e = none) (kzalloc : Option ℕ)
    (tv : ClockSec) : (data.countMount kzalloc tv).e =
      kzalloc.map fun addr => (Epoch.zeroed addr).countMount tv := by
  simp [countMount, epochEventCbCountMount, he]

theorem Active.countMount {data : ObjectData} (h : data.Active) (kzalloc : Option ℕ)
    (tv : ClockSec) : (data.countMount kzalloc tv).Active := by
  refine ⟨h.wq, fun e' he' => ?_⟩
  cases he : data.e with
  | some e =>
    rw [countMount_of_some he, Option.some.injEq] at he'
    subst he'
    have := h.pos e he
    simp only [Epoch.countMount]
    omega
  | none =>
    rw [countMount_of_none he, Option.map_eq_some_iff] at he'
    obtain ⟨addr, -, rfl⟩ := he'
    simp [Epoch.countMount, Epoch.zeroed]

theorem counter_countMount {data : ObjectData} {kzalloc : Option ℕ} (tv : ClockSec)
    (h : data.e = none → kzalloc ≠ none) :
    (data.countMount kzalloc tv).counter = data.counter + 1 := by
  unfold counter
  cases he : data.e with
  | some e => simp [countMount_of_some he, Epoch.countMount]
  | none =>
    obtain ⟨addr, haddr⟩ := Option.ne_none_iff_exists'.mp (h he)
    simp [countMount_of_none he, haddr, Epoch.countMount, Epoch.zeroed]

/-- An umount event without an open epoch is ignored. -/
theorem countUmount_of_none {data : ObjectData} (he : data.e = none) (kmalloc : Bool) :
    data.countUmount kmalloc = (data, none) := by
  simp only [countUmount, epochEventCbCountUmount, he]
  rw [← he]

/-- The umount event that takes the counter to zero ends the epoch. -/
theorem countUmount_last {data : ObjectData} {e : Epoch} (h : data.Active) (he : data.e = some e)
    (hn : e.nCurrentlyMounted = 1) (kmalloc : Bool) :
    (data.countUmount kmalloc).1.e = none ∧
      (data.countUmount kmalloc).2.map Epoch.addr = if kmalloc then some e.addr else none := by
  cases kmalloc <;> simp [countUmount, epochEventCbCountUmount, he, hn, h.wq]

/-- Any other umount event counts one mount less. -/
theorem countUmount_more {data : ObjectData} {e : Epoch} (he : data.e = some e)
    (hn : 1 < e.nCurrentlyMounted) (kmalloc : Bool) :
    ∃ left, (data.countUmount kmalloc).1.e = some left ∧ (data.countUmount kmalloc).2 = none ∧
      left.nCurrentlyMounted = e.nCurrentlyMounted - 1 ∧ left.addr = e.addr ∧
      left.firstMountDate = e.firstMountDate := by
  have hneg : ¬ e.nCurrentlyMounted - 1 < 0 := by omega
  have hzero : ¬ e.nCurrentlyMounted - 1 = 0 := by omega
  refine ⟨⟨e.addr, e.nCurrentlyMounted - 1, e.firstMountDate, not_lt.mp hneg⟩, ?_, ?_, rfl, rfl,
    rfl⟩
  · simp [countUmount, epochEventCbCountUmount, he, hneg, hzero]
  · simp [countUmount, epochEventCbCountUmount, he, hneg, hzero]

/-- In an open epoch an umount event ends it or counts one mount less. -/
theorem Active.countUmount_cases {data : ObjectData} {e : Epoch} (h : data.Active)
    (he : data.e = some e) (kmalloc : Bool) :
    (e.nCurrentlyMounted = 1 ∧ (data.countUmount kmalloc).1.e = none ∧
      (data.countUmount kmalloc).2.map Epoch.addr = if kmalloc then some e.addr else none) ∨
    (1 < e.nCurrentlyMounted ∧ ∃ left, (data.countUmount kmalloc).1.e = some left ∧
      (data.countUmount kmalloc).2 = none ∧
      left.nCurrentlyMounted = e.nCurrentlyMounted - 1 ∧ left.addr = e.addr ∧
      left.firstMountDate = e.firstMountDate) := by
  rcases (Int.add_one_le_iff.mpr (h.pos e he)).lt_or_eq with hmore | hlast
  · exact .inr ⟨hmore, countUmount_more he hmore kmalloc⟩
  · exact .inl ⟨hlast.symm, countUmount_last h he hlast.symm kmalloc⟩

theorem Active.countUmount {data : ObjectData} (h : data.Active) (kmalloc : Bool) :
    (data.countUmount kmalloc).1.Active := by
  refine ⟨h.wq, fun e' he' => ?_⟩
  cases he : data.e with
  | none =>
    rw [countUmount_of_none he, he] at he'
    cases he'
  | some e =>
    rcases h.countUmount_cases he kmalloc with ⟨-, hnone, -⟩ | ⟨hmore, left, hleft, -, hn, -, -⟩
    · rw [hnone] at he'
      cases he'
    · rw [hleft, Option.some.injEq] at he'
      subst he'
      omega

theorem counter_countUmount {data : ObjectData} (h : data.Active) (hpos : 0 < data.counter)
    (kmalloc : Bool) : (data.countUmount kmalloc).1.counter = data.counter - 1 := by
  unfold counter at hpos ⊢
  cases he : data.e with
  | none => simp [he] at hpos
  | some e =>
    rcases h.countUmount_cases he kmalloc with ⟨hone, hnone, -⟩ | ⟨-, left, hleft, -, hn, -, -⟩
    · simp [hnone, hone]
    · simp [hleft, hn]

end ObjectData
end BlkdevSnapshot

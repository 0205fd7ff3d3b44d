import BlkdevSnapshot.MountBalance

/-!
# The device that a mount is credited to

A new mount of one device on a file system of another, made by either probed
function, and the umount of that mount later on. The arguments stand in the
registers of the C calling convention; every other register is arbitrary.
-/
namespace BlkdevSnapshot

/-- A call of a probed mount function, with its pointers and flags. -/
inductive MountCall where
  | pathMount (devName mountpoint typePage flags dataPage : UInt64)
  | doMoveMount (oldPath newPath : UInt64)

/-- The registers hold the arguments of the call. -/
def PtRegs.Passes (regs : PtRegs) : MountCall → Prop
  | .pathMount devName mountpoint typePage flags dataPage => regs.di = devName ∧
      regs.si = mountpoint ∧ regs.dx = typePage ∧ regs.cx = flags ∧ regs.r8 = dataPage
  | .doMoveMount oldPath newPath => regs.di = oldPath ∧ regs.si = newPath

/-- The call mounts the device `d` anew on a file system of the device `b`. -/
def MountCall.NewMountOf (mem : UInt64 → Path) (d b : BlockDevice) : MountCall → Prop
  | .pathMount _ mountpoint _ flags _ => pathMountOp flags = .newMount ∧
      mountpoint ≠ 0 ∧ (mem mountpoint).LiesOn b
  | .doMoveMount oldPath newPath => oldPath ≠ 0 ∧ newPath ≠ 0 ∧ (mem oldPath).LiesOn d ∧
      (mem oldPath).dPath = some ['/'] ∧ (mem newPath).LiesOn b

/-- A mount call and the `path_umount` of that mount, each with the memory and the
registers at its entry and the results of its probes' allocations. -/
structure MountAndUmount where
  call : MountCall
  mem : UInt64 → Path
  regs : PtRegs
  buf : Bool
  kzalloc : Option ℕ
  tv : ClockSec
  umountMem : UInt64 → Path
  umountRegs : PtRegs
  umountBuf : Bool
  kmalloc : Bool

namespace MountAndUmount

/-- What the calls may be for a mount of `d` on a file system of `b`. -/
structure Mounts (t : MountAndUmount) (d b : BlockDevice) : Prop where
  passes : t.regs.Passes t.call
  mounts : t.call.NewMountOf t.mem d b
  umountPtr : t.umountRegs.di ≠ 0
  umountPath : (t.umountMem t.umountRegs.di).LiesOn d

/-- The entry handler of the route that the mount takes. -/
def mountEntry (t : MountAndUmount) : Option Mountinfo :=
  match t.call with
  | .pathMount _ _ _ _ _ => oldMountEntryHandler t.mem t.regs
  | .doMoveMount _ _ => newMountEntryHandler t.buf t.mem t.regs

/-- The registered devices after the mount call returned 0. -/
def mounted (t : MountAndUmount) (registry : Registry) : Registry :=
  match t.mountEntry with
  | none => registry
  | some minfo => (mountHandler 0 t.kzalloc t.tv minfo registry).1

/-- The registered devices after the umount call returned 0, if its entry handler
returned. -/
def umounted (t : MountAndUmount) (registry : Registry) : Option Registry :=
  (umountEntryHandler t.umountBuf t.umountMem t.umountRegs).map fun
    | none => registry
    | some minfo => (umountHandler 0 t.kmalloc minfo registry).1

/-- The mount counts for `d` and not for `b`, and the umount, whatever happened to
the devices in between, takes it off `d` again. -/
structure Credits (t : MountAndUmount) (d b : BlockDevice) (registry : Registry) : Prop where
  recorded : t.mountEntry = some (fromBlockDeviceToMountinfo d)
  counted : counterOf (t.mounted registry) (fromBlockDeviceToMountinfo d) =
    counterOf registry (fromBlockDeviceToMountinfo d) + 1
  unchanged : counterOf (t.mounted registry) (fromBlockDeviceToMountinfo b) =
    counterOf registry (fromBlockDeviceToMountinfo b)
  taken : ∀ later data, later (fromBlockDeviceToMountinfo d) = some data → data.Active →
    0 < data.counter → ∃ after, t.umounted later = some after ∧
      counterOf after (fromBlockDeviceToMountinfo d) = data.counter - 1

/-- The route and the memory that the credit needs. -/
structure CreditsWhen (t : MountAndUmount) (d b : BlockDevice) (data : ObjectData) : Prop where
  route : ∃ oldPath newPath, t.call = .doMoveMount oldPath newPath
  distinct : fromBlockDeviceToMountinfo d ≠ fromBlockDeviceToMountinfo b
  buf : t.buf = true
  epoch : data.e = none → t.kzalloc ≠ none
  outside : pathStartsWith t.umountBuf runSystemd (t.umountMem t.umountRegs.di) = some false

variable {t : MountAndUmount} {d b : BlockDevice}

/-- `path_mount` is credited to the device under the mount point. -/
theorem mountEntry_pathMount (h : t.Mounts d b)
    {devName mountpoint typePage flags dataPage : UInt64}
    (hcall : t.call = .pathMount devName mountpoint typePage flags dataPage) :
    t.mountEntry =
      if isNewMount t.regs.r10 then some (fromBlockDeviceToMountinfo b) else none := by
  have hpasses := h.passes
  have hmounts := h.mounts
  rw [hcall] at hpasses hmounts
  obtain ⟨-, hsi, -, -, -⟩ := hpasses
  obtain ⟨-, hptr, hpath⟩ := hmounts
  simp only [mountEntry, hcall, oldMountEntryHandler, pathAt, hsi, hptr, if_false]
  exact oldMountEntry_eq hpath _

/-- `do_move_mount` is credited to the device of the tree that it attaches. -/
theorem mountEntry_doMoveMount (h : t.Mounts d b) {oldPath newPath : UInt64}
    (hcall : t.call = .doMoveMount oldPath newPath) :
    t.mountEntry = if t.buf then some (fromBlockDeviceToMountinfo d) else none := by
  have hpasses := h.passes
  have hmounts := h.mounts
  rw [hcall] at hpasses hmounts
  obtain ⟨hptr, -, hpath, hroot, -⟩ := hmounts
  simp only [mountEntry, hcall, newMountEntryHandler, pathAt, hpasses.1, hptr, if_false]
  exact newMountEntry_of_root hpath hroot _

/-- The counters after a mount that was credited to `d`. -/
theorem counterOf_mounted {registry : Registry} {data : ObjectData}
    (hdata : registry (fromBlockDeviceToMountinfo d) = some data)
    (hentry : t.mountEntry = some (fromBlockDeviceToMountinfo d)) :
    t.mounted registry = Function.update registry (fromBlockDeviceToMountinfo d)
      (some (data.countMount t.kzalloc t.tv)) := by
  simp [mounted, hentry, mountHandler, epochCountMount, doEpochEventCount_of_some hdata]

/-- The umount call as its probe sees it. -/
theorem umountEntry_eq (h : t.Mounts d b) :
    umountEntryHandler t.umountBuf t.umountMem t.umountRegs =
      (pathStartsWith t.umountBuf runSystemd (t.umountMem t.umountRegs.di)).map fun excluded =>
        if excluded then none else some (fromBlockDeviceToMountinfo d) := by
  have hpath := h.umountPath
  simp [umountEntryHandler, umountEntry, pathAt, h.umountPtr, hpath]

theorem taken_of_outside (h : t.Mounts d b)
    (hout : pathStartsWith t.umountBuf runSystemd (t.umountMem t.umountRegs.di) = some false)
    {later : Registry} {data : ObjectData}
    (hdata : later (fromBlockDeviceToMountinfo d) = some data) (hactive : data.Active)
    (hpos : 0 < data.counter) :
    ∃ after, t.umounted later = some after ∧
      counterOf after (fromBlockDeviceToMountinfo d) = data.counter - 1 := by
  refine ⟨_, by rw [umounted, umountEntry_eq h, hout]; rfl, ?_⟩
  have hcount := ObjectData.counter_countUmount hactive hpos t.kmalloc
  simpa [umountHandler, epochCountUmount, doEpochEventCount_of_some hdata, counterOf] using hcount

/-- An umount inside `/run/systemd` is not counted. -/
theorem outside_of_taken (h : t.Mounts d b)
    (htaken : ∀ later data, later (fromBlockDeviceToMountinfo d) = some data → data.Active →
      0 < data.counter → ∃ after, t.umounted later = some after ∧
        counterOf after (fromBlockDeviceToMountinfo d) = data.counter - 1) :
    pathStartsWith t.umountBuf runSystemd (t.umountMem t.umountRegs.di) = some false := by
  let data : ObjectData := (initObjectData []).countMount (some 0) ⟨0, by decide⟩
  have hactive : data.Active := (ObjectData.initObjectData_active []).countMount _ _
  have hcounter : data.counter = 1 := by
    rw [ObjectData.counter_countMount _ (by simp), ObjectData.initObjectData_counter, zero_add]
  obtain ⟨after, hafter, hcount⟩ := htaken (fun _ => some data) data rfl hactive (by omega)
  rw [umounted, umountEntry_eq h] at hafter
  cases hstarts : pathStartsWith t.umountBuf runSystemd (t.umountMem t.umountRegs.di) with
  | none => simp [hstarts] at hafter
  | some excluded =>
    cases excluded with
    | false => rfl
    | true =>
      simp only [hstarts, Option.map_some, if_true, Option.some.injEq] at hafter
      subst hafter
      simp [counterOf, hcounter] at hcount

end MountAndUmount

open MountAndUmount

/-- A new mount of a registered device is credited to it and taken off it again
exactly when it is made by `do_move_mount`, the two devices have different keys, the
probes get their memory and the umount is one that is counted. -/
theorem mount_routes_credit (t : MountAndUmount) {d b : BlockDevice} (h : t.Mounts d b)
    {registry : Registry} {data : ObjectData}
    (hdata : registry (fromBlockDeviceToMountinfo d) = some data) :
    t.Credits d b registry ↔ t.CreditsWhen d b data := by
  constructor
  · intro hcredits
    have hmounted := counterOf_mounted hdata hcredits.recorded
    have hdistinct : fromBlockDeviceToMountinfo d ≠ fromBlockDeviceToMountinfo b := by
      intro hsame
      have hcounted := hcredits.counted
      have hunchanged := hcredits.unchanged
      rw [← hsame] at hunchanged
      omega
    have hroute : ∃ oldPath newPath, t.call = .doMoveMount oldPath newPath := by
      cases hcall : t.call with
      | pathMount devName mountpoint typePage flags dataPage =>
        have hentry := mountEntry_pathMount h hcall
        rw [hcredits.recorded] at hentry
        split at hentry
        · exact absurd (Option.some.inj hentry) hdistinct
        · cases hentry
      | doMoveMount oldPath newPath => exact ⟨oldPath, newPath, rfl⟩
    obtain ⟨oldPath, newPath, hcall⟩ := hroute
    refine ⟨⟨oldPath, newPath, hcall⟩, hdistinct, ?_, ?_, outside_of_taken h hcredits.taken⟩
    · have hentry := mountEntry_doMoveMount h hcall
      rw [hcredits.recorded] at hentry
      cases hbuf : t.buf with
      | true => rfl
      | false => simp [hbuf] at hentry
    · intro he hkzalloc
      have hcounted := hcredits.counted
      rw [hmounted] at hcounted
      simp [counterOf, hdata, ObjectData.counter, ObjectData.countMount_of_none he, hkzalloc,
        he] at hcounted
  · rintro ⟨⟨oldPath, newPath, hcall⟩, hdistinct, hbuf, hepoch, hout⟩
    have hentry : t.mountEntry = some (fromBlockDeviceToMountinfo d) := by
      rw [mountEntry_doMoveMount h hcall, hbuf, if_pos rfl]
    have hmounted := counterOf_mounted hdata hentry
    constructor
    · exact hentry
    · rw [hmounted]
      simpa [counterOf, hdata] using ObjectData.counter_countMount t.tv hepoch
    · rw [hmounted]
      simp [counterOf, Function.update_of_ne hdistinct.symm]
    · intro later data' hlater hactive hpos
      exact taken_of_outside h hout hlater hactive hpos

/-! ## A mount on the root file system -/

/-- The device that is mounted, and the one of the root file system. -/
def sdb1 : BlockDevice := ⟨8388625, []⟩
def sda2 : BlockDevice := ⟨8388610, []⟩

/-- Both devices are registered; the root file system has an open epoch. -/
def sdb1Registry : Registry := fun minfo =>
  if minfo = fromBlockDeviceToMountinfo sdb1 then some (initObjectData "/dev/sdb1".toList)
  else if minfo = fromBlockDeviceToMountinfo sda2 then
    some ((initObjectData "/dev/sda2".toList).countMount (some 1) ⟨0, by decide⟩)
  else none

/-- The path of the detached tree, or of the mount, is at 2, and the mount point at 1. -/
def sdb1Mem (dPath : CStr) : UInt64 → Path := fun ptr =>
  if ptr = 2 then pathOn sdb1 (some dPath) else pathOn sda2 (some "/mnt".toList)

/-- A mount of `sdb1` at `/mnt` by the given call, with all allocations succeeding. -/
def sdb1Mounted (call : MountCall) (regs : PtRegs) : MountAndUmount where
  call := call
  mem := sdb1Mem ['/']
  regs := regs
  buf := true
  kzalloc := some 2
  tv := ⟨1, by decide⟩
  umountMem := sdb1Mem "/mnt".toList
  umountRegs := ⟨2, 0, 0, 0, 0, 0⟩
  umountBuf := true
  kmalloc := true

/-- By `do_move_mount` the mount is credited to `sdb1`. -/
theorem mount_routes_credit_sdb1 :
    (sdb1Mounted (.doMoveMount 2 1) ⟨2, 1, 0, 0, 0, 0⟩).Credits sdb1 sda2 sdb1Registry := by
  have hmounts : (sdb1Mounted (.doMoveMount 2 1) ⟨2, 1, 0, 0, 0, 0⟩).Mounts sdb1 sda2 :=
    ⟨⟨rfl, rfl⟩, ⟨by decide, by decide, rfl, rfl, rfl⟩, by decide, rfl⟩
  have hdata : sdb1Registry (fromBlockDeviceToMountinfo sdb1) =
      some (initObjectData "/dev/sdb1".toList) := if_pos rfl
  apply (mount_routes_credit _ hmounts hdata).mpr
  exact ⟨⟨2, 1, rfl⟩, by decide, rfl, by simp [sdb1Mounted], by decide⟩

/-- By `path_mount`, with the flags 0, it is credited to the root file system. -/
theorem path_mount_credits_mountpoint :
    let t := sdb1Mounted (.pathMount 3 1 4 0 5) ⟨3, 1, 4, 0, 5, 0⟩
    t.Mounts sdb1 sda2 ∧ t.mountEntry = some (fromBlockDeviceToMountinfo sda2) ∧
      counterOf (t.mounted sdb1Registry) (fromBlockDeviceToMountinfo sdb1) = 0 ∧
      counterOf (t.mounted sdb1Registry) (fromBlockDeviceToMountinfo sda2) = 2 :=
  ⟨⟨⟨rfl, rfl, rfl, rfl, rfl⟩, ⟨by decide, by decide, rfl⟩, by decide, rfl⟩, by decide,
    by decide +kernel, by decide +kernel⟩

end BlkdevSnapshot

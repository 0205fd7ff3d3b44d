import BlkdevSnapshot.Machine
import BlkdevSnapshot.MountProbes

/-!
# Mounts attached and mounts counted

The kernel's side is a contract: which calls attach a mount and which remove one.
`path_mount` drops the old magic number from the flag word before it looks at the
flags. Against it stand the counting calls that the probes make for the device.
-/
namespace BlkdevSnapshot

def msMgcVal : UInt64 := 0xC0ED0000
def msMgcMsk : UInt64 := 0xffff0000

/-- The flag word has the magic number in its place. -/
def carriesMagic (flags : UInt64) : Bool := decide (flags &&& msMgcMsk = msMgcVal)

def discardMagic (flags : UInt64) : UInt64 :=
  if carriesMagic flags then flags &&& 0xffff else flags

/-- What a call of the kernel's `path_mount` does. -/
inductive MountOp where
  | reconfigure
  | remount
  | bind
  | changeType
  | move
  | newMount
  deriving DecidableEq, Repr

/-- The operation that the flags of `path_mount` select. -/
def pathMountOp (flags : UInt64) : MountOp :=
  let flags := discardMagic flags
  if flags &&& (msRemount ||| msBind) = msRemount ||| msBind then .reconfigure
  else if flags &&& msRemount ≠ 0 then .remount
  else if flags &&& msBind ≠ 0 then .bind
  else if flags &&& (msShared ||| msPrivate ||| msSlave ||| msUnbindable) ≠ 0 then .changeType
  else if flags &&& msMove ≠ 0 then .move
  else .newMount

/-- The operations that attach one mount. -/
def MountOp.attaches (op : MountOp) : Bool := decide (op = .newMount) || decide (op = .bind)

example : pathMountOp msBind = .bind ∧ isNewMount msBind = false := by decide

/-- The probe tells new mounts as the kernel does, except that it reads the magic
number as propagation flags. -/
theorem isNewMount_eq (flags : UInt64) : isNewMount flags =
    (decide (pathMountOp flags = .newMount) && !carriesMagic flags) := by
  cases h : carriesMagic flags with
  | false =>
    have hflags : discardMagic flags = flags := by simp [discardMagic, h]
    simp only [isNewMount, pathMountOp, hflags]
    split_ifs <;> simp_all
  | true =>
    have hmagic : flags &&& msMgcMsk = msMgcVal := by simpa [carriesMagic] using h
    have hprop : flags &&& (msShared ||| msPrivate ||| msSlave ||| msUnbindable) ≠ 0 := by
      intro hzero
      have hboth : flags &&& msMgcMsk &&& (msShared ||| msPrivate ||| msSlave ||| msUnbindable) =
          flags &&& (msShared ||| msPrivate ||| msSlave ||| msUnbindable) := by
        rw [UInt64.and_assoc]
        congr 1
      rw [hmagic, hzero] at hboth
      exact absurd hboth (by decide)
    simp [isNewMount, hprop]

/-- A path on a file system of `bdev`, with its `d_path`. -/
def pathOn (bdev : BlockDevice) (dPath : Option CStr) : Path := ⟨some ⟨some ⟨some bdev⟩⟩, dPath⟩

theorem pathOn_liesOn (bdev : BlockDevice) (dPath : Option CStr) :
    (pathOn bdev dPath).LiesOn bdev := rfl

/-- The mounts of a device that are attached, the calls of `epoch_count_mount` less
those of `epoch_count_umount` for it, and the registered devices. -/
structure Balance where
  attached : ℕ
  counted : ℤ
  registry : Registry

/-- Successful mount operations on the device, with the results of the allocations
that their probes make. A tree is detached when its `d_path` is the root. -/
inductive MountAct where
  | pathMount (flags : UInt64) (kzalloc : Option ℕ) (tv : ClockSec)
  | doMoveMount (dPath : Option CStr) (buf : Bool) (kzalloc : Option ℕ) (tv : ClockSec)
  | pathUmount (dPath : Option CStr) (buf kmalloc : Bool)

/-- The mount point is one whose umount is not counted. -/
def insideRunSystemd (dPath : Option CStr) : Bool :=
  (dPath.map (startsWithDir runSystemd)).getD false

namespace Balance

/-- One call more for the device `key`, if the call is about it. -/
def calls (key minfo : Mountinfo) : ℤ := if minfo = key then 1 else 0

/-- The return of a mount call whose entry handler gave `minfo`. -/
def mountReturns (key : Mountinfo) (minfo : Option Mountinfo) (kzalloc : Option ℕ) (tv : ClockSec)
    (s : Balance) : Balance :=
  match minfo with
  | none => s
  | some m => { s with
      counted := s.counted + calls key m
      registry := (mountHandler 0 kzalloc tv m s.registry).1 }

/-- The return of an umount call whose entry handler gave `minfo`. -/
def umountReturns (key : Mountinfo) (minfo : Option Mountinfo) (kmalloc : Bool) (s : Balance) :
    Balance :=
  match minfo with
  | none => s
  | some m => { s with
      counted := s.counted - calls key m
      registry := (umountHandler 0 kmalloc m s.registry).1 }

/-- Attached mounts and counting calls agree, and the device has an epoch exactly
while it has a mount: the epoch ends only with the last mount. -/
def Balanced (bdev : BlockDevice) (s : Balance) : Prop :=
  s.counted = s.attached ∧
  ∃ data, s.registry (fromBlockDeviceToMountinfo bdev) = some data ∧
    (data.e = none ↔ s.attached = 0)

/-- The device has no open epoch. -/
def noEpoch (bdev : BlockDevice) (s : Balance) : Bool :=
  decide (((s.registry (fromBlockDeviceToMountinfo bdev)).bind ObjectData.e) = none)

/-- An operation that the probes count as the kernel does: no bind mount, no magic
number with a new mount, and memory for the probes of an attaching call. -/
def CountsRight (bdev : BlockDevice) (s : Balance) : MountAct → Prop
  | .pathMount flags kzalloc _ => pathMountOp flags ≠ .bind ∧
      (pathMountOp flags = .newMount →
        carriesMagic flags = false ∧ (s.noEpoch bdev = true → kzalloc ≠ none))
  | .doMoveMount dPath buf kzalloc _ => dPath = some ['/'] →
      buf = true ∧ (s.noEpoch bdev = true → kzalloc ≠ none)
  | .pathUmount _ _ _ => True

instance (bdev : BlockDevice) (s : Balance) (a : MountAct) :
    Decidable (s.CountsRight bdev a) := by
  cases a <;> unfold CountsRight <;> infer_instance

end Balance

open Balance

/-- Successful mount operations on a device that was registered before them. -/
def balanceMachine (bdev : BlockDevice) : Machine Balance MountAct where
  init s := s.attached = 0 ∧ s.counted = 0 ∧
    ∃ name, s.registry (fromBlockDeviceToMountinfo bdev) = some (initObjectData name)
  step
    | s, .pathMount flags kzalloc tv =>
      let minfo := oldMountEntry (some (pathOn bdev none)) flags
      some ({ s with attached := s.attached + (pathMountOp flags).attaches.toNat }.mountReturns
        (fromBlockDeviceToMountinfo bdev) minfo kzalloc tv)
    | s, .doMoveMount dPath buf kzalloc tv =>
      let minfo := newMountEntry buf (some (pathOn bdev dPath))
      some ({ s with attached := s.attached + (decide (dPath = some ['/'])).toNat }.mountReturns
        (fromBlockDeviceToMountinfo bdev) minfo kzalloc tv)
    | s, .pathUmount dPath buf kmalloc =>
      if s.attached = 0 ∨ insideRunSystemd dPath then none
      else (umountEntry buf (some (pathOn bdev dPath))).map fun minfo =>
        { s with attached := s.attached - 1 }.umountReturns
          (fromBlockDeviceToMountinfo bdev) minfo kmalloc

namespace Balance
variable {bdev : BlockDevice} {s : Balance}

/-- The counter of the epoch is the number of attached mounts. -/
structure Inv (bdev : BlockDevice) (s : Balance) (data : ObjectData) : Prop where
  counted : s.counted = s.attached
  registered : s.registry (fromBlockDeviceToMountinfo bdev) = some data
  active : data.Active
  counter : data.counter = s.attached

theorem Inv.balanced {data : ObjectData} (h : s.Inv bdev data) : s.Balanced bdev := by
  refine ⟨h.counted, data, h.registered, ?_⟩
  rw [h.active.e_eq_none_iff, h.counter]
  exact Int.natCast_eq_zero

theorem Inv.noEpoch_iff {data : ObjectData} (h : s.Inv bdev data) :
    s.noEpoch bdev = true ↔ data.e = none := by
  simp [noEpoch, h.registered]

/-- A counted mount of the device. -/
theorem mountReturns_some {data : ObjectData}
    (h : s.registry (fromBlockDeviceToMountinfo bdev) = some data) (n : ℕ) (kzalloc : Option ℕ)
    (tv : ClockSec) :
    { s with attached := n }.mountReturns (fromBlockDeviceToMountinfo bdev)
      (some (fromBlockDeviceToMountinfo bdev)) kzalloc tv =
    ⟨n, s.counted + 1, Function.update s.registry (fromBlockDeviceToMountinfo bdev)
      (some (data.countMount kzalloc tv))⟩ := by
  simp [mountReturns, calls, mountHandler, epochCountMount, doEpochEventCount_of_some h]

theorem umountReturns_some {data : ObjectData}
    (h : s.registry (fromBlockDeviceToMountinfo bdev) = some data) (n : ℕ) (kmalloc : Bool) :
    { s with attached := n }.umountReturns (fromBlockDeviceToMountinfo bdev)
      (some (fromBlockDeviceToMountinfo bdev)) kmalloc =
    ⟨n, s.counted - 1, Function.update s.registry (fromBlockDeviceToMountinfo bdev)
      (some (data.countUmount kmalloc).1)⟩ := by
  simp [umountReturns, calls, umountHandler, epochCountUmount, doEpochEventCount_of_some h]

/-- A mount call that attaches a mount exactly when the probe counts it. -/
theorem Inv.mount {data : ObjectData} (h : s.Inv bdev data) {attaches : Bool}
    {kzalloc : Option ℕ} {tv : ClockSec}
    (hmem : attaches = true → s.noEpoch bdev = true → kzalloc ≠ none) :
    ∃ data', Inv bdev ({ s with attached := s.attached + attaches.toNat }.mountReturns
      (fromBlockDeviceToMountinfo bdev)
      (if attaches then some (fromBlockDeviceToMountinfo bdev) else none) kzalloc tv) data' := by
  cases attaches with
  | false => exact ⟨data, h.counted, h.registered, h.active, h.counter⟩
  | true =>
    have hcount := ObjectData.counter_countMount tv
      fun he => hmem rfl (h.noEpoch_iff.mpr he)
    have hcounted := h.counted
    have hcounter := h.counter
    refine ⟨data.countMount kzalloc tv, ?_⟩
    rw [if_pos rfl, mountReturns_some h.registered]
    constructor
    · simp [hcounted]
    · simp
    · exact h.active.countMount kzalloc tv
    · simp [hcount, hcounter]

/-- An umount of an attached mount. -/
theorem Inv.umount {data : ObjectData} (h : s.Inv bdev data) (hattached : s.attached ≠ 0)
    (kmalloc : Bool) :
    Inv bdev ({ s with attached := s.attached - 1 }.umountReturns
      (fromBlockDeviceToMountinfo bdev) (some (fromBlockDeviceToMountinfo bdev)) kmalloc)
      (data.countUmount kmalloc).1 := by
  have hcounted := h.counted
  have hcounter := h.counter
  have hcount := ObjectData.counter_countUmount h.active (by omega) kmalloc
  rw [umountReturns_some h.registered]
  constructor
  · simp only
    omega
  · simp
  · exact h.active.countUmount kmalloc
  · simp only
    omega

/-- A mount that is attached and not counted. -/
theorem Inv.uncounted {data : ObjectData} (h : s.Inv bdev data) (kzalloc : Option ℕ)
    (tv : ClockSec) :
    ¬ Balanced bdev ({ s with attached := s.attached + 1 }.mountReturns
      (fromBlockDeviceToMountinfo bdev) none kzalloc tv) := by
  rintro ⟨hcounted, -⟩
  have := h.counted
  simp only [mountReturns] at hcounted
  omega

/-- A first mount that finds no memory for an epoch. -/
theorem Inv.unopened {data : ObjectData} (h : s.Inv bdev data) (hnone : s.noEpoch bdev = true)
    (tv : ClockSec) :
    ¬ Balanced bdev ({ s with attached := s.attached + 1 }.mountReturns
      (fromBlockDeviceToMountinfo bdev) (some (fromBlockDeviceToMountinfo bdev)) none tv) := by
  rw [mountReturns_some h.registered]
  rintro ⟨-, data', hdata', hiff⟩
  simp only [Function.update_self, Option.some.injEq] at hdata'
  subst hdata'
  rw [ObjectData.countMount_of_none (h.noEpoch_iff.mp hnone)] at hiff
  simp at hiff

end Balance

/-- `path_mount` as its probe sees it: new mounts without the magic number. -/
theorem oldMountEntry_pathOn (bdev : BlockDevice) (flags : UInt64) :
    oldMountEntry (some (pathOn bdev none)) flags =
      if pathMountOp flags = .newMount ∧ carriesMagic flags = false then
        some (fromBlockDeviceToMountinfo bdev) else none := by
  simp [oldMountEntry_eq (pathOn_liesOn bdev none), isNewMount_eq]

/-- `do_move_mount` as its probe sees it: detached trees, given memory. -/
theorem newMountEntry_pathOn (bdev : BlockDevice) (dPath : Option CStr) (buf : Bool) :
    newMountEntry buf (some (pathOn bdev dPath)) =
      if dPath = some ['/'] ∧ buf = true then
        some (fromBlockDeviceToMountinfo bdev) else none := by
  by_cases hroot : dPath = some ['/']
  · subst hroot
    simp [newMountEntry_of_root (pathOn_liesOn bdev _) rfl]
  · have hpath : (pathOn bdev dPath).dPath ≠ some ['/'] := hroot
    simp [newMountEntry_of_not_root hpath, hroot]

/-- `path_umount` outside `/run/systemd` as its probe sees it. -/
theorem umountEntry_pathOn {bdev : BlockDevice} {dPath : Option CStr} {buf : Bool}
    {minfo : Option Mountinfo} (hout : insideRunSystemd dPath = false)
    (h : umountEntry buf (some (pathOn bdev dPath)) = some minfo) :
    minfo = some (fromBlockDeviceToMountinfo bdev) := by
  cases dPath with
  | none =>
    cases buf with
    | false => exact (Option.some.inj h).symm
    | true => cases h
  | some p =>
    rw [umountEntry_outside (pathOn_liesOn bdev (some p)) rfl hout] at h
    exact (Option.some.inj h).symm

namespace Balance
variable {bdev : BlockDevice} {s s' : Balance} {a : MountAct}

/-- An operation that counts right keeps the balance. -/
theorem Inv.step {data : ObjectData} (h : s.Inv bdev data) (ha : s.CountsRight bdev a)
    (hstep : (balanceMachine bdev).step s a = some s') : ∃ data', s'.Inv bdev data' := by
  cases a with
  | pathMount flags kzalloc tv =>
    obtain ⟨hbind, hnew⟩ := ha
    have hprobe : (pathMountOp flags = .newMount ∧ carriesMagic flags = false) ↔
        (pathMountOp flags).attaches = true := by
      simp only [MountOp.attaches, hbind, decide_false, Bool.or_false, decide_eq_true_eq]
      exact ⟨And.left, fun hop => ⟨hop, (hnew hop).1⟩⟩
    simp only [balanceMachine, oldMountEntry_pathOn, hprobe, Option.some.injEq] at hstep
    subst hstep
    apply h.mount
    intro hattaches
    exact (hnew (hprobe.mpr hattaches).1).2
  | doMoveMount dPath buf kzalloc tv =>
    have hprobe : (dPath = some ['/'] ∧ buf = true) ↔ decide (dPath = some ['/']) = true := by
      rw [decide_eq_true_eq]
      exact ⟨And.left, fun hroot => ⟨hroot, (ha hroot).1⟩⟩
    simp only [balanceMachine, newMountEntry_pathOn, hprobe, Option.some.injEq] at hstep
    subst hstep
    apply h.mount
    intro hroot
    exact (ha (of_decide_eq_true hroot)).2
  | pathUmount dPath buf kmalloc =>
    simp only [balanceMachine] at hstep
    split at hstep
    · cases hstep
    · rename_i hlegal
      obtain ⟨hattached, hout⟩ := not_or.mp hlegal
      obtain ⟨minfo, hentry, rfl⟩ := Option.map_eq_some_iff.mp hstep
      rw [umountEntry_pathOn (by simpa using hout) hentry]
      exact ⟨_, h.umount hattached kmalloc⟩

/-- Any other operation breaks it at once. -/
theorem Inv.breaks {data : ObjectData} (h : s.Inv bdev data) (ha : ¬ s.CountsRight bdev a) :
    ∃ s', (balanceMachine bdev).step s a = some s' ∧ ¬ s'.Balanced bdev := by
  cases a with
  | pathMount flags kzalloc tv =>
    refine ⟨_, rfl, ?_⟩
    rw [oldMountEntry_pathOn]
    by_cases hbind : pathMountOp flags = .bind
    · simpa [hbind, MountOp.attaches] using h.uncounted kzalloc tv
    · simp only [CountsRight, ne_eq, hbind, not_false_eq_true, true_and, Classical.not_imp] at ha
      obtain ⟨hnew, ha⟩ := ha
      cases hmagic : carriesMagic flags with
      | true => simpa [hnew, MountOp.attaches] using h.uncounted kzalloc tv
      | false =>
        simp only [hmagic, true_and, Classical.not_imp, not_not] at ha
        obtain ⟨hnone, rfl⟩ := ha
        simpa [hnew, MountOp.attaches] using h.unopened hnone tv
  | doMoveMount dPath buf kzalloc tv =>
    refine ⟨_, rfl, ?_⟩
    rw [newMountEntry_pathOn]
    simp only [CountsRight, Classical.not_imp] at ha
    obtain ⟨hroot, ha⟩ := ha
    cases buf with
    | false => simpa [hroot] using h.uncounted kzalloc tv
    | true =>
      simp only [true_and, Classical.not_imp, not_not] at ha
      obtain ⟨hnone, rfl⟩ := ha
      simpa [hroot] using h.unopened hnone tv
  | pathUmount dPath buf kmalloc => exact absurd trivial ha

end Balance

/-- Mounts and counting calls agree throughout a run exactly when every operation
of it counts right. -/
theorem mount_events_balance (bdev : BlockDevice) {s : Balance}
    (hs : (balanceMachine bdev).init s) (acts : List MountAct) :
    (balanceMachine bdev).Throughout (Balanced bdev) s acts ↔
      (balanceMachine bdev).Meets (CountsRight bdev) s acts := by
  obtain ⟨hattached, hcounted, name, hname⟩ := hs
  apply Machine.throughout_iff_meets (I := fun s => ∃ data, s.Inv bdev data)
  · rintro s ⟨data, h⟩
    exact h.balanced
  · rintro s a s' ⟨data, h⟩ ha hstep
    exact h.step ha hstep
  · rintro s a ⟨data, h⟩ ha
    exact h.breaks ha
  · exact ⟨initObjectData name, by simp [hattached, hcounted], hname,
      ObjectData.initObjectData_active name, by simp [hattached]⟩

/-- A partition, registered and not mounted. -/
def sda1 : BlockDevice := ⟨8388609, []⟩

def sda1Registered : Balance where
  attached := 0
  counted := 0
  registry := fun minfo =>
    if minfo = fromBlockDeviceToMountinfo sda1 then some (initObjectData "/dev/sda1".toList)
    else none

theorem sda1Registered_init : (balanceMachine sda1).init sda1Registered := by
  refine ⟨rfl, rfl, "/dev/sda1".toList, ?_⟩
  simp only [sda1Registered, if_true]

/-- A mount by each route and both umounts, with memory for everything. -/
theorem mount_events_balance_sda1 :
    (balanceMachine sda1).Throughout (Balanced sda1) sda1Registered
      [.pathMount 0 (some 1) ⟨0, by decide⟩, .doMoveMount (some ['/']) true none ⟨1, by decide⟩,
        .pathUmount (some "/mnt".toList) true true, .pathUmount (some "/mnt".toList) true true] :=
  (mount_events_balance sda1 sda1Registered_init _).mpr (by decide +kernel)

/-- A mount, a bind mount and one umount: a mount stays attached, none is counted
and the epoch is over. -/
theorem bind_mount_uncounted :
    (balanceMachine sda1).init sda1Registered ∧
    ∃ s, (balanceMachine sda1).run sda1Registered
      [.pathMount 0 (some 1) ⟨0, by decide⟩, .pathMount msBind (some 2) ⟨1, by decide⟩,
        .pathUmount (some "/mnt".toList) true true] = some s ∧
      s.attached = 1 ∧ s.counted = 0 ∧ s.noEpoch sda1 = true := by
  refine ⟨sda1Registered_init, _, Machine.run_eq_getD _ _ _ (by decide +kernel), ?_⟩
  decide +kernel

end BlkdevSnapshot

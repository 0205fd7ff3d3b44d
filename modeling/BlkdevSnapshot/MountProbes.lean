import BlkdevSnapshot.Epoch

/-!
# The mount and umount probes

The entry handlers of the three kretprobes, which pick a device out of the
registers of the probed call, and the return handlers, which count the event in
the object registered for that device. A pointer is a 64-bit word; an entry
handler that returns 1, so that the return handler is not called, gives `none`.
-/
namespace BlkdevSnapshot

/-- `__MY_LO_NAME_SIZE` -/
def myLoNameSize : ℕ := 64

/-- `LOOP_MAJOR` -/
def loopMajor : UInt32 := 7

/-- `MAJOR` -/
def major (dev : UInt32) : UInt32 := dev >>> 20

/-- `struct block_device`: its number and the file name in the private data of a
loop device. -/
structure BlockDevice where
  bdDev : UInt32
  loFileName : CStr
  deriving DecidableEq

/-- `struct mountinfo` -/
inductive Mountinfo where
  | block (bdevt : UInt32)
  | loop (loFname : CStr)
  deriving DecidableEq

/-- `from_block_device_to_mountinfo` -/
def fromBlockDeviceToMountinfo (bdev : BlockDevice) : Mountinfo :=
  if major bdev.bdDev = loopMajor then .loop (strscpy myLoNameSize bdev.loFileName)
  else .block bdev.bdDev

structure SuperBlock where
  sBdev : Option BlockDevice

structure VfsMount where
  mntSb : Option SuperBlock

/-- `struct path`, with what `d_path` gives for it; `none` is an error pointer. -/
structure Path where
  mnt : Option VfsMount
  dPath : Option CStr

/-- `get_bdev_from_path` -/
def getBdevFromPath (path : Path) : Option BlockDevice :=
  (path.mnt.bind VfsMount.mntSb).bind SuperBlock.sBdev

/-- A path on a file system of the device `bdev`. -/
abbrev Path.LiesOn (path : Path) (bdev : BlockDevice) : Prop := getBdevFromPath path = some bdev

/-- `is_root` -/
def isRoot (kmalloc : Bool) (path : Path) : Bool :=
  if !kmalloc then false else decide (path.dPath = some ['/'])

/-- `s` is a prefix of `p` that ends at a slash or at the end of `p`. -/
def startsWithDir (s p : CStr) : Bool :=
  s.isPrefixOf p && decide (p[s.length]? = some '/' ∨ p[s.length]? = none)

/-- `path_starts_with`; `none` is the read through an error pointer. -/
def pathStartsWith (kmalloc : Bool) (s : CStr) (path : Path) : Option Bool :=
  if !kmalloc then some false else path.dPath.map (startsWithDir s)

/-- The path whose umounts are not counted. -/
def runSystemd : CStr := "/run/systemd".toList

/-! ## Mount flags -/

def msRemount : UInt64 := 32
def msBind : UInt64 := 4096
def msMove : UInt64 := 8192
def msUnbindable : UInt64 := 131072
def msPrivate : UInt64 := 262144
def msSlave : UInt64 := 524288
def msShared : UInt64 := 1048576

/-- The test of `old_mount_entry_handler`. -/
def isNewMount (flags : UInt64) : Bool :=
  !decide (flags &&& (msRemount ||| msBind) = msRemount ||| msBind) &&
  !decide (flags &&& msRemount ≠ 0) &&
  !decide (flags &&& msBind ≠ 0) &&
  !decide (flags &&& (msShared ||| msPrivate ||| msSlave ||| msUnbindable) ≠ 0) &&
  !decide (flags &&& msMove ≠ 0)

/-! ## Entry handlers -/

/-- The argument registers of `struct pt_regs`. -/
structure PtRegs where
  di : UInt64
  si : UInt64
  dx : UInt64
  cx : UInt64
  r8 : UInt64
  r10 : UInt64

/-- The `struct path` behind a pointer, unless it is NULL. -/
def pathAt (mem : UInt64 → Path) (ptr : UInt64) : Option Path :=
  if ptr = 0 then none else some (mem ptr)

/-- `new_mount_entry_handler` on the path that it takes from the registers. -/
def newMountEntry (kmalloc : Bool) (oldPath : Option Path) : Option Mountinfo :=
  oldPath.bind fun path => (getBdevFromPath path).bind fun bdev =>
    if isRoot kmalloc path then some (fromBlockDeviceToMountinfo bdev) else none

/-- `new_mount_entry_handler` -/
def newMountEntryHandler (kmalloc : Bool) (mem : UInt64 → Path) (regs : PtRegs) :
    Option Mountinfo :=
  newMountEntry kmalloc (pathAt mem regs.di)

/-- `old_mount_entry_handler` on the path and flags that it takes from the registers. -/
def oldMountEntry (path : Option Path) (flags : UInt64) : Option Mountinfo :=
  if isNewMount flags then (path.bind getBdevFromPath).map fromBlockDeviceToMountinfo else none

/-- `old_mount_entry_handler` -/
def oldMountEntryHandler (mem : UInt64 → Path) (regs : PtRegs) : Option Mountinfo :=
  oldMountEntry (pathAt mem regs.si) regs.r10

/-- `umount_entry_handler` on the path that it takes from the registers; the outer
`none` is a read through an error pointer. -/
def umountEntry (kmalloc : Bool) : Option Path → Option (Option Mountinfo)
  | none => some none
  | some path => (pathStartsWith kmalloc runSystemd path).map fun excluded =>
      if excluded then none else (getBdevFromPath path).map fromBlockDeviceToMountinfo

/-- `umount_entry_handler` -/
def umountEntryHandler (kmalloc : Bool) (mem : UInt64 → Path) (regs : PtRegs) :
    Option (Option Mountinfo) :=
  umountEntry kmalloc (pathAt mem regs.di)

/-! ## Return handlers -/

/-- The registered devices, as `get_device_data_always` finds them. -/
abbrev Registry := Mountinfo → Option ObjectData

/-- `__do_epoch_event_count`: the registry, and the epoch whose cleanup is queued. -/
def doEpochEventCount (minfo : Mountinfo) (cb : ObjectData → ObjectData × Option Epoch)
    (registry : Registry) : Registry × Option Epoch :=
  match registry minfo with
  | none => (registry, none)
  | some data => (Function.update registry minfo (some (cb data).1), (cb data).2)

/-- `epoch_count_mount` -/
def epochCountMount (kzalloc : Option ℕ) (tv : ClockSec) (minfo : Mountinfo)
    (registry : Registry) : Registry × Option Epoch :=
  doEpochEventCount minfo (fun data => (data.countMount kzalloc tv, none)) registry

/-- `epoch_count_umount` -/
def epochCountUmount (kmalloc : Bool) (minfo : Mountinfo) (registry : Registry) :
    Registry × Option Epoch :=
  doEpochEventCount minfo (ObjectData.countUmount kmalloc) registry

/-- `mount_handler` -/
def mountHandler (retval : ℤ) (kzalloc : Option ℕ) (tv : ClockSec) (minfo : Mountinfo)
    (registry : Registry) : Registry × Option Epoch :=
  if retval ≠ 0 then (registry, none) else epochCountMount kzalloc tv minfo registry

/-- `umount_handler` -/
def umountHandler (retval : ℤ) (kmalloc : Bool) (minfo : Mountinfo) (registry : Registry) :
    Registry × Option Epoch :=
  if retval ≠ 0 then (registry, none) else epochCountUmount kmalloc minfo registry

/-- The counter of the epoch of a device, zero when it has none. -/
def counterOf (registry : Registry) (minfo : Mountinfo) : ℤ :=
  ((registry minfo).map ObjectData.counter).getD 0

theorem newMountEntry_of_root {path : Path} {bdev : BlockDevice} (hbdev : path.LiesOn bdev)
    (hroot : path.dPath = some ['/']) (kmalloc : Bool) :
    newMountEntry kmalloc (some path) =
      if kmalloc then some (fromBlockDeviceToMountinfo bdev) else none := by
  cases kmalloc <;> simp [newMountEntry, hbdev, isRoot, hroot]

theorem newMountEntry_of_not_root {path : Path} (hroot : path.dPath ≠ some ['/'])
    (kmalloc : Bool) : newMountEntry kmalloc (some path) = none := by
  cases kmalloc <;> simp [newMountEntry, isRoot, hroot]

theorem oldMountEntry_eq {path : Path} {bdev : BlockDevice} (hbdev : path.LiesOn bdev)
    (flags : UInt64) : oldMountEntry (some path) flags =
      if isNewMount flags then some (fromBlockDeviceToMountinfo bdev) else none := by
  simp [oldMountEntry, hbdev]

theorem umountEntry_outside {path : Path} {bdev : BlockDevice} (hbdev : path.LiesOn bdev)
    {p : CStr} (hp : path.dPath = some p) (hout : startsWithDir runSystemd p = false)
    (kmalloc : Bool) :
    umountEntry kmalloc (some path) = some (some (fromBlockDeviceToMountinfo bdev)) := by
  cases kmalloc <;> simp [umountEntry, pathStartsWith, hp, hout, hbdev]

theorem doEpochEventCount_of_some {registry : Registry} {minfo : Mountinfo} {data : ObjectData}
    (h : registry minfo = some data) (cb : ObjectData → ObjectData × Option Epoch) :
    doEpochEventCount minfo cb registry =
      (Function.update registry minfo (some (cb data).1), (cb data).2) := by
  simp [doEpochEventCount, h]

end BlkdevSnapshot

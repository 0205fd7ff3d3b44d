import BlkdevSnapshot.CapturedBlock
import BlkdevSnapshot.MountProbes

/-!
# Reads through bad pointers in the probe handlers

The handlers of all probes with their pointer reads spelled out: a pointer that may be
NULL is an `Option`, and so is the result of `d_path`, where `none` is an error pointer.
A handler that reads through one, or copies past the block of a node, faults. Buffers
may have any size here.
-/
namespace BlkdevSnapshot

/-- What ends a handler early. -/
inductive Fault where
  | null
  | errPtr
  | overrun (size : ℕ)
  deriving DecidableEq, Repr

/-- A computation that may fault. -/
abbrev Access := Except Fault

/-- A read through a pointer that may be NULL. -/
def deref {α : Type*} : Option α → Access α
  | none => .error .null
  | some a => .ok a

/-- A read of the text that `d_path` returned. -/
def readDPath : Option CStr → Access CStr
  | none => .error .errPtr
  | some p => .ok p

/-- `struct super_block`, `struct inode`, `struct address_space` and `struct file` as
`vfs_write_entry_handler` reads them. -/
structure HostSuper where
  sMagic : UInt64
  sBdev : Option BlockDevice

structure HostInode where
  iSb : Option HostSuper

structure AddressSpace where
  host : Option HostInode

structure HostFile where
  fMapping : Option AddressSpace

/-- `SINGLEFILEFS_MAGIC` -/
def singlefilefsMagic : UInt64 := 0x42424242

/-- `struct buffer_head` with `b_size` bytes of data. -/
structure AnyBuffer where
  bBdev : Option BlockDevice
  bBlocknr : UInt64
  bData : Bytes

/-- `struct object_data` with its work queue, which is NULL when
`alloc_ordered_workqueue` has failed. -/
structure QueueObject extends ObjectData where
  wq : Option Unit

/-- The node of the running thread, and the registered devices. -/
structure ProbeState where
  node : Option CapturedBlock
  registry : Mountinfo → Option QueueObject

theorem length_copy (block : CapturedBlock) {data : Bytes}
    (h : data.length ≤ singlefilefsBlockSize) :
    (data ++ block.1.drop data.length).length = singlefilefsBlockSize := by
  rw [List.length_append, List.length_drop, block.2]
  omega

/-- `memcpy` to the block of a node. -/
def copyInto (block : CapturedBlock) (data : Bytes) : Access CapturedBlock :=
  if h : data.length ≤ singlefilefsBlockSize then
    .ok ⟨data ++ block.1.drop data.length, length_copy block h⟩
  else .error (.overrun data.length)

/-- A call that a probe sees, with the outcomes of the allocations in the handler. -/
inductive ProbedCall where
  | vfsWriteEntry (filp : Option HostFile) (allocPages : Bool) (content : CapturedBlock)
  | vfsWriteReturn
  | breadReturn (bh : Option AnyBuffer)
  | writeDirtyBuffer (bh : AnyBuffer) (msw mswBlock : Bool)
  | moveMountEntry (oldPath : Option Path) (kmalloc : Bool)
  | pathMountEntry (path : Option Path) (flags : UInt64)
  | mountReturn (retval : ℤ) (minfo : Mountinfo) (kzalloc : Option ℕ) (tv : ClockSec)
  | umountEntry (path : Option Path) (kmalloc : Bool)
  | umountReturn (retval : ℤ) (minfo : Mountinfo) (kmalloc : Bool)

namespace ProbeAccess

/-! ## Exported functions -/

/-- `bdsnap_search_device` -/
def bdsnapSearchDevice (registry : Mountinfo → Option QueueObject) (bdev : Option BlockDevice) :
    Access (Option QueueObject) := do
  let bdev ← deref bdev
  match registry (fromBlockDeviceToMountinfo bdev) with
  | none => return none
  | some data => if data.e.isNone || data.wqIsDestroyed then return none else return some data

/-- `queue_work`, which reads the work queue. -/
def queueWork (data : QueueObject) : Access Unit := deref data.wq

/-- `queue_snapshot_work`; the arguments tell whether its allocations succeed. -/
def queueSnapshotWork (msw mswBlock : Bool) (obj : QueueObject) : Access Unit := do
  if obj.e.isNone || !msw || !mswBlock then return ()
  queueWork obj

/-- `bdsnap_make_snapshot` -/
def bdsnapMakeSnapshot (msw mswBlock : Bool) (handle : Option QueueObject) : Access Unit := do
  if handle.isNone then return ()
  let data ← deref handle
  if data.e.isNone || data.wqIsDestroyed then return ()
  queueSnapshotWork msw mswBlock data

/-! ## The file system probes -/

/-- `vfs_write_entry_handler`: whether the call is tracked. -/
def vfsWriteEntryHandler (registry : Mountinfo → Option QueueObject) (allocPages : Bool)
    (filp : Option HostFile) : Access Bool := do
  if filp.isNone then return false
  let file ← deref filp
  if file.fMapping.isNone then return false
  let map ← deref file.fMapping
  if map.host.isNone then return false
  let hostino ← deref map.host
  if hostino.iSb.isNone then return false
  let sb ← deref hostino.iSb
  if sb.sMagic ≠ singlefilefsMagic then return false
  if sb.sBdev.isNone then return false
  let handle ← bdsnapSearchDevice registry sb.sBdev
  return handle.isSome && allocPages

/-- `sb_bread_handler`: the node afterwards. -/
def sbBreadHandler (node : Option CapturedBlock) (bh : Option AnyBuffer) :
    Access (Option CapturedBlock) := do
  if node.isNone then return none
  let block ← deref node
  let bh ← deref bh
  return some (← copyInto block bh.bData)

/-- `write_dirty_buffer_pre_handler`: the node afterwards, which is gone before `BUG()`. -/
def writeDirtyBufferPreHandler (s : ProbeState) (msw mswBlock : Bool) (bh : AnyBuffer) :
    Access (Option CapturedBlock) := do
  if s.node.isNone then return none
  if bh.bBdev.isNone then return s.node
  if bh.bData.length ≠ singlefilefsBlockSize then return none
  let handle ← bdsnapSearchDevice s.registry bh.bBdev
  bdsnapMakeSnapshot msw mswBlock handle
  return s.node

/-! ## The mount probes -/

/-- `get_bdev_from_path` -/
def getBdevFromPath (path : Path) : Access (Option BlockDevice) := do
  if path.mnt.isNone then return none
  let mnt ← deref path.mnt
  if mnt.mntSb.isNone then return none
  let sb ← deref mnt.mntSb
  return sb.sBdev

/-- `is_root` -/
def isRoot (kmalloc : Bool) (path : Path) : Access Bool := do
  if !kmalloc then return false
  if path.dPath.isNone then return false
  let p ← readDPath path.dPath
  return decide (p = ['/'])

/-- `path_starts_with` -/
def pathStartsWith (kmalloc : Bool) (s : CStr) (path : Path) : Access Bool := do
  if !kmalloc then return false
  let p ← readDPath path.dPath
  return startsWithDir s p

/-- `new_mount_entry_handler` -/
def newMountEntryHandler (kmalloc : Bool) (oldPath : Option Path) :
    Access (Option Mountinfo) := do
  if oldPath.isNone then return none
  let path ← deref oldPath
  let bdev ← getBdevFromPath path
  if bdev.isNone then return none
  let root ← isRoot kmalloc path
  if !root then return none
  return some (fromBlockDeviceToMountinfo (← deref bdev))

/-- `old_mount_entry_handler` -/
def oldMountEntryHandler (path : Option Path) (flags : UInt64) : Access (Option Mountinfo) := do
  if !isNewMount flags || path.isNone then return none
  let path ← deref path
  let bdev ← getBdevFromPath path
  if bdev.isNone then return none
  return some (fromBlockDeviceToMountinfo (← deref bdev))

/-- `umount_entry_handler` -/
def umountEntryHandler (kmalloc : Bool) (path : Option Path) : Access (Option Mountinfo) := do
  if path.isNone then return none
  let path ← deref path
  let excluded ← pathStartsWith kmalloc runSystemd path
  if excluded then return none
  let bdev ← getBdevFromPath path
  if bdev.isNone then return none
  return some (fromBlockDeviceToMountinfo (← deref bdev))

/-- `mount_handler` -/
def mountHandler (retval : ℤ) (kzalloc : Option ℕ) (tv : ClockSec) (minfo : Mountinfo)
    (registry : Mountinfo → Option QueueObject) : Access (Mountinfo → Option QueueObject) := do
  if retval ≠ 0 then return registry
  if (registry minfo).isNone then return registry
  let data ← deref (registry minfo)
  return Function.update registry minfo
    (some { data with toObjectData := data.toObjectData.countMount kzalloc tv })

/-- `umount_handler`; the cleanup of an epoch that ended is queued. -/
def umountHandler (retval : ℤ) (kmalloc : Bool) (minfo : Mountinfo)
    (registry : Mountinfo → Option QueueObject) : Access (Mountinfo → Option QueueObject) := do
  if retval ≠ 0 then return registry
  if (registry minfo).isNone then return registry
  let data ← deref (registry minfo)
  let counted := data.toObjectData.countUmount kmalloc
  if counted.2.isSome then queueWork data
  return Function.update registry minfo (some { data with toObjectData := counted.1 })

/-- The handler of a call. An entry handler of a mount probe leaves the state alone. -/
def handleCall (s : ProbeState) : ProbedCall → Access ProbeState
  | .vfsWriteEntry filp allocPages content => do
    let tracked ← vfsWriteEntryHandler s.registry allocPages filp
    return if tracked then { s with node := some content } else s
  | .vfsWriteReturn => return { s with node := none }
  | .breadReturn bh => return { s with node := ← sbBreadHandler s.node bh }
  | .writeDirtyBuffer bh msw mswBlock =>
    return { s with node := ← writeDirtyBufferPreHandler s msw mswBlock bh }
  | .moveMountEntry oldPath kmalloc => do
    let _ ← newMountEntryHandler kmalloc oldPath
    return s
  | .pathMountEntry path flags => do
    let _ ← oldMountEntryHandler path flags
    return s
  | .mountReturn retval minfo kzalloc tv =>
    return { s with registry := ← mountHandler retval kzalloc tv minfo s.registry }
  | .umountEntry path kmalloc => do
    let _ ← umountEntryHandler kmalloc path
    return s
  | .umountReturn retval minfo kmalloc =>
    return { s with registry := ← umountHandler retval kmalloc minfo s.registry }

end ProbeAccess

/-- The handler of a call neither reads through a bad pointer nor copies too much. -/
def Survives (s : ProbeState) (call : ProbedCall) : Prop :=
  ∃ s', ProbeAccess.handleCall s call = .ok s'

/-- The arguments and results that a handler can take. -/
def ProbedCall.Benign (s : ProbeState) : ProbedCall → Prop
  | breadReturn bh => s.node.isSome → ∃ b ∈ bh, b.bData.length ≤ singlefilefsBlockSize
  | writeDirtyBuffer bh msw mswBlock => s.node.isSome → msw → mswBlock →
      bh.bData.length = singlefilefsBlockSize → ∀ bdev ∈ bh.bBdev,
      ∀ data ∈ s.registry (fromBlockDeviceToMountinfo bdev),
      data.e.isSome → data.wqIsDestroyed = false → data.wq.isSome
  | umountEntry path kmalloc => kmalloc → ∀ p ∈ path, p.dPath.isSome
  | umountReturn retval minfo kmalloc => retval = 0 → kmalloc → ∀ data ∈ s.registry minfo,
      data.wqIsDestroyed = false → ∀ e ∈ data.e, e.nCurrentlyMounted = 1 → data.wq.isSome
  | _ => True

section Access
variable {α β : Type}

@[simp] theorem deref_some (a : α) : deref (some a) = pure a := rfl

@[simp] theorem deref_none : (deref none : Access α) = .error .null := rfl

@[simp] theorem readDPath_some (p : CStr) : readDPath (some p) = pure p := rfl

@[simp] theorem readDPath_none : readDPath none = .error .errPtr := rfl

@[simp] theorem error_bind (e : Fault) (f : α → Access β) :
    (Except.error e >>= f) = .error e := rfl

/-- The handler returns. -/
def Returns (x : Access α) : Prop := ∃ a, x = .ok a

@[simp] theorem returns_pure (a : α) : Returns (pure a : Access α) := ⟨a, rfl⟩

@[simp] theorem not_returns_error (e : Fault) : ¬ Returns (.error e : Access α) := by
  rintro ⟨a, ⟨⟩⟩

/-- What is done with the result of a handler does not matter. -/
theorem returns_bind_pure {x : Access α} {f : α → β} :
    Returns (x >>= fun a => pure (f a)) ↔ Returns x := by
  cases x with
  | error e => simp
  | ok a => exact iff_of_true ⟨f a, rfl⟩ ⟨a, rfl⟩

end Access

namespace ProbeAccess

theorem getBdevFromPath_eq (path : Path) :
    getBdevFromPath path = pure (BlkdevSnapshot.getBdevFromPath path) := by
  unfold getBdevFromPath BlkdevSnapshot.getBdevFromPath
  cases hmnt : path.mnt with
  | none => simp
  | some mnt => cases hsb : mnt.mntSb <;> simp [hsb]

theorem isRoot_eq (kmalloc : Bool) (path : Path) :
    isRoot kmalloc path = pure (BlkdevSnapshot.isRoot kmalloc path) := by
  unfold isRoot BlkdevSnapshot.isRoot
  cases kmalloc with
  | false => simp
  | true => cases hp : path.dPath <;> simp

/-- The entry handlers of the mount probes read through no bad pointer. -/
theorem newMountEntryHandler_eq (kmalloc : Bool) (oldPath : Option Path) :
    newMountEntryHandler kmalloc oldPath = pure (newMountEntry kmalloc oldPath) := by
  unfold newMountEntryHandler newMountEntry
  cases oldPath with
  | none => simp
  | some path =>
    simp only [Option.isNone_some, Bool.false_eq_true, if_false, deref_some, pure_bind,
      getBdevFromPath_eq, isRoot_eq, Option.bind_some]
    cases BlkdevSnapshot.getBdevFromPath path with
    | none => simp
    | some bdev => cases BlkdevSnapshot.isRoot kmalloc path <;> simp

theorem oldMountEntryHandler_eq (path : Option Path) (flags : UInt64) :
    oldMountEntryHandler path flags = pure (oldMountEntry path flags) := by
  unfold oldMountEntryHandler oldMountEntry
  cases isNewMount flags with
  | false => simp
  | true =>
    cases path with
    | none => simp
    | some path =>
      simp only [Bool.not_true, Option.isNone_some, Bool.or_self, Bool.false_eq_true, if_false,
        deref_some, pure_bind, getBdevFromPath_eq, if_true, Option.bind_some]
      cases BlkdevSnapshot.getBdevFromPath path <;> simp

/-- The one of the umount probe reads through the error pointer of `d_path` only. -/
theorem umountEntryHandler_toOption (kmalloc : Bool) (path : Option Path) :
    (umountEntryHandler kmalloc path).toOption = umountEntry kmalloc path := by
  unfold umountEntryHandler umountEntry
  cases path with
  | none => rfl
  | some path =>
    simp only [Option.isNone_some, Bool.false_eq_true, if_false, deref_some, pure_bind,
      getBdevFromPath_eq, pathStartsWith, BlkdevSnapshot.pathStartsWith]
    cases kmalloc with
    | false => cases BlkdevSnapshot.getBdevFromPath path <;> rfl
    | true =>
      cases hp : path.dPath with
      | none => rfl
      | some p =>
        cases hs : startsWithDir runSystemd p <;>
          cases BlkdevSnapshot.getBdevFromPath path <;> simp [hs] <;> rfl

theorem umountEntryHandler_returns (kmalloc : Bool) (path : Option Path) :
    Returns (umountEntryHandler kmalloc path) ↔ kmalloc → ∀ p ∈ path, p.dPath.isSome := by
  have hopt := umountEntryHandler_toOption kmalloc path
  cases hres : umountEntryHandler kmalloc path with
  | error e =>
    rw [hres] at hopt
    refine iff_of_false (not_returns_error e) fun h => ?_
    cases path with
    | none => cases hopt
    | some path =>
      cases kmalloc with
      | false => cases hopt
      | true =>
        obtain ⟨p, hp⟩ := Option.isSome_iff_exists.mp (h rfl path rfl)
        simp [umountEntry, BlkdevSnapshot.pathStartsWith, hp, Except.toOption] at hopt
  | ok r =>
    rw [hres] at hopt
    refine iff_of_true ⟨r, rfl⟩ fun hk p hp => ?_
    obtain rfl := hp
    cases hd : p.dPath with
    | some p => rfl
    | none => simp [umountEntry, BlkdevSnapshot.pathStartsWith, hd, hk, Except.toOption] at hopt

theorem vfsWriteEntryHandler_returns (registry : Mountinfo → Option QueueObject)
    (allocPages : Bool) (filp : Option HostFile) :
    Returns (vfsWriteEntryHandler registry allocPages filp) := by
  unfold vfsWriteEntryHandler
  cases filp with
  | none => simp
  | some file =>
    cases hmap : file.fMapping with
    | none => simp [hmap]
    | some map =>
      cases hhost : map.host with
      | none => simp [hmap, hhost]
      | some host =>
        cases hsb : host.iSb with
        | none => simp [hmap, hhost, hsb]
        | some sb =>
          by_cases hmagic : sb.sMagic = singlefilefsMagic
          · cases hbdev : sb.sBdev with
            | none => simp [hmap, hhost, hsb, hmagic, hbdev]
            | some bdev =>
              simp only [Option.isNone_some, Bool.false_eq_true, if_false, deref_some, pure_bind,
                hmap, hhost, hsb, hmagic, ne_eq, not_true_eq_false, hbdev]
              rw [returns_bind_pure, bdsnapSearchDevice, deref_some, pure_bind]
              split
              · simp
              · split <;> simp
          · simp [hmap, hhost, hsb, hmagic]

theorem sbBreadHandler_returns (node : Option CapturedBlock) (bh : Option AnyBuffer) :
    Returns (sbBreadHandler node bh) ↔
      (node.isSome → ∃ b ∈ bh, b.bData.length ≤ singlefilefsBlockSize) := by
  unfold sbBreadHandler
  cases node with
  | none => simp
  | some block =>
    cases bh with
    | none => simp
    | some b =>
      by_cases hlen : b.bData.length ≤ singlefilefsBlockSize
      · simp [copyInto, hlen, Returns]
      · simp [copyInto, hlen]

theorem bdsnapMakeSnapshot_returns (msw mswBlock : Bool) (handle : Option QueueObject) :
    Returns (bdsnapMakeSnapshot msw mswBlock handle) ↔ (msw → mswBlock → ∀ data ∈ handle,
      data.e.isSome → data.wqIsDestroyed = false → data.wq.isSome) := by
  unfold bdsnapMakeSnapshot queueSnapshotWork queueWork
  cases handle with
  | none => simp
  | some data =>
    cases he : data.e <;> cases hd : data.wqIsDestroyed <;> cases hq : data.wq <;>
      cases msw <;> cases mswBlock <;> simp [he, hd, hq]

/-- A cleanup is queued by the umount that ends an epoch, when memory allows. -/
theorem countUmount_ends (kmalloc : Bool) (data : ObjectData) :
    (data.countUmount kmalloc).2.isSome ↔ kmalloc ∧ data.wqIsDestroyed = false ∧
      ∃ e ∈ data.e, e.nCurrentlyMounted = 1 := by
  unfold ObjectData.countUmount epochEventCbCountUmount
  cases he : data.e with
  | none => simp
  | some e =>
    have hone : e.nCurrentlyMounted - 1 = 0 ↔ e.nCurrentlyMounted = 1 := by omega
    by_cases hneg : e.nCurrentlyMounted - 1 < 0
    · have hne : e.nCurrentlyMounted ≠ 1 := by omega
      simp [hneg, hne]
    · cases kmalloc <;> cases data.wqIsDestroyed <;> by_cases hlast : e.nCurrentlyMounted = 1 <;>
        simp [hneg, hone, hlast]

theorem umountHandler_returns (retval : ℤ) (kmalloc : Bool) (minfo : Mountinfo)
    (registry : Mountinfo → Option QueueObject) :
    Returns (umountHandler retval kmalloc minfo registry) ↔
      (retval = 0 → kmalloc → ∀ data ∈ registry minfo, data.wqIsDestroyed = false →
        ∀ e ∈ data.e, e.nCurrentlyMounted = 1 → data.wq.isSome) := by
  unfold umountHandler
  by_cases hret : retval = 0
  · cases hdata : registry minfo with
    | none => simp [hret]
    | some data =>
      have hends := countUmount_ends kmalloc data.toObjectData
      simp only [hret, ne_eq, not_true_eq_false, if_false, Option.isNone_some, Bool.false_eq_true,
        deref_some, pure_bind, true_implies, Option.mem_def, Option.some.injEq, forall_eq']
      by_cases hended : (data.toObjectData.countUmount kmalloc).2.isSome = true
      · obtain ⟨hk, hd, e, he, hone⟩ := hends.mp hended
        rw [if_pos hended, queueWork]
        cases hq : data.wq with
        | some wq => exact iff_of_true (by simp) fun _ _ _ _ _ => rfl
        | none =>
          refine iff_of_false (by simp) fun h => ?_
          simpa using h hk hd e he hone
      · rw [if_neg hended]
        refine iff_of_true (returns_pure _) fun hk hd e he hone => ?_
        exact absurd (hends.mpr ⟨hk, hd, e, he, hone⟩) hended
  · simp [hret]

theorem mountHandler_returns (retval : ℤ) (kzalloc : Option ℕ) (tv : ClockSec)
    (minfo : Mountinfo) (registry : Mountinfo → Option QueueObject) :
    Returns (mountHandler retval kzalloc tv minfo registry) := by
  unfold mountHandler
  by_cases hret : retval = 0
  · cases hdata : registry minfo <;> simp [hret]
  · simp [hret]

theorem bdsnapSearchDevice_some (registry : Mountinfo → Option QueueObject) (bdev : BlockDevice) :
    bdsnapSearchDevice registry (some bdev) =
      pure ((registry (fromBlockDeviceToMountinfo bdev)).filter fun data =>
        data.e.isSome && !data.wqIsDestroyed) := by
  rw [bdsnapSearchDevice, deref_some, pure_bind]
  cases registry (fromBlockDeviceToMountinfo bdev) with
  | none => rfl
  | some data => cases he : data.e <;> cases hd : data.wqIsDestroyed <;>
      simp [Option.filter_some, he, hd]

theorem writeDirtyBufferPreHandler_returns (s : ProbeState) (msw mswBlock : Bool)
    (bh : AnyBuffer) :
    Returns (writeDirtyBufferPreHandler s msw mswBlock bh) ↔
      (s.node.isSome → msw → mswBlock → bh.bData.length = singlefilefsBlockSize →
        ∀ bdev ∈ bh.bBdev, ∀ data ∈ s.registry (fromBlockDeviceToMountinfo bdev),
        data.e.isSome → data.wqIsDestroyed = false → data.wq.isSome) := by
  unfold writeDirtyBufferPreHandler
  cases hnode : s.node with
  | none => simp
  | some block =>
    cases hbdev : bh.bBdev with
    | none => simp
    | some bdev =>
      by_cases hlen : bh.bData.length = singlefilefsBlockSize
      · simp only [Option.isNone_some, Bool.false_eq_true, if_false, hlen, ne_eq,
          not_true_eq_false, bdsnapSearchDevice_some, pure_bind, returns_bind_pure,
          bdsnapMakeSnapshot_returns]
        cases hdata : s.registry (fromBlockDeviceToMountinfo bdev) with
        | none => simp [hdata]
        | some data =>
          cases he : data.e <;> cases hd : data.wqIsDestroyed <;> simp [he, hd, hdata]
      · simp [hlen]

end ProbeAccess

open ProbeAccess in
/-- A handler survives a call exactly if a block that it captures was read, and is at most
the block of the node; if an umounted path has a text; and if the device whose work it
queues has a work queue. -/
theorem survives_iff (s : ProbeState) (call : ProbedCall) : Survives s call ↔ call.Benign s := by
  cases call with
  | vfsWriteEntry filp allocPages content =>
    exact iff_of_true (returns_bind_pure.mpr (vfsWriteEntryHandler_returns ..)) trivial
  | vfsWriteReturn => exact iff_of_true (returns_pure _) trivial
  | breadReturn bh => exact returns_bind_pure.trans (sbBreadHandler_returns s.node bh)
  | writeDirtyBuffer bh msw mswBlock =>
    exact returns_bind_pure.trans (writeDirtyBufferPreHandler_returns s msw mswBlock bh)
  | moveMountEntry oldPath kmalloc =>
    exact iff_of_true (returns_bind_pure.mpr ⟨_, newMountEntryHandler_eq kmalloc oldPath⟩) trivial
  | pathMountEntry path flags =>
    exact iff_of_true (returns_bind_pure.mpr ⟨_, oldMountEntryHandler_eq path flags⟩) trivial
  | mountReturn retval minfo kzalloc tv =>
    exact iff_of_true (returns_bind_pure.mpr (mountHandler_returns ..)) trivial
  | umountEntry path kmalloc =>
    exact returns_bind_pure.trans (umountEntryHandler_returns kmalloc path)
  | umountReturn retval minfo kmalloc =>
    exact returns_bind_pure.trans (umountHandler_returns retval kmalloc minfo s.registry)

/-- A thread in a tracked write, and no device. -/
def trackedWrite : ProbeState := ⟨some onesBlock, fun _ => none⟩

/-- A failed block read, a block of 8 KiB, and an umount of a path that `d_path` has no
text for. -/
theorem not_survives :
    ProbeAccess.sbBreadHandler trackedWrite.node none = .error .null ∧
    ¬ Survives trackedWrite (.breadReturn none) ∧
    ProbeAccess.sbBreadHandler trackedWrite.node
      (some ⟨none, 0, List.replicate 8192 0⟩) = .error (.overrun 8192) ∧
    ¬ Survives trackedWrite (.breadReturn (some ⟨none, 0, List.replicate 8192 0⟩)) ∧
    ProbeAccess.umountEntryHandler true (some ⟨none, none⟩) = .error .errPtr ∧
    ¬ Survives trackedWrite (.umountEntry (some ⟨none, none⟩) true) := by
  have hlen : (List.replicate 8192 (0 : UInt8)).length = 8192 := List.length_replicate
  have hlarge : ¬ (List.replicate 8192 (0 : UInt8)).length ≤ singlefilefsBlockSize := by
    rw [hlen]
    decide
  have hcopy : copyInto onesBlock (List.replicate 8192 0) = .error (.overrun 8192) := by
    rw [copyInto, dif_neg hlarge, hlen]
  refine ⟨rfl, fun h => ?_, ?_, fun h => ?_, rfl, fun h => ?_⟩
  · obtain ⟨s', hs'⟩ := h
    cases hs'
  · simp only [ProbeAccess.sbBreadHandler, trackedWrite, Option.isNone_some, Bool.false_eq_true,
      if_false, deref_some, pure_bind, hcopy, error_bind]
  · have hreturns := (ProbeAccess.sbBreadHandler_returns _ _).mp (returns_bind_pure.mp h) rfl
    obtain ⟨b, ⟨⟩, hb⟩ := hreturns
    exact hlarge hb
  · obtain ⟨s', hs'⟩ := h
    cases hs'

end BlkdevSnapshot

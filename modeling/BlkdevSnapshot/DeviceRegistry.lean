import BlkdevSnapshot.MountProbes

/-!
# The registry of devices

The two hash tables of the registered devices with the operations that insert,
remove and look up. An object lives at the address that the allocator gave it. The
kernel calls of one operation take their outcomes from a `RegingCalls`; error
codes are positive numbers that a function returns negated.
-/
namespace BlkdevSnapshot

/-- A value that a kernel call reports as `-val`. -/
@[ext] structure Errno where
  val : ℕ
  pos : 0 < val

instance : DecidableEq Errno := fun _ _ => decidable_of_iff _ Errno.ext_iff.symm

/-- The return value of a failed call. -/
def Errno.code (e : Errno) : ℤ := -e.val

theorem Errno.code_neg (e : Errno) : e.code < 0 := by
  have := e.pos
  simp only [code]
  omega

def eperm : Errno := ⟨1, by decide⟩
def enoent : Errno := ⟨2, by decide⟩
def enomem : Errno := ⟨12, by decide⟩
def eacces : Errno := ⟨13, by decide⟩
def efault : Errno := ⟨14, by decide⟩
def ebusy : Errno := ⟨16, by decide⟩
def eexist : Errno := ⟨17, by decide⟩
def einval : Errno := ⟨22, by decide⟩
def enfile : Errno := ⟨23, by decide⟩
def enametoolong : Errno := ⟨36, by decide⟩
def enodata : Errno := ⟨61, by decide⟩
def enokey : Errno := ⟨126, by decide⟩

/-- `i_mode` and `i_rdev` of an inode, as far as the module looks at them. -/
inductive Inode where
  | blk (rdev : UInt32)
  | reg
  | other
  deriving DecidableEq

/-- `struct loop_object` or `struct blkdev_object`, with its address. -/
structure DeviceObject where
  addr : ℕ
  value : ObjectData
  deriving DecidableEq

/-- The hash tables by their keys. -/
structure Devices where
  allowRegingOperation : Bool
  blkdevsHt : UInt32 → Option DeviceObject
  loopsHt : CStr → Option DeviceObject

/-- What the kernel calls of a registration or an unregistration return. -/
structure RegingCalls where
  inodeOf : CStr → Except Errno (Option Inode)
  fullPath : CStr → Except Errno CStr
  loBackingFile : UInt32 → Except Errno CStr
  kzalloc : Option ℕ
  /-- The work queue of a new object, which nothing tests for NULL. -/
  allocOrderedWorkqueue : Option ℕ
  insert : Except Errno Unit
  kmalloc : Bool
  removeFast : Bool
  /-- The two allocations of `cleanup_object_data`. -/
  wlistnode : Bool
  wargs : Bool
  /-- What a read of `new_obj->key` finds after `kfree(new_obj)`. -/
  staleKey : ℤ

/-- A `long` as the `int` that it is returned as. -/
def intOfLong (n : ℤ) : ℤ := n.bmod (2 ^ 32)

variable (calls : RegingCalls)

/-- `get_loop_device_backing_file` -/
def getLoopDeviceBackingFile (bddevt : UInt32) : Except Errno CStr :=
  match calls.loBackingFile bddevt with
  | .error e => .error e
  | .ok bkfile => .ok (strscpy myLoNameSize bkfile)

/-- `__do_device_reging_operation` -/
def doDeviceRegingOperation (d : Devices) (path : CStr)
    (opOnLoopdev : CStr → CStr → ℤ × Devices) (opOnBlkdev : UInt32 → CStr → ℤ × Devices) :
    ℤ × Devices :=
  if !d.allowRegingOperation then (ebusy.code, d)
  else
    match calls.inodeOf path with
    | .error e => (e.code, d)
    | .ok none => (enfile.code, d)
    | .ok (some (.blk rdev)) =>
      if major rdev = loopMajor then
        match getLoopDeviceBackingFile calls rdev with
        | .error e => (e.code, d)
        | .ok loopBackingPath => opOnLoopdev loopBackingPath path
      else opOnBlkdev rdev path
    | .ok (some .reg) => opOnLoopdev path path
    | .ok (some .other) => (einval.code, d)

/-- `try_to_insert_loop_device`; the error of `get_full_path` is read out of the object
after the object was freed. Nothing here depends on the work queue of the new object, but
`cleanup_object_data_notvisible` flushes it when the object is refused, see
`FlushesNullQueue`. -/
def tryToInsertLoopDevice (d : Devices) (path originalDevName : CStr) : ℤ × Devices :=
  match calls.kzalloc with
  | none => (enomem.code, d)
  | some addr =>
    match calls.fullPath path with
    | .error _ => (intOfLong calls.staleKey, d)
    | .ok key =>
      match calls.insert with
      | .error _ => (efault.code, d)
      | .ok () =>
        match d.loopsHt key with
        | some _ => (eexist.code, d)
        | none => (0, { d with
            loopsHt := Function.update d.loopsHt key
              (some ⟨addr, initObjectData originalDevName⟩) })

/-- `try_to_insert_block_device` -/
def tryToInsertBlockDevice (d : Devices) (bddevt : UInt32) (originalDevName : CStr) :
    ℤ × Devices :=
  match calls.kzalloc with
  | none => (enomem.code, d)
  | some addr =>
    match calls.insert with
    | .error _ => (efault.code, d)
    | .ok () =>
      match d.blkdevsHt bddevt with
      | some _ => (eexist.code, d)
      | none => (0, { d with
          blkdevsHt := Function.update d.blkdevsHt bddevt
            (some ⟨addr, initObjectData originalDevName⟩) })

/-- `register_device` -/
def registerDevice (d : Devices) (path : CStr) : ℤ × Devices :=
  doDeviceRegingOperation calls d path (tryToInsertLoopDevice calls d)
    (tryToInsertBlockDevice calls d)

/-- `try_to_remove_loop_device` -/
def tryToRemoveLoopDevice (d : Devices) (path : CStr) : ℤ × Devices :=
  if !calls.kmalloc then (enomem.code, d)
  else
    match calls.fullPath path with
    | .error e => (e.code, d)
    | .ok fullPath =>
      match d.loopsHt fullPath with
      | none => (enokey.code, d)
      | some _ =>
        if calls.removeFast then
          (0, { d with loopsHt := Function.update d.loopsHt fullPath none })
        else (enokey.code, d)

/-- `try_to_remove_block_device` -/
def tryToRemoveBlockDevice (d : Devices) (bddevt : UInt32) : ℤ × Devices :=
  match d.blkdevsHt bddevt with
  | none => (enokey.code, d)
  | some _ =>
    if calls.removeFast then (0, { d with blkdevsHt := Function.update d.blkdevsHt bddevt none })
    else (enokey.code, d)

/-- `unregister_device` -/
def unregisterDevice (d : Devices) (path : CStr) : ℤ × Devices :=
  doDeviceRegingOperation calls d path (fun lofname _ => tryToRemoveLoopDevice calls d lofname)
    (fun bddevt _ => tryToRemoveBlockDevice calls d bddevt)

/-- `get_device_data_always` -/
def getDeviceDataAlways (d : Devices) : Mountinfo → Option DeviceObject
  | .block bdevt => d.blkdevsHt bdevt
  | .loop loFname => d.loopsHt loFname

/-! ## What an operation returns and changes -/

/-- The name that is given to the operation on loop devices, if that is called. -/
def loopName (path : CStr) : Option CStr :=
  match calls.inodeOf path with
  | .ok (some (.blk rdev)) =>
    if major rdev = loopMajor then (getLoopDeviceBackingFile calls rdev).toOption else none
  | .ok (some .reg) => some path
  | _ => none

/-- A result that is either an error without a change or a success with one. -/
def Settled (d : Devices) (r : ℤ × Devices) : Prop := (r.1 = 0 ∧ r.2 ≠ d) ∨ (r.1 < 0 ∧ r.2 = d)

theorem settled_error (d : Devices) (e : Errno) : Settled d (e.code, d) := .inr ⟨e.code_neg, rfl⟩

theorem loopsHt_update_ne {d : Devices} {key : CStr} {v : Option DeviceObject}
    (h : d.loopsHt key ≠ v) : { d with loopsHt := Function.update d.loopsHt key v } ≠ d := by
  intro he
  have hkey : Function.update d.loopsHt key v key = d.loopsHt key :=
    congrFun (congrArg Devices.loopsHt he) key
  rw [Function.update_self] at hkey
  exact h hkey.symm

theorem blkdevsHt_update_ne {d : Devices} {key : UInt32} {v : Option DeviceObject}
    (h : d.blkdevsHt key ≠ v) : { d with blkdevsHt := Function.update d.blkdevsHt key v } ≠ d := by
  intro he
  have hkey : Function.update d.blkdevsHt key v key = d.blkdevsHt key :=
    congrFun (congrArg Devices.blkdevsHt he) key
  rw [Function.update_self] at hkey
  exact h hkey.symm

/-- The rule for the common code: what holds of every error and of the two operations holds
of the whole. -/
theorem doDeviceRegingOperation_rule {P : ℤ × Devices → Prop} (d : Devices) (path : CStr)
    {opOnLoopdev : CStr → CStr → ℤ × Devices} {opOnBlkdev : UInt32 → CStr → ℤ × Devices}
    (herror : ∀ e : Errno, P (e.code, d))
    (hloop : ∀ name, loopName calls path = some name → P (opOnLoopdev name path))
    (hblk : ∀ rdev, calls.inodeOf path = .ok (some (.blk rdev)) ∧ major rdev ≠ loopMajor →
      P (opOnBlkdev rdev path)) :
    P (doDeviceRegingOperation calls d path opOnLoopdev opOnBlkdev) := by
  unfold doDeviceRegingOperation
  split
  · exact herror _
  · split
    · exact herror _
    · exact herror _
    · rename_i rdev hino
      by_cases hmajor : major rdev = loopMajor
      · rw [if_pos hmajor]
        cases hfile : getLoopDeviceBackingFile calls rdev with
        | error e => exact herror _
        | ok name =>
          refine hloop name ?_
          simp [loopName, hino, hmajor, hfile, Except.toOption]
      · rw [if_neg hmajor]
        exact hblk rdev ⟨hino, hmajor⟩
    · rename_i hino
      exact hloop path (by simp [loopName, hino])
    · exact herror _

theorem settled_tryToInsertLoopDevice (d : Devices) (path name : CStr)
    (h : calls.kzalloc = none ∨ ∃ key, calls.fullPath path = .ok key) :
    Settled d (tryToInsertLoopDevice calls d path name) := by
  unfold tryToInsertLoopDevice
  cases hk : calls.kzalloc with
  | none => exact settled_error d _
  | some addr =>
    obtain ⟨key, hkey⟩ := h.resolve_left (by simp [hk])
    simp only [hkey]
    split
    · exact settled_error d _
    · split
      · exact settled_error d _
      · rename_i hfree
        exact .inl ⟨rfl, loopsHt_update_ne (by simp [hfree])⟩

theorem settled_tryToInsertBlockDevice (d : Devices) (bddevt : UInt32) (name : CStr) :
    Settled d (tryToInsertBlockDevice calls d bddevt name) := by
  unfold tryToInsertBlockDevice
  split
  · exact settled_error d _
  · split
    · exact settled_error d _
    · split
      · exact settled_error d _
      · rename_i hfree
        exact .inl ⟨rfl, blkdevsHt_update_ne (by simp [hfree])⟩

theorem settled_tryToRemoveLoopDevice (d : Devices) (path : CStr) :
    Settled d (tryToRemoveLoopDevice calls d path) := by
  unfold tryToRemoveLoopDevice
  split
  · exact settled_error d _
  · split
    · exact settled_error d _
    · split
      · exact settled_error d _
      · rename_i hfound
        split
        · exact .inl ⟨rfl, loopsHt_update_ne (by simp [hfound])⟩
        · exact settled_error d _

theorem settled_tryToRemoveBlockDevice (d : Devices) (bddevt : UInt32) :
    Settled d (tryToRemoveBlockDevice calls d bddevt) := by
  unfold tryToRemoveBlockDevice
  split
  · exact settled_error d _
  · rename_i hfound
    split
    · exact .inl ⟨rfl, blkdevsHt_update_ne (by simp [hfound])⟩
    · exact settled_error d _

/-- `try_to_insert_loop_device` comes to read the key out of the freed object. -/
structure ReadsFreedKey (d : Devices) (path : CStr) : Prop where
  allowed : d.allowRegingOperation = true
  kzalloc : calls.kzalloc ≠ none
  fullPath : ∃ name e, loopName calls path = some name ∧ calls.fullPath name = .error e

/-- An insertion comes to the allocation of the work queue. -/
structure AllocatesQueue (d : Devices) (path : CStr) : Prop where
  allowed : d.allowRegingOperation = true
  kzalloc : calls.kzalloc ≠ none
  target : (∃ name key, loopName calls path = some name ∧ calls.fullPath name = .ok key) ∨
    ∃ rdev, calls.inodeOf path = .ok (some (.blk rdev)) ∧ major rdev ≠ loopMajor

/-- A new object without a work queue is refused, and its cleanup flushes NULL. The kernel
does not get to return the error then. -/
structure FlushesNullQueue (d : Devices) (path : CStr) : Prop where
  allocates : AllocatesQueue calls d path
  queue : calls.allocOrderedWorkqueue = none
  refused : (registerDevice calls d path).1 ≠ 0

/-- A removal finds its object and takes it out of its table. -/
structure Removes (d : Devices) (path : CStr) : Prop where
  allowed : d.allowRegingOperation = true
  removeFast : calls.removeFast = true
  found : (∃ name key, loopName calls path = some name ∧ calls.kmalloc = true ∧
      calls.fullPath name = .ok key ∧ d.loopsHt key ≠ none) ∨
    ∃ rdev, calls.inodeOf path = .ok (some (.blk rdev)) ∧ major rdev ≠ loopMajor ∧
      d.blkdevsHt rdev ≠ none

theorem unregisterDevice_settled (d : Devices) (path : CStr) :
    Settled d (unregisterDevice calls d path) :=
  doDeviceRegingOperation_rule calls d path (settled_error d)
    (fun name _ => settled_tryToRemoveLoopDevice calls d name)
    fun rdev _ => settled_tryToRemoveBlockDevice calls d rdev

theorem registerDevice_settled (d : Devices) (path : CStr) (h : ¬ ReadsFreedKey calls d path) :
    Settled d (registerDevice calls d path) := by
  by_cases hallow : d.allowRegingOperation = true
  · refine doDeviceRegingOperation_rule calls d path (settled_error d) (fun name hname => ?_)
      fun rdev _ => settled_tryToInsertBlockDevice calls d rdev path
    refine settled_tryToInsertLoopDevice calls d name path ?_
    by_contra hbad
    obtain ⟨hk, hpath⟩ := not_or.mp hbad
    cases hfull : calls.fullPath name with
    | error e => exact h ⟨hallow, hk, name, e, hname, hfull⟩
    | ok key => exact hpath ⟨key, hfull⟩
  · rw [registerDevice, doDeviceRegingOperation, if_pos (by simpa using hallow)]
    exact settled_error d _

theorem doDeviceRegingOperation_of_loopName {d : Devices} {path name : CStr}
    (hallow : d.allowRegingOperation = true) (hname : loopName calls path = some name)
    (opOnLoopdev : CStr → CStr → ℤ × Devices) (opOnBlkdev : UInt32 → CStr → ℤ × Devices) :
    doDeviceRegingOperation calls d path opOnLoopdev opOnBlkdev = opOnLoopdev name path := by
  unfold loopName at hname
  rw [doDeviceRegingOperation, hallow]
  rcases hino : calls.inodeOf path with e | (_ | rdev | _ | _)
  · simp [hino] at hname
  · simp [hino] at hname
  · by_cases hmajor : major rdev = loopMajor
    · cases hfile : getLoopDeviceBackingFile calls rdev with
      | error e => simp [hino, hmajor, hfile, Except.toOption] at hname
      | ok file =>
        obtain rfl : file = name := by simpa [hino, hmajor, hfile, Except.toOption] using hname
        simp [hmajor, hfile]
    · simp [hino, hmajor] at hname
  · obtain rfl : path = name := by simpa [hino] using hname
    rfl
  · simp [hino] at hname

theorem doDeviceRegingOperation_of_blk {d : Devices} {path : CStr} {rdev : UInt32}
    (hallow : d.allowRegingOperation = true) (hino : calls.inodeOf path = .ok (some (.blk rdev)))
    (hmajor : major rdev ≠ loopMajor) (opOnLoopdev : CStr → CStr → ℤ × Devices)
    (opOnBlkdev : UInt32 → CStr → ℤ × Devices) :
    doDeviceRegingOperation calls d path opOnLoopdev opOnBlkdev = opOnBlkdev rdev path := by
  simp [doDeviceRegingOperation, hallow, hino, hmajor]

theorem loopName_of_blk {path : CStr} {rdev : UInt32}
    (hino : calls.inodeOf path = .ok (some (.blk rdev))) (hmajor : major rdev ≠ loopMajor) :
    loopName calls path = none := by
  simp [loopName, hino, hmajor]

/-- Behind the resolution of the key nothing is read out of a freed object. -/
theorem AllocatesQueue.not_readsFreedKey {d : Devices} {path : CStr}
    (h : AllocatesQueue calls d path) : ¬ ReadsFreedKey calls d path := by
  intro hreads
  obtain ⟨name, e, hname, hfull⟩ := hreads.fullPath
  rcases h.target with ⟨name', key, hname', hkey⟩ | ⟨rdev, hino, hmajor⟩
  · obtain rfl := Option.some.inj (hname.symm.trans hname')
    rw [hfull] at hkey
    cases hkey
  · rw [loopName_of_blk calls hino hmajor] at hname
    cases hname

theorem Removes.unregisterDevice_ne {d : Devices} {path : CStr} (h : Removes calls d path) :
    (unregisterDevice calls d path).2 ≠ d := by
  rcases h.found with ⟨name, key, hname, hk, hkey, hold⟩ | ⟨rdev, hino, hmajor, hold⟩
  · obtain ⟨obj, hobj⟩ := Option.ne_none_iff_exists'.mp hold
    rw [unregisterDevice, doDeviceRegingOperation_of_loopName calls h.allowed hname]
    simp only [tryToRemoveLoopDevice, hk, hkey, hobj, h.removeFast, Bool.not_true,
      Bool.false_eq_true, if_false, if_true]
    exact loopsHt_update_ne hold
  · obtain ⟨obj, hobj⟩ := Option.ne_none_iff_exists'.mp hold
    rw [unregisterDevice, doDeviceRegingOperation_of_blk calls h.allowed hino hmajor]
    simp only [tryToRemoveBlockDevice, hobj, h.removeFast, if_true]
    exact blkdevsHt_update_ne hold

theorem registerDevice_readsFreedKey {d : Devices} {path : CStr}
    (h : ReadsFreedKey calls d path) :
    registerDevice calls d path = (intOfLong calls.staleKey, d) := by
  obtain ⟨name, e, hname, hfull⟩ := h.fullPath
  obtain ⟨addr, hk⟩ := Option.ne_none_iff_exists'.mp h.kzalloc
  rw [registerDevice, doDeviceRegingOperation_of_loopName calls h.allowed hname]
  simp [tryToInsertLoopDevice, hk, hfull]

/-- Without memory for the object nothing is registered. -/
theorem registerDevice_kzalloc_none (d : Devices) (path : CStr) (h : calls.kzalloc = none) :
    (registerDevice calls d path).1 < 0 ∧ (registerDevice calls d path).2 = d := by
  refine doDeviceRegingOperation_rule calls (P := fun r => r.1 < 0 ∧ r.2 = d) d path
    (fun e => ⟨e.code_neg, rfl⟩) (fun name _ => ?_) fun rdev _ => ?_
  · simp only [tryToInsertLoopDevice, h, enomem.code_neg, and_self]
  · simp only [tryToInsertBlockDevice, h, enomem.code_neg, and_self]

/-- Without memory for the path no loop device is unregistered. -/
theorem unregisterDevice_kmalloc_false (d : Devices) {path name : CStr}
    (hname : loopName calls path = some name) (h : calls.kmalloc = false) :
    (unregisterDevice calls d path).1 < 0 ∧ (unregisterDevice calls d path).2 = d := by
  refine doDeviceRegingOperation_rule calls (P := fun r => r.1 < 0 ∧ r.2 = d) d path
    (fun e => ⟨e.code_neg, rfl⟩) (fun name _ => ?_) fun rdev hrdev => ?_
  · simp only [tryToRemoveLoopDevice, h, Bool.not_false, if_true, enomem.code_neg, and_self]
  · rw [loopName_of_blk calls hrdev.1 hrdev.2] at hname
    cases hname

end BlkdevSnapshot

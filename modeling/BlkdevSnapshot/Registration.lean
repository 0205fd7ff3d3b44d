import BlkdevSnapshot.DeviceRegistry
import BlkdevSnapshot.ResourceLedger

/-!
# The resources of a registration

`register_device` with every step that it takes on a path, an inode, the backing file, the
new object and its work queue. The allocation of the work queue may fail too, and
nothing tests it; an operation on a missing work queue is a misuse.
-/
namespace BlkdevSnapshot
open ResourceLedger

/-- What a registration acquires and releases. -/
inductive RegResource where
  | path
  | inode
  | backingFile
  | object (addr : ℕ)
  | wq (addr : ℕ)
  deriving DecidableEq

/-- A device object with its work queue, which may be NULL. -/
structure RegObject extends DeviceObject where
  wq : Option ℕ

/-- The hash tables of devices with work queues. -/
structure RegTables where
  allowRegingOperation : Bool
  blkdevsHt : UInt32 → Option RegObject
  loopsHt : CStr → Option RegObject

/-- What the kernel calls of a registration return, and whether an error of
`get_full_path` comes from `d_path`. -/
structure RegCalls extends RegingCalls where
  dPathFails : Bool

/-- The return value, the tables afterwards and the steps taken. -/
structure RegResult where
  ret : ℤ
  tables : RegTables
  steps : List (Event RegResource)

/-- The tables without the work queues. -/
def RegTables.forget (d : RegTables) : Devices where
  allowRegingOperation := d.allowRegingOperation
  blkdevsHt key := (d.blkdevsHt key).map RegObject.toDeviceObject
  loopsHt key := (d.loopsHt key).map RegObject.toDeviceObject

def RegTables.insertLoop (d : RegTables) (key : CStr) (obj : RegObject) : RegTables :=
  { d with loopsHt := Function.update d.loopsHt key (some obj) }

def RegTables.insertBlock (d : RegTables) (key : UInt32) (obj : RegObject) : RegTables :=
  { d with blkdevsHt := Function.update d.blkdevsHt key (some obj) }

namespace RegCalls
variable (calls : RegCalls)

/-- The object that an insertion makes. -/
def newObject (addr : ℕ) (originalDevName : CStr) : RegObject :=
  ⟨⟨addr, initObjectData originalDevName⟩, calls.allocOrderedWorkqueue⟩

/-- The steps of `get_full_path`. -/
def fullPathSteps (path : CStr) : List (Event RegResource) :=
  match calls.fullPath path with
  | .error _ => if calls.dPathFails then [.acquire .path, .use .path, .release .path] else []
  | .ok _ => [.acquire .path, .use .path, .release .path]

/-- The steps of `get_inode_from_cstr_path`, which grabs the inode. -/
def inodeSteps (path : CStr) : List (Event RegResource) :=
  match calls.inodeOf path with
  | .error _ => []
  | .ok none => [.acquire .path, .use .path, .release .path]
  | .ok (some _) => [.acquire .path, .use .path, .acquire .inode, .release .path]

/-- The steps of `get_loop_device_backing_file`. -/
def backingFileSteps (bddevt : UInt32) : List (Event RegResource) :=
  match calls.loBackingFile bddevt with
  | .error _ => []
  | .ok _ => [.acquire .backingFile, .use .backingFile, .release .backingFile]

/-- The steps of `__init_object_data`. -/
def initObjectDataSteps (addr : ℕ) : List (Event RegResource) :=
  .use (.object addr) :: match calls.allocOrderedWorkqueue with
    | none => []
    | some wq => [.acquire (.wq wq)]

/-- The steps of `cleanup_object_data_notvisible`: the work queue is flushed and destroyed,
and there is no epoch. -/
def cleanupNotvisibleSteps (addr : ℕ) : List (Event RegResource) :=
  .use (.object addr) :: match calls.allocOrderedWorkqueue with
    | none => [.misuse, .misuse, .use (.object addr)]
    | some wq => [.use (.wq wq), .release (.wq wq), .use (.object addr)]

/-- The steps from a new object to its insertion. -/
def insertSteps (addr : ℕ) : List (Event RegResource) :=
  calls.initObjectDataSteps addr ++ [.use (.object addr)]

/-- The steps from a refused insertion to the end. -/
def refusedSteps (addr : ℕ) : List (Event RegResource) :=
  calls.cleanupNotvisibleSteps addr ++ [.release (.object addr)]

/-- `try_to_insert_loop_device` -/
def tryToInsertLoopDevice (d : RegTables) (path originalDevName : CStr) : RegResult :=
  match calls.kzalloc with
  | none => ⟨enomem.code, d, []⟩
  | some addr =>
    let keyed := .acquire (.object addr) :: calls.fullPathSteps path ++ [.use (.object addr)]
    match calls.fullPath path with
    | .error _ =>
      ⟨intOfLong calls.staleKey, d, keyed ++ [.release (.object addr), .use (.object addr)]⟩
    | .ok key =>
      let tried := keyed ++ calls.insertSteps addr
      match calls.insert with
      | .error _ => ⟨efault.code, d, tried ++ calls.refusedSteps addr⟩
      | .ok () =>
        match d.loopsHt key with
        | some _ => ⟨eexist.code, d, tried ++ calls.refusedSteps addr⟩
        | none => ⟨0, d.insertLoop key (calls.newObject addr originalDevName), tried⟩

/-- `try_to_insert_block_device` -/
def tryToInsertBlockDevice (d : RegTables) (bddevt : UInt32) (originalDevName : CStr) :
    RegResult :=
  match calls.kzalloc with
  | none => ⟨enomem.code, d, []⟩
  | some addr =>
    let tried := [.acquire (.object addr), .use (.object addr)] ++ calls.insertSteps addr
    match calls.insert with
    | .error _ => ⟨efault.code, d, tried ++ calls.refusedSteps addr⟩
    | .ok () =>
      match d.blkdevsHt bddevt with
      | some _ => ⟨eexist.code, d, tried ++ calls.refusedSteps addr⟩
      | none => ⟨0, d.insertBlock bddevt (calls.newObject addr originalDevName), tried⟩

/-- Put steps in front of and behind an operation. -/
def around (before after : List (Event RegResource)) (r : RegResult) : RegResult :=
  { r with steps := before ++ r.steps ++ after }

/-- `register_device`, that is `__do_device_reging_operation` on the two insertions. -/
def registerDevice (d : RegTables) (path : CStr) : RegResult :=
  if !d.allowRegingOperation then ⟨ebusy.code, d, []⟩
  else
    match calls.inodeOf path with
    | .error e => ⟨e.code, d, calls.inodeSteps path⟩
    | .ok none => ⟨enfile.code, d, calls.inodeSteps path⟩
    | .ok (some ino) => around (calls.inodeSteps path ++ [.use .inode]) [.release .inode]
      (match ino with
      | .blk rdev =>
        if major rdev = loopMajor then
          around (calls.backingFileSteps rdev) []
            (match getLoopDeviceBackingFile calls.toRegingCalls rdev with
            | .error e => ⟨e.code, d, []⟩
            | .ok loopBackingPath => calls.tryToInsertLoopDevice d loopBackingPath path)
        else calls.tryToInsertBlockDevice d rdev path
      | .reg => calls.tryToInsertLoopDevice d path path
      | .other => ⟨einval.code, d, []⟩)

end RegCalls

/-- An object that works can be queued for: it has a work queue, and no epoch yet. -/
structure RegObject.Usable (obj : RegObject) : Prop where
  wq : obj.wq.isSome
  e : obj.value.e = none
  wqIsDestroyed : obj.value.wqIsDestroyed = false

/-- The tables gained an object for the key that the path resolves to. -/
inductive Gained (calls : RegCalls) (d : RegTables) (path : CStr) (obj : RegObject) :
    RegTables → Prop where
  | loop (name key : CStr) (hname : loopName calls.toRegingCalls path = some name)
      (hkey : calls.fullPath name = .ok key) (hfree : d.loopsHt key = none) :
      Gained calls d path obj (d.insertLoop key obj)
  | block (rdev : UInt32) (hino : calls.inodeOf path = .ok (some (.blk rdev)))
      (hmajor : major rdev ≠ loopMajor) (hfree : d.blkdevsHt rdev = none) :
      Gained calls d path obj (d.insertBlock rdev obj)

/-- A success gains one usable object and holds it with its work queue; a failure changes
nothing and holds nothing. -/
inductive Outcome (calls : RegCalls) (d : RegTables) (path : CStr) (r : RegResult)
    (held : Multiset RegResource) : Prop where
  | success (obj : RegObject) (wq : ℕ) (hret : r.ret = 0) (husable : obj.Usable)
      (hwq : obj.wq = some wq) (hgained : Gained calls d path obj r.tables)
      (hheld : held = {.object obj.addr, .wq wq})
  | failure (hret : r.ret ≠ 0) (htables : r.tables = d) (hheld : held = 0)

/-- The registration is all or nothing, and its steps are right. -/
def RegistersAllOrNothing (calls : RegCalls) (d : RegTables) (path : CStr) : Prop :=
  ∃ held, Runs 0 (calls.registerDevice d path).steps held ∧
    Outcome calls d path (calls.registerDevice d path) held

/-- Behind the allocation of an object the key resolves and the work queue is allocated. -/
def Provides (calls : RegCalls) (d : RegTables) (path : CStr) : Prop :=
  d.allowRegingOperation = true → calls.kzalloc.isSome →
    (∀ name, loopName calls.toRegingCalls path = some name →
      calls.allocOrderedWorkqueue.isSome ∧ ∃ key, calls.fullPath name = .ok key) ∧
    ∀ rdev, calls.inodeOf path = .ok (some (.blk rdev)) → major rdev ≠ loopMajor →
      calls.allocOrderedWorkqueue.isSome

section Forget
variable (calls : RegCalls) (d : RegTables)

/-- A result without the work queues and the steps. -/
def RegResult.forget (r : RegResult) : ℤ × Devices := (r.ret, r.tables.forget)

theorem RegTables.forget_insertLoop (key : CStr) (obj : RegObject) :
    (d.insertLoop key obj).forget = { d.forget with
      loopsHt := Function.update d.forget.loopsHt key (some obj.toDeviceObject) } := by
  have hupdate := Function.comp_update (Option.map RegObject.toDeviceObject) d.loopsHt key
    (some obj)
  simp only [forget, insertLoop, Devices.mk.injEq, true_and]
  exact hupdate

theorem RegTables.forget_insertBlock (key : UInt32) (obj : RegObject) :
    (d.insertBlock key obj).forget = { d.forget with
      blkdevsHt := Function.update d.forget.blkdevsHt key (some obj.toDeviceObject) } := by
  have hupdate := Function.comp_update (Option.map RegObject.toDeviceObject) d.blkdevsHt key
    (some obj)
  simp only [forget, insertBlock, Devices.mk.injEq, true_and, and_true]
  exact hupdate

theorem tryToInsertLoopDevice_forget (name path : CStr) :
    (calls.tryToInsertLoopDevice d name path).forget =
      tryToInsertLoopDevice calls.toRegingCalls d.forget name path := by
  unfold RegCalls.tryToInsertLoopDevice tryToInsertLoopDevice
  cases calls.kzalloc with
  | none => rfl
  | some addr =>
    cases calls.fullPath name with
    | error e => rfl
    | ok key =>
      cases calls.insert with
      | error e => rfl
      | ok u =>
        have hkey : d.forget.loopsHt key = (d.loopsHt key).map RegObject.toDeviceObject := rfl
        simp only [hkey]
        cases d.loopsHt key with
        | some old => rfl
        | none => simp only [RegResult.forget, RegTables.forget_insertLoop]; rfl

theorem tryToInsertBlockDevice_forget (rdev : UInt32) (path : CStr) :
    (calls.tryToInsertBlockDevice d rdev path).forget =
      tryToInsertBlockDevice calls.toRegingCalls d.forget rdev path := by
  unfold RegCalls.tryToInsertBlockDevice tryToInsertBlockDevice
  cases calls.kzalloc with
  | none => rfl
  | some addr =>
    cases calls.insert with
    | error e => rfl
    | ok u =>
      have hkey : d.forget.blkdevsHt rdev = (d.blkdevsHt rdev).map RegObject.toDeviceObject := rfl
      simp only [hkey]
      cases d.blkdevsHt rdev with
      | some old => rfl
      | none => simp only [RegResult.forget, RegTables.forget_insertBlock]; rfl

/-- Without the work queues and the steps this is the registration of the registry. -/
theorem registerDevice_forget (path : CStr) :
    (calls.registerDevice d path).forget =
      registerDevice calls.toRegingCalls d.forget path := by
  unfold RegCalls.registerDevice registerDevice doDeviceRegingOperation
  have hallow : d.forget.allowRegingOperation = d.allowRegingOperation := rfl
  rw [hallow]
  cases d.allowRegingOperation with
  | false => rfl
  | true =>
    rcases hino : calls.inodeOf path with e | (_ | rdev | _ | _)
    · rfl
    · rfl
    · by_cases hmajor : major rdev = loopMajor
      · simp only [Bool.not_true, Bool.false_eq_true, if_false, hmajor, if_true]
        cases getLoopDeviceBackingFile calls.toRegingCalls rdev with
        | error e => rfl
        | ok name => exact tryToInsertLoopDevice_forget calls d name path
      · simp only [Bool.not_true, Bool.false_eq_true, if_false, hmajor]
        exact tryToInsertBlockDevice_forget calls d rdev path
    · exact tryToInsertLoopDevice_forget calls d path path
    · rfl

end Forget

section Settles
variable (calls : RegCalls) (d : RegTables) (path : CStr)

/-- The steps are right and leave one of the two outcomes. -/
def Settles (r : RegResult) : Prop := ∃ held, Runs 0 r.steps held ∧ Outcome calls d path r held

variable {calls d path}
variable {before after : List (Event RegResource)} {frame : Multiset RegResource}

theorem Outcome.around {r : RegResult} {held : Multiset RegResource}
    (h : Outcome calls d path r held) :
    Outcome calls d path (RegCalls.around before after r) held := by
  cases h with
  | success obj wq hret husable hwq hgained hheld =>
    exact .success obj wq hret husable hwq hgained hheld
  | failure hret htables hheld => exact .failure hret htables hheld

/-- What surrounds an operation and gives everything back keeps its outcome. -/
theorem Settles.around {r : RegResult} (h : Settles calls d path r)
    (hbefore : Runs 0 before frame) (hafter : Runs frame after 0) :
    Settles calls d path (RegCalls.around before after r) := by
  obtain ⟨held, hrun, hout⟩ := h
  have hmid : Runs frame r.steps (held + frame) := by
    have := hrun.frame frame
    rwa [zero_add] at this
  have hend : Runs (held + frame) after held := by
    have := hafter.frame held
    rwa [zero_add, add_comm] at this
  exact ⟨held, (hbefore.append hmid).append hend, hout.around⟩

/-- An operation that goes wrong goes wrong in any surroundings. -/
theorem not_settles_around {r : RegResult} (hbefore : Runs 0 before frame)
    (h : replay frame r.steps = none) :
    ¬ Settles calls d path (RegCalls.around before after r) := by
  rintro ⟨held, hrun, -⟩
  have hwrong : replay 0 (before ++ r.steps) = none := by
    rw [replay_append, hbefore, Option.bind_some, h]
  exact not_runs_append hwrong hrun

/-- Whatever the tables gained is the object. -/
theorem Gained.eq_of_loop {obj o : RegObject} {d' : RegTables} {key : CStr}
    (h : Gained calls d path obj d') (hnew : d'.loopsHt key = some o)
    (hold : d.loopsHt key = none) : o = obj := by
  cases h with
  | loop name key' hname hkey hfree =>
    rcases eq_or_ne key key' with rfl | hne
    · simpa [RegTables.insertLoop] using hnew.symm
    · simp [RegTables.insertLoop, hne, hold] at hnew
  | block rdev hino hmajor hfree => simp [RegTables.insertBlock, hold] at hnew

theorem Gained.eq_of_block {obj o : RegObject} {d' : RegTables} {key : UInt32}
    (h : Gained calls d path obj d') (hnew : d'.blkdevsHt key = some o)
    (hold : d.blkdevsHt key = none) : o = obj := by
  cases h with
  | loop name key' hname hkey hfree => simp [RegTables.insertLoop, hold] at hnew
  | block rdev hino hmajor hfree =>
    rcases eq_or_ne key rdev with rfl | hne
    · simpa [RegTables.insertBlock] using hnew.symm
    · simp [RegTables.insertBlock, hne, hold] at hnew

/-- Once the object is freed its key cannot be read. -/
theorem replay_error_key {name : CStr} {addr : ℕ} {e : Errno}
    (hkey : calls.fullPath name = .error e) (hfresh : .object addr ∉ frame) :
    replay frame ((.acquire (.object addr) :: calls.fullPathSteps name ++ [.use (.object addr)]) ++
      [.release (.object addr), .use (.object addr)]) = none := by
  unfold RegCalls.fullPathSteps
  cases calls.dPathFails <;> simp [hkey, replay, replayEvent, hfresh]

theorem runs_fullPathSteps {name : CStr} : Runs frame (calls.fullPathSteps name) frame := by
  unfold RegCalls.fullPathSteps
  cases calls.fullPath name <;> cases calls.dPathFails <;> simp [Runs, replay, replayEvent]

variable (calls) in
theorem runs_keyed (name : CStr) (addr : ℕ) (frame : Multiset RegResource) :
    Runs frame (.acquire (.object addr) :: calls.fullPathSteps name ++ [.use (.object addr)])
      (.object addr ::ₘ frame) :=
  ((runs_acquire frame _).append runs_fullPathSteps).append (runs_use (Multiset.mem_cons_self _ _))

theorem runs_insertSteps {wq : ℕ} (hwq : calls.allocOrderedWorkqueue = some wq) (addr : ℕ)
    (frame : Multiset RegResource) :
    Runs (.object addr ::ₘ frame) (calls.insertSteps addr)
      (.wq wq ::ₘ .object addr ::ₘ frame) := by
  simp [RegCalls.insertSteps, RegCalls.initObjectDataSteps, hwq, Runs, replay, replayEvent]

theorem runs_refusedSteps {wq : ℕ} (hwq : calls.allocOrderedWorkqueue = some wq) (addr : ℕ)
    (frame : Multiset RegResource) :
    Runs (.wq wq ::ₘ .object addr ::ₘ frame) (calls.refusedSteps addr) frame := by
  simp [RegCalls.refusedSteps, RegCalls.cleanupNotvisibleSteps, hwq, Runs, replay, replayEvent]

/-- Without a work queue a refused object cannot be cleaned up. -/
theorem replay_refusedSteps (hwq : calls.allocOrderedWorkqueue = none) (addr : ℕ)
    {tried : List (Event RegResource)} :
    replay frame (tried ++ calls.refusedSteps addr) = none := by
  have hrefused (held : Multiset RegResource) : replay held (calls.refusedSteps addr) = none := by
    simp [RegCalls.refusedSteps, RegCalls.cleanupNotvisibleSteps, hwq, replay, replayEvent]
  simp only [replay_append, hrefused, Option.bind_fun_none]

/-- A new object with a work queue works. -/
theorem newObject_usable {wq : ℕ} (hwq : calls.allocOrderedWorkqueue = some wq) (addr : ℕ) :
    (calls.newObject addr path).Usable where
  wq := by rw [RegCalls.newObject, hwq]; rfl
  e := rfl
  wqIsDestroyed := rfl

/-- What is refused after the insertion was tried leaves nothing. -/
theorem settles_refused {wq addr : ℕ} {ret : ℤ} {tried : List (Event RegResource)}
    (hwq : calls.allocOrderedWorkqueue = some wq) (hret : ret ≠ 0)
    (htried : Runs 0 tried {.wq wq, .object addr}) :
    Settles calls d path ⟨ret, d, tried ++ calls.refusedSteps addr⟩ :=
  ⟨0, htried.append (runs_refusedSteps hwq addr 0), .failure hret rfl rfl⟩

/-- What is inserted holds the object and its work queue. -/
theorem settles_inserted {wq addr : ℕ} {d' : RegTables} {tried : List (Event RegResource)}
    (hwq : calls.allocOrderedWorkqueue = some wq)
    (hgained : Gained calls d path (calls.newObject addr path) d')
    (htried : Runs 0 tried {.wq wq, .object addr}) : Settles calls d path ⟨0, d', tried⟩ :=
  ⟨_, htried, .success _ wq rfl (newObject_usable hwq addr) hwq hgained
    (Multiset.pair_comm _ _)⟩

/-- An object without a work queue is not one that the tables should have gained. -/
theorem not_settles_without_wq {addr : ℕ} {d' : RegTables} {steps : List (Event RegResource)}
    (hwq : calls.allocOrderedWorkqueue = none)
    (hgained : ∀ obj, Gained calls d path obj d' → calls.newObject addr path = obj) :
    ¬ Settles calls d path ⟨0, d', steps⟩ := by
  rintro ⟨held, -, hout⟩
  cases hout with
  | success obj wq hret husable hobj hnew hheld =>
    rw [← hgained obj hnew, RegCalls.newObject, hwq] at hobj
    cases hobj
  | failure hret htables hheld => exact hret rfl

section Insert
variable {addr : ℕ} {name key : CStr} {rdev : UInt32}

theorem insertLoop_settles_of_kzalloc (h : calls.kzalloc = none) :
    Settles calls d path (calls.tryToInsertLoopDevice d name path) := by
  rw [RegCalls.tryToInsertLoopDevice, h]
  exact ⟨0, runs_nil, .failure enomem.code_neg.ne rfl rfl⟩

theorem insertBlock_settles_of_kzalloc (h : calls.kzalloc = none) :
    Settles calls d path (calls.tryToInsertBlockDevice d rdev path) := by
  rw [RegCalls.tryToInsertBlockDevice, h]
  exact ⟨0, runs_nil, .failure enomem.code_neg.ne rfl rfl⟩

theorem insertLoop_settles {wq : ℕ} (hname : loopName calls.toRegingCalls path = some name)
    (hkey : calls.fullPath name = .ok key) (hwq : calls.allocOrderedWorkqueue = some wq) :
    Settles calls d path (calls.tryToInsertLoopDevice d name path) := by
  cases halloc : calls.kzalloc with
  | none => exact insertLoop_settles_of_kzalloc halloc
  | some addr =>
    have htried := (runs_keyed calls name addr 0).append (runs_insertSteps hwq addr 0)
    simp only [RegCalls.tryToInsertLoopDevice, halloc, hkey]
    cases calls.insert with
    | error e => exact settles_refused hwq efault.code_neg.ne htried
    | ok u =>
      cases hold : d.loopsHt key with
      | some old => exact settles_refused hwq eexist.code_neg.ne htried
      | none => exact settles_inserted hwq (.loop name key hname hkey hold) htried

theorem insertBlock_settles {wq : ℕ} (hino : calls.inodeOf path = .ok (some (.blk rdev)))
    (hmajor : major rdev ≠ loopMajor) (hwq : calls.allocOrderedWorkqueue = some wq) :
    Settles calls d path (calls.tryToInsertBlockDevice d rdev path) := by
  cases halloc : calls.kzalloc with
  | none => exact insertBlock_settles_of_kzalloc halloc
  | some addr =>
    have htried := ((runs_acquire 0 (RegResource.object addr)).append
      (runs_use (Multiset.mem_cons_self _ _))).append (runs_insertSteps hwq addr 0)
    simp only [RegCalls.tryToInsertBlockDevice, halloc]
    cases calls.insert with
    | error e => exact settles_refused hwq efault.code_neg.ne htried
    | ok u =>
      cases hold : d.blkdevsHt rdev with
      | some old => exact settles_refused hwq eexist.code_neg.ne htried
      | none => exact settles_inserted hwq (.block rdev hino hmajor hold) htried

/-- An insertion of a loop device settles exactly where its key resolves and its work
queue is allocated. -/
theorem insertLoop_settles_iff (hname : loopName calls.toRegingCalls path = some name)
    (hbefore : Runs 0 before frame) (hafter : Runs frame after 0)
    (hfresh : ∀ addr, .object addr ∉ frame) :
    Settles calls d path
        (RegCalls.around before after (calls.tryToInsertLoopDevice d name path)) ↔
      (calls.kzalloc.isSome →
        calls.allocOrderedWorkqueue.isSome ∧ ∃ key, calls.fullPath name = .ok key) := by
  cases halloc : calls.kzalloc with
  | none =>
    exact iff_of_true ((insertLoop_settles_of_kzalloc halloc).around hbefore hafter) fun h => by
      cases h
  | some addr =>
    simp only [Option.isSome_some, true_imp_iff]
    cases hkey : calls.fullPath name with
    | error e =>
      have hwrong : ¬ Settles calls d path
          (RegCalls.around before after (calls.tryToInsertLoopDevice d name path)) := by
        simp only [RegCalls.tryToInsertLoopDevice, halloc, hkey]
        exact not_settles_around hbefore (replay_error_key hkey (hfresh addr))
      refine iff_of_false hwrong ?_
      rintro ⟨-, key, h⟩
      cases h
    | ok key =>
      cases hwq : calls.allocOrderedWorkqueue with
      | some wq =>
        exact iff_of_true ((insertLoop_settles hname hkey hwq).around hbefore hafter)
          ⟨rfl, key, rfl⟩
      | none =>
        refine iff_of_false ?_ (by rintro ⟨h, -⟩; cases h)
        simp only [RegCalls.tryToInsertLoopDevice, halloc, hkey]
        cases calls.insert with
        | error e => exact not_settles_around hbefore (replay_refusedSteps hwq addr)
        | ok u =>
          cases hold : d.loopsHt key with
          | some old => exact not_settles_around hbefore (replay_refusedSteps hwq addr)
          | none =>
            exact not_settles_without_wq hwq fun obj h =>
              h.eq_of_loop (Function.update_self ..) hold

/-- An insertion of a block device settles exactly where its work queue is allocated. -/
theorem insertBlock_settles_iff (hino : calls.inodeOf path = .ok (some (.blk rdev)))
    (hmajor : major rdev ≠ loopMajor) (hbefore : Runs 0 before frame)
    (hafter : Runs frame after 0) :
    Settles calls d path
        (RegCalls.around before after (calls.tryToInsertBlockDevice d rdev path)) ↔
      (calls.kzalloc.isSome → calls.allocOrderedWorkqueue.isSome) := by
  cases halloc : calls.kzalloc with
  | none =>
    exact iff_of_true ((insertBlock_settles_of_kzalloc halloc).around hbefore hafter) fun h => by
      cases h
  | some addr =>
    simp only [Option.isSome_some, true_imp_iff]
    cases hwq : calls.allocOrderedWorkqueue with
    | some wq =>
      exact iff_of_true ((insertBlock_settles hino hmajor hwq).around hbefore hafter) rfl
    | none =>
      refine iff_of_false ?_ (by intro h; cases h)
      simp only [RegCalls.tryToInsertBlockDevice, halloc]
      cases calls.insert with
      | error e => exact not_settles_around hbefore (replay_refusedSteps hwq addr)
      | ok u =>
        cases hold : d.blkdevsHt rdev with
        | some old => exact not_settles_around hbefore (replay_refusedSteps hwq addr)
        | none =>
          exact not_settles_without_wq hwq fun obj h =>
            h.eq_of_block (Function.update_self ..) hold

end Insert

section Register
variable (calls d path)

theorem around_around (before after before' after' : List (Event RegResource)) (r : RegResult) :
    RegCalls.around before after (RegCalls.around before' after' r) =
      RegCalls.around (before ++ before') (after' ++ after) r := by
  simp only [RegCalls.around, List.append_assoc]

theorem settles_error (e : Errno) : Settles calls d path ⟨e.code, d, []⟩ :=
  ⟨0, runs_nil, .failure e.code_neg.ne rfl rfl⟩

variable {calls d path}

/-- The steps on the path and the inode before an insertion hold the inode only. -/
theorem runs_inodeSteps {ino : Inode} (hino : calls.inodeOf path = .ok (some ino)) :
    Runs 0 (calls.inodeSteps path ++ [.use .inode]) {.inode} := by
  simp only [RegCalls.inodeSteps, hino]
  decide

theorem runs_path : Runs (0 : Multiset RegResource)
    [.acquire .path, .use .path, .release .path] 0 := by
  decide

/-- Without an inode to grab nothing is held and nothing is inserted. -/
theorem allOrNothing_of_no_inode (hino : ∀ ino, calls.inodeOf path ≠ .ok (some ino)) :
    RegistersAllOrNothing calls d path := by
  unfold RegistersAllOrNothing RegCalls.registerDevice RegCalls.inodeSteps
  cases d.allowRegingOperation with
  | false => exact settles_error calls d path ebusy
  | true =>
    rcases h : calls.inodeOf path with e | (_ | ino)
    · exact settles_error calls d path e
    · exact ⟨0, runs_path, .failure enfile.code_neg.ne rfl rfl⟩
    · exact absurd h (hino ino)

variable (calls) in
theorem runs_backingFileSteps (rdev : UInt32) :
    Runs {.inode} (calls.backingFileSteps rdev) {.inode} := by
  unfold RegCalls.backingFileSteps
  cases calls.loBackingFile rdev <;> simp [Runs, replay, replayEvent]

theorem object_notMem_inode (addr : ℕ) :
    RegResource.object addr ∉ ({.inode} : Multiset RegResource) := by
  simp

/-- A registration that comes down to the insertion of a loop device. -/
theorem allOrNothing_iff_of_loop {name : CStr} (hallow : d.allowRegingOperation = true)
    (hname : loopName calls.toRegingCalls path = some name)
    (hblk : ∀ rdev, calls.inodeOf path = .ok (some (.blk rdev)) → major rdev = loopMajor)
    (hreg : calls.registerDevice d path =
      RegCalls.around before [.release .inode] (calls.tryToInsertLoopDevice d name path))
    (hbefore : Runs 0 before {.inode}) :
    RegistersAllOrNothing calls d path ↔ Provides calls d path := by
  have hsettles := insertLoop_settles_iff (d := d) hname hbefore (runs_release 0 _)
    object_notMem_inode
  rw [← hreg] at hsettles
  refine hsettles.trans ⟨fun h _ halloc => ⟨?_, ?_⟩, fun h halloc => ?_⟩
  · intro name' hname'
    cases hname.symm.trans hname'
    exact h halloc
  · exact fun rdev hino hmajor => absurd (hblk rdev hino) hmajor
  · exact (h hallow halloc).1 name hname

/-- A registration is all or nothing exactly where, once the object is allocated, the key
resolves and the work queue is allocated. -/
theorem registerDevice_allOrNothing_iff (calls : RegCalls) (d : RegTables) (path : CStr) :
    RegistersAllOrNothing calls d path ↔ Provides calls d path := by
  have hrelease := runs_release (0 : Multiset RegResource) .inode
  by_cases hallow : d.allowRegingOperation = true
  swap
  · refine iff_of_true ?_ fun h => absurd h hallow
    rw [RegistersAllOrNothing, RegCalls.registerDevice, if_pos (by simp [hallow])]
    exact settles_error calls d path ebusy
  rcases hino : calls.inodeOf path with e | (_ | rdev | _ | _)
  · refine iff_of_true (allOrNothing_of_no_inode ?_) ?_
    · simp [hino]
    · simp [Provides, loopName, hino]
  · refine iff_of_true (allOrNothing_of_no_inode ?_) ?_
    · simp [hino]
    · simp [Provides, loopName, hino]
  · have hbefore := runs_inodeSteps hino
    by_cases hmajor : major rdev = loopMajor
    · have hfile := hbefore.append (runs_backingFileSteps calls rdev)
      have hreg : calls.registerDevice d path = RegCalls.around
          (calls.inodeSteps path ++ [.use .inode] ++ calls.backingFileSteps rdev)
          [.release .inode]
          (match getLoopDeviceBackingFile calls.toRegingCalls rdev with
          | .error e => ⟨e.code, d, []⟩
          | .ok name => calls.tryToInsertLoopDevice d name path) := by
        simp only [RegCalls.registerDevice, hallow, hino, hmajor, Bool.not_true,
          Bool.false_eq_true, if_false, if_true, around_around, List.nil_append]
      cases hname : getLoopDeviceBackingFile calls.toRegingCalls rdev with
      | error e =>
        rw [hname] at hreg
        refine iff_of_true ?_ ?_
        · rw [RegistersAllOrNothing, hreg]
          exact (settles_error calls d path e).around hfile hrelease
        · simp [Provides, loopName, hino, hmajor, hname, Except.toOption]
      | ok name =>
        rw [hname] at hreg
        refine allOrNothing_iff_of_loop hallow ?_ ?_ hreg hfile
        · simp [loopName, hino, hmajor, hname, Except.toOption]
        · rintro rdev' h
          cases hino.symm.trans h
          exact hmajor
    · have hreg : calls.registerDevice d path = RegCalls.around
          (calls.inodeSteps path ++ [.use .inode]) [.release .inode]
          (calls.tryToInsertBlockDevice d rdev path) := by
        simp only [RegCalls.registerDevice, hallow, hino, hmajor, Bool.not_true,
          Bool.false_eq_true, if_false]
      have hsettles := insertBlock_settles_iff (d := d) hino hmajor hbefore hrelease
      rw [← hreg] at hsettles
      refine hsettles.trans ⟨fun h _ halloc => ⟨?_, ?_⟩, fun h halloc => ?_⟩
      · simp [loopName, hino, hmajor]
      · exact fun _ _ _ => h halloc
      · exact (h hallow halloc).2 rdev hino hmajor
  · have hname : loopName calls.toRegingCalls path = some path := by
      simp [loopName, hino]
    refine allOrNothing_iff_of_loop hallow hname ?_ ?_ (runs_inodeSteps hino)
    · simp [hino]
    · simp only [RegCalls.registerDevice, hallow, hino, Bool.not_true, Bool.false_eq_true,
        if_false]
  · refine iff_of_true ?_ ?_
    · simp only [RegistersAllOrNothing, RegCalls.registerDevice, hallow, hino, Bool.not_true,
        Bool.false_eq_true, if_false]
      exact (settles_error calls d path einval).around (runs_inodeSteps hino) hrelease
    · simp [Provides, loopName, hino]

end Register
end Settles

/-- Every call succeeds, but no work queue can be allocated. -/
def wqlessCalls : RegCalls where
  inodeOf _ := .ok (some (.blk 8))
  fullPath name := .ok name
  loBackingFile _ := .error einval
  kzalloc := some 1
  allocOrderedWorkqueue := none
  insert := .ok ()
  kmalloc := true
  removeFast := true
  wlistnode := true
  wargs := true
  staleKey := 0
  dPathFails := false

/-- No device is registered and registrations are allowed. -/
def emptyTables : RegTables where
  allowRegingOperation := true
  blkdevsHt _ := none
  loopsHt _ := none

/-- Without memory for its work queue a device is registered and stays unusable: the call
returns 0, and the object that it leaves in the table has no queue. -/
theorem not_registerDevice_allOrNothing :
    let r := wqlessCalls.registerDevice emptyTables []
    r.ret = 0 ∧ r.tables.blkdevsHt 8 = some (wqlessCalls.newObject 1 []) ∧
      (wqlessCalls.newObject 1 []).wq = none ∧
      ¬ RegistersAllOrNothing wqlessCalls emptyTables [] := by
  have hnew : (wqlessCalls.registerDevice emptyTables []).tables.blkdevsHt 8 =
      some (wqlessCalls.newObject 1 []) := rfl
  refine ⟨rfl, hnew, rfl, ?_⟩
  rintro ⟨held, -, hout⟩
  cases hout with
  | success obj wq hret husable hwq hgained hheld =>
    have hobj := hgained.eq_of_block hnew rfl
    rw [← hobj] at hwq
    cases hwq
  | failure hret htables hheld => exact hret rfl

end BlkdevSnapshot

import BlkdevSnapshot.CaptureTable
import BlkdevSnapshot.MountProbes
import BlkdevSnapshot.QueueClosing

/-!
# The loaded module and its exit

Tracked writes of threads, the periodic sweep, the objects of all devices with their
queues, activations, deactivations, mount and umount events and the thread that runs
`exit_blkdev_snapshot_module`, interleaved. A callback that was given to `call_rcu` runs
at any later time; the removal of probes stops new handlers and waits for running ones.
-/
namespace BlkdevSnapshot

namespace HandlerPc

/-- In a handler of the kretprobes of `vfs_write` and `__bread_gfp`. -/
def inKretprobe : HandlerPc → Bool
  | memcpy _ _ | vfsWrite _ => true
  | _ => false

/-- In the handler of the kprobe of `write_dirty_buffer`. -/
def inKprobe : HandlerPc → Bool
  | makeSnapshot _ _ _ | bug _ => true
  | _ => false

end HandlerPc

namespace CleanupPc

/-- In front of the allocations for the deferred work. -/
def allocates : CleanupPc → Bool
  | scheduleWork _ => true
  | _ => false

/-- `work_busy` of the deferred work. -/
def busy : CleanupPc → Bool
  | flush _ | flushing _ _ | destroyWq _ | destroyEpoch _ => true
  | _ => false

end CleanupPc

/-- `cleanup_xkpblocks_ht` -/
def CaptureState.cleanupXkpblocksHt (s : CaptureState) : CaptureState :=
  { s with
    table := (List.range xkpblocksHtSize).foldl
      (fun T bktnr => (T.chains bktnr).foldl (fun T cur => T.unlink cur.addr) T) s.table }

/-- The object is in `blkdevs_ht`, not in `loops_ht`. -/
def Mountinfo.isBlock : Mountinfo → Bool
  | .block _ => true
  | .loop _ => false

/-- How far `cleanup_object_data` is with an object: not called, in front of its allocations,
in front of its section on `waddw_worklist`, and returned. The flag says whether the deferred
work was scheduled. -/
inductive ObjectPhase where
  | registered
  | cleaning
  | allocated (scheduled : Bool)
  | cleaned (scheduled : Bool)
  deriving DecidableEq

namespace ObjectPhase

/-- `cleanup_object_data` is running. -/
def underway : ObjectPhase → Bool
  | cleaning | allocated _ => true
  | _ => false

/-- There was no memory for the deferred work. -/
def abandoned : ObjectPhase → Bool
  | allocated false | cleaned false => true
  | _ => false

end ObjectPhase

/-- The object of a device. -/
structure ModuleObject where
  key : Mountinfo
  closing : Closing
  phase : ObjectPhase

/-- Where the exit is: not called; `destroy_activation_mechanism` has returned; the mount
probes, the kretprobes and the kprobe of the file system are off and their handlers are
waited for; `cancel_delayed_work_sync` waits for the sweep; in front of `cleanup_xkpblocks_ht`
and of `down_write`; in the two tables; in the worklist; returned. -/
inductive ExitPc where
  | loaded
  | activationGone
  | mountsOff
  | kretprobesOff
  | kprobesOff
  | workCancelled
  | sweepOver
  | tableClean
  | freeBlkdevs
  | freeLoops
  | flushWorks
  | returned
  deriving DecidableEq

namespace ExitPc

def mountsArmed : ExitPc → Bool
  | loaded | activationGone => true
  | _ => false

def kretprobesArmed : ExitPc → Bool
  | loaded | activationGone | mountsOff => true
  | _ => false

def kprobesArmed : ExitPc → Bool
  | loaded | activationGone | mountsOff | kretprobesOff => true
  | _ => false

/-- `schedule_delayed_work` is not refused. -/
def rearms : ExitPc → Bool
  | loaded | activationGone | mountsOff | kretprobesOff | kprobesOff => true
  | _ => false

/-- Behind `cleanup_xkpblocks_ht`. -/
def tableCleaned : ExitPc → Bool
  | tableClean | freeBlkdevs | freeLoops | flushWorks | returned => true
  | _ => false

end ExitPc

/-- The threads and the sweep; the nodes with a callback pending; whether the sweep is
pending; every object that was ever registered; for a thread in `bdsnap_make_snapshot` the
object and its call there; the objects that mount events have looked up; `waddw_worklist`;
and the exit. -/
structure LoadedModule where
  capture : CaptureState
  callbacks : List ℕ
  sweepPending : Bool
  objects : List ModuleObject
  handles : UInt64 → Option (ℕ × ℕ)
  mounting : List ℕ
  worklist : List ℕ
  exitPc : ExitPc

/-- A step of a thread or of the sweep, of a call of `bdsnap_make_snapshot`, an RCU callback,
a registration, the parts of a mount, an umount and a deactivation, a work of a device's
queue, the deferred work, and a step of the exit. -/
inductive ModuleAct where
  | capture (a : CaptureAct)
  | searchDevice (tid : UInt64) (minfo : Mountinfo)
  | callStep (tid : UInt64) (msw block : Bool)
  | snapshotReturn (tid : UInt64)
  | callback (node : ℕ)
  | register (key : Mountinfo) (originalDevName : CStr)
  | mountLookup (key : Mountinfo)
  | mount (j : ℕ) (kzalloc : Option ℕ) (tv : ClockSec)
  | umountLookup (key : Mountinfo)
  | umountStep (i j : ℕ) (kmalloc : Bool)
  | unregister (key : Mountinfo)
  | cleanupStep (i : ℕ)
  | allocate (i : ℕ) (wlistnode wargs : Bool)
  | updateWorklist (i : ℕ)
  | startWork (i : ℕ)
  | finishWork (i : ℕ)
  | teardown (i : ℕ)
  | exit
  | freeObject (i : ℕ)

/-- The object that `__init_object_data` makes. -/
def initClosing (originalDevName : CStr) : Closing :=
  ⟨initObjectData originalDevName, [], [], .generalLock, [], none, []⟩

namespace LoadedModule

variable (hash : XkpblocksKey → ℕ) (s : LoadedModule)

/-! ## Threads and the sweep -/

/-- The threads and the sweep move on; every node that they unlink goes to `call_rcu`. -/
def moveTo (capture : CaptureState) : LoadedModule :=
  { s with
    capture := capture
    callbacks := s.callbacks ++
      capture.table.freed.drop s.capture.table.freed.length }

/-- Handlers begin while their probe is there, and the sweep when it is pending. A thread
does not die in a handler, and `bdsnap_make_snapshot` has steps of its own. -/
def allows : CaptureAct → Bool
  | .exit tid => (s.capture.thread tid).all fun t =>
      !t.handler.inKretprobe && !t.handler.inKprobe
  | .enterWrite _ _ | .bread _ _ | .returnWrite _ => s.exitPc.kretprobesArmed
  | .writeDirtyBuffer _ _ => s.exitPc.kprobesArmed
  | .makeSnapshot _ => false
  | .sweepStart => s.sweepPending
  | _ => true

/-- Whether the sweep is pending after a step; at its end it schedules itself again. -/
def pendingAfter : CaptureAct → Bool
  | .sweepStart => false
  | .sweepEnd => s.exitPc.rearms
  | _ => s.sweepPending

def captureStep (a : CaptureAct) : Option LoadedModule :=
  if s.allows a then
    ((captureMachine hash).step s.capture a).map fun c =>
      { s.moveTo c with sweepPending := s.pendingAfter a }
  else none

/-- The end of `bdsnap_make_snapshot` in a thread. -/
def endSnapshot (tid : UInt64) : Option LoadedModule :=
  (s.capture.makeSnapshot tid).map fun c =>
    { s.moveTo c with handles := Function.update s.handles tid none }

/-- `xkpblocks_rcu_free_fn` for a node. -/
def callback (node : ℕ) : Option LoadedModule :=
  if node ∈ s.callbacks then some { s with callbacks := s.callbacks.erase node } else none

/-! ## Devices -/

/-- The object of a key in its hash table. -/
def find (key : Mountinfo) : Option ℕ :=
  s.objects.findIdx? fun o => decide (o.key = key ∧ o.phase = .registered)

def setObject (i : ℕ) (o : ModuleObject) : LoadedModule := { s with objects := s.objects.set i o }

/-- A step on object `i`. -/
def device (i : ℕ) (a : ClosingAct) : Option LoadedModule :=
  s.objects[i]?.bind fun o =>
    (closingMachine.step o.closing a).map fun c => s.setObject i { o with closing := c }

/-- `bdsnap_search_device`, and the call of `bdsnap_make_snapshot` on what it returns. -/
def searchDevice (tid : UInt64) (minfo : Mountinfo) : Option LoadedModule :=
  (s.capture.thread tid).bind fun t =>
    if t.handler.submits && (s.handles tid).isNone then
      match s.find minfo with
      | none => s.endSnapshot tid
      | some i => s.objects[i]?.bind fun o =>
        if o.closing.data.e = none ∨ o.closing.data.wqIsDestroyed = true then s.endSnapshot tid
        else (s.device i .call).map fun s' =>
          { s' with handles := Function.update s.handles tid (some (i, o.closing.calls.length)) }
    else none

/-- A call that has returned lets its thread go on. -/
def snapshotReturn (tid : UInt64) : Option LoadedModule :=
  (s.handles tid).bind fun h => s.objects[h.1]?.bind fun o =>
    match o.closing.calls[h.2]? with
    | some (.returned _) => s.endSnapshot tid
    | _ => none

/-- `register_device`; a key that is there already gives `-EEXIST`. -/
def register (key : Mountinfo) (originalDevName : CStr) : Option LoadedModule :=
  if s.exitPc = .loaded then
    match s.find key with
    | some _ => some s
    | none => some { s with
        objects := s.objects ++ [⟨key, initClosing originalDevName, .registered⟩] }
  else none

/-- The lookup of a mount event. -/
def mountLookup (key : Mountinfo) : Option LoadedModule :=
  if s.exitPc.mountsArmed then
    match s.find key with
    | none => some s
    | some i => some { s with mounting := s.mounting ++ [i] }
  else none

/-- The section of the mount event at place `j`. -/
def mount (j : ℕ) (kzalloc : Option ℕ) (tv : ClockSec) : Option LoadedModule :=
  s.mounting[j]?.bind fun i => (s.device i (.mount kzalloc tv)).map fun s' =>
    { s' with mounting := s.mounting.eraseIdx j }

/-- The lookup of an umount event, which then waits for `general_lock`. -/
def umountLookup (key : Mountinfo) : Option LoadedModule :=
  if s.exitPc.mountsArmed then
    match s.find key with
    | none => some s
    | some i => s.device i .umount
  else none

/-- `unregister_device` up to `cleanup_object_data`. -/
def unregister (key : Mountinfo) : Option LoadedModule :=
  if s.exitPc = .loaded then
    (s.find key).bind fun i => s.objects[i]?.map fun o =>
      s.setObject i { o with phase := .cleaning }
  else none

/-- `cleanup_object_data` up to its allocations. -/
def cleanupStep (i : ℕ) : Option LoadedModule :=
  s.objects[i]?.bind fun o =>
    if o.phase = .cleaning ∧ o.closing.cleanup.allocates = false then s.device i .cleanup
    else none

/-- The allocations of `cleanup_object_data`, and `schedule_work`. -/
def allocate (i : ℕ) (wlistnode wargs : Bool) : Option LoadedModule :=
  s.objects[i]?.bind fun o =>
    if o.phase = .cleaning ∧ o.closing.cleanup.allocates = true then
      if wlistnode && wargs then
        (closingMachine.step o.closing .cleanup).map fun c =>
          s.setObject i { o with closing := c, phase := .allocated true }
      else some (s.setObject i { o with phase := .allocated false })
    else none

/-- `work_busy` of the deferred work for object `i`. -/
def busyAt (i : ℕ) : Bool := s.objects[i]?.any fun o => o.closing.cleanup.busy

/-- The section on `waddw_worklist`, which forgets the works that are over. -/
def updateWorklist (i : ℕ) : Option LoadedModule :=
  s.objects[i]?.bind fun o =>
    match o.phase with
    | .allocated scheduled => some { s.setObject i { o with phase := .cleaned scheduled } with
        worklist := (s.worklist ++ if scheduled then [i] else []).filter s.busyAt }
    | _ => none

/-- `wait_and_destroy_device_workqueue` -/
def teardown (i : ℕ) : Option LoadedModule :=
  if s.busyAt i then s.device i .cleanup else none

/-! ## The exit -/

def goTo (exitPc : ExitPc) : LoadedModule := { s with exitPc := exitPc }

/-- A deactivation holds the semaphore. -/
def reging : Bool := s.objects.any fun o => o.phase.underway

/-- A mount or umount event is under way. -/
def counting : Bool :=
  !s.mounting.isEmpty || s.objects.any fun o =>
    o.closing.umounts.any fun pc => decide (pc ≠ .returned)

/-- A thread is in a handler of a kind. -/
def handling (kind : HandlerPc → Bool) : Bool :=
  s.capture.used.any fun key => (s.capture.thread key.tid).any fun t => kind t.handler

/-- A table still holds an object. -/
def holdsObject (block : Bool) : Bool :=
  s.objects.any fun o => decide (o.key.isBlock = block ∧ o.phase = .registered)

/-- `exit_blkdev_snapshot_module` -/
def exitStep : Option LoadedModule :=
  match s.exitPc with
  | .loaded => if s.reging then none else some (s.goTo .activationGone)
  | .activationGone => some (s.goTo .mountsOff)
  | .mountsOff => if s.counting then none else some (s.goTo .kretprobesOff)
  | .kretprobesOff =>
    if s.handling HandlerPc.inKretprobe then none else some (s.goTo .kprobesOff)
  | .kprobesOff =>
    if s.handling HandlerPc.inKprobe then none
    else some { s with sweepPending := false, exitPc := .workCancelled }
  | .workCancelled => if s.capture.sweep.isSome then none else some (s.goTo .sweepOver)
  | .sweepOver => some ((s.moveTo s.capture.cleanupXkpblocksHt).goTo .tableClean)
  | .tableClean => if s.reging then none else some (s.goTo .freeBlkdevs)
  | .freeBlkdevs => if s.reging || s.holdsObject true then none else some (s.goTo .freeLoops)
  | .freeLoops => if s.reging || s.holdsObject false then none else some (s.goTo .flushWorks)
  | .flushWorks =>
    match s.worklist with
    | [] => some (s.goTo .returned)
    | i :: worklist => if s.busyAt i then none else some { s with worklist := worklist }
  | .returned => none

/-- `rhashtable_free_and_destroy` comes to an object. -/
def freeObject (i : ℕ) : Option LoadedModule :=
  s.objects[i]?.bind fun o =>
    if o.phase = .registered ∧ s.reging = false ∧
        s.exitPc = (if o.key.isBlock then .freeBlkdevs else .freeLoops) then
      some (s.setObject i { o with phase := .cleaning })
    else none

end LoadedModule

/-- All interleavings, from the end of `init_blkdev_snapshot_module`. -/
def moduleMachine (hash : XkpblocksKey → ℕ) : Machine LoadedModule ModuleAct where
  init s := (captureMachine hash).init s.capture ∧ s.callbacks = [] ∧ s.sweepPending = true ∧
    s.objects = [] ∧ s.handles = (fun _ => none) ∧ s.mounting = [] ∧ s.worklist = [] ∧
    s.exitPc = .loaded
  step
    | s, .capture a => s.captureStep hash a
    | s, .searchDevice tid minfo => s.searchDevice tid minfo
    | s, .callStep tid msw block => (s.handles tid).bind fun h =>
        s.device h.1 (.callStep h.2 msw block)
    | s, .snapshotReturn tid => s.snapshotReturn tid
    | s, .callback node => s.callback node
    | s, .register key originalDevName => s.register key originalDevName
    | s, .mountLookup key => s.mountLookup key
    | s, .mount j kzalloc tv => s.mount j kzalloc tv
    | s, .umountLookup key => s.umountLookup key
    | s, .umountStep i j kmalloc => s.device i (.umountStep j kmalloc)
    | s, .unregister key => s.unregister key
    | s, .cleanupStep i => s.cleanupStep i
    | s, .allocate i wlistnode wargs => s.allocate i wlistnode wargs
    | s, .updateWorklist i => s.updateWorklist i
    | s, .startWork i => s.device i .startWork
    | s, .finishWork i => s.device i .finishWork
    | s, .teardown i => s.teardown i
    | s, .exit => s.exitStep
    | s, .freeObject i => s.freeObject i

end BlkdevSnapshot

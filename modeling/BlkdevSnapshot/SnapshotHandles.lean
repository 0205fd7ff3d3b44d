import BlkdevSnapshot.Machine
import BlkdevSnapshot.MakeSnapshot
import BlkdevSnapshot.TracedCalls

/-!
# The handles of the snapshot works

`make_snapshot` with the dentries, the mount references and the files that it takes
from one call to the next. A helper returns NULL, an error pointer or a dentry, which may
be negative; `vfs_mkdir` returns a dentry or an int, as the kernel has it. Each work
records the references that it takes and drops and the handles that it uses.
-/
namespace BlkdevSnapshot

/-- What `vfs_mkdir` returns. -/
inductive MkdirConvention where
  | dentry
  | int
  deriving DecidableEq

/-- What a path lookup finds. -/
inductive FoundKind where
  | dir
  | reg
  | special
  | other
  deriving DecidableEq

/-- What a dentry stands for; the links of a `removed` directory are gone. -/
inductive DentryState where
  | dir
  | removed
  | reg
  | special
  | other
  | negative
  deriving DecidableEq

def FoundKind.state : FoundKind → DentryState
  | .dir => .dir
  | .reg => .reg
  | .special => .special
  | .other => .other

/-- `struct dentry` -/
structure Dentry where
  id : ℕ
  state : DentryState
  deriving DecidableEq

/-- A `struct dentry *` -/
inductive Handle where
  | null
  | err
  | dentry (d : Dentry)
  deriving DecidableEq

/-- A dentry to read an inode from. -/
def Handle.Valid : Handle → Prop
  | .dentry d => d.state ≠ .negative
  | _ => False

/-- What `dentry_open` returns. -/
inductive FileHandle where
  | err
  | file (id : ℕ) (kind : DentryState)
  deriving DecidableEq

def FileHandle.Valid : FileHandle → Prop
  | .file _ _ => True
  | .err => False

/-- What a path lookup fills a `struct path` with. -/
structure FoundPath where
  dentry : ℕ
  mnt : ℕ
  kind : FoundKind

/-- `*path_snapdir`: the allocated `struct path` with the directory and the mount. -/
structure SnapPath where
  addr : ℕ
  dentry : Dentry
  mnt : ℕ
  deriving DecidableEq

/-- The `struct dentry *` in `*path_snapdir`. -/
def snapHandle : Option SnapPath → Handle
  | none => .null
  | some p => .dentry p.dentry

/-- What the works of an epoch hold. -/
inductive SnapResource where
  | dentry (id : ℕ)
  | mnt (id : ℕ)
  | mntWrite (id : ℕ)
  | path (addr : ℕ)
  | file (id : ℕ)
  | subdirname (addr : ℕ)
  | block (addr : ℕ)
  | work (addr : ℕ)
  | lru (addr : ℕ)
  | epoch
  deriving DecidableEq

/-- A step of a work: `misuse` frees or puts what is not there, and the last two record
what the two functions return. -/
inductive SnapStep where
  | acquire (r : SnapResource)
  | release (r : SnapResource)
  | misuse
  | lookup (base : Handle)
  | create (base : Handle)
  | read (f : FileHandle)
  | write (f : FileHandle)
  | ensuredPath (rv : Bool) (p : Option SnapPath)
  | ensuredFile (rv : Bool) (f : Option FileHandle)
  deriving DecidableEq

/-- The handles of a step are valid, and the functions return what they promise. -/
def SnapStep.Ok : SnapStep → Prop
  | .lookup h | .create h => h.Valid
  | .read f | .write f => f.Valid
  | .ensuredPath true p => ∃ q, p = some q ∧ q.dentry.state = .dir
  | .ensuredPath false p => p = none
  | .ensuredFile true f => ∃ id, f = some (.file id .reg)
  | _ => True

/-- The kernel calls of `mkdir_may_exist`. -/
structure MkdirCalls where
  vfsPathLookup : Option FoundPath
  mntWantWrite : Bool
  newDentry : Option Dentry
  vfsMkdir : Option ℕ

/-- The kernel calls of one `make_snapshot`, and what `*path_snapdir` stands for then. -/
structure HandleCalls where
  lruVmalloc : Option ℕ
  lruInit : Bool
  lruLookup : Bool
  snapdirNow : DentryState
  subdirnameAlloc : Option ℕ
  root : Option (ℕ × ℕ)
  snapshot : MkdirCalls
  subdir : MkdirCalls
  pathAlloc : Option ℕ
  fileLookup : Option FoundPath
  newFile : Option ℕ
  vfsCreate : Bool
  dentryOpen : Option ℕ
  blockFound : Bool

/-- The fields of an epoch that its works share. -/
structure EpochRefs where
  pathSnapdir : Option SnapPath
  cachedBlocks : Option ℕ
  deriving DecidableEq

/-- The computations of a work. -/
abbrev SnapCalls := Traced SnapStep

open Traced

/-- `path_put` -/
def pathPut (dentry mnt : ℕ) : List SnapStep :=
  [.release (.dentry dentry), .release (.mnt mnt)]

section Mkdir
variable (conv : MkdirConvention) (m : MkdirCalls)

/-- `mkdir_via_name_by_dent`; a `vfs_mkdir` that returns an error pointer has put the dentry. -/
def mkdirViaNameByDent (parent : Dentry) : SnapCalls Handle := do
  emit (.create (.dentry parent))
  match m.newDentry with
  | none => return .null
  | some d => do
    emit (.acquire (.dentry d.id))
    match conv, m.vfsMkdir with
    | .dentry, none => do
      emit (.release (.dentry d.id))
      return .err
    | .dentry, some id => do
      emits [.release (.dentry d.id), .acquire (.dentry id)]
      return .dentry ⟨id, .dir⟩
    | .int, none => return .dentry d
    | .int, some _ => return .dentry ⟨d.id, .dir⟩

/-- `mkdir_may_exist` -/
def mkdirMayExist (mnt : ℕ) (parent : Dentry) : SnapCalls Handle := do
  emit (.lookup (.dentry parent))
  match m.vfsPathLookup with
  | some existing => do
    emits [.acquire (.dentry existing.dentry), .acquire (.mnt existing.mnt),
      .acquire (.dentry existing.dentry)]
    emits (pathPut existing.dentry existing.mnt)
    if existing.kind = .dir then return .dentry ⟨existing.dentry, .dir⟩ else return .null
  | none =>
    if m.mntWantWrite then do
      emit (.acquire (.mntWrite mnt))
      let dNew ← mkdirViaNameByDent conv m parent
      emit (.release (.mntWrite mnt))
      match dNew with
      | .err => return .null
      | d => return d
    else return .null

end Mkdir

namespace HandleCalls
variable (conv : MkdirConvention) (o : HandleCalls)

/-- `init_path_snapdir` behind the lookup of the subdirectory. -/
def initSubdir (mnt : ℕ) : Handle → SnapCalls (Bool × Option SnapPath)
  | .dentry dSub =>
    match o.pathAlloc with
    | none => do
      emit (.release (.dentry dSub.id))
      return (false, none)
    | some addr => do
      emits [.acquire (.path addr), .acquire (.dentry dSub.id), .acquire (.mnt mnt),
        .release (.dentry dSub.id)]
      return (true, some ⟨addr, dSub, mnt⟩)
  | _ => return (false, none)

/-- `init_path_snapdir` behind the lookup of `snapshot`. -/
def initSnapshot (mnt : ℕ) : Handle → SnapCalls (Bool × Option SnapPath)
  | .dentry dSnap => do
    let dSub ← mkdirMayExist conv o.subdir mnt dSnap
    emit (.release (.dentry dSnap.id))
    o.initSubdir mnt dSub
  | _ => return (false, none)

/-- `init_path_snapdir`, with `*path_snapdir`. -/
def initPathSnapdir : SnapCalls (Bool × Option SnapPath) :=
  match o.root with
  | none => return (false, none)
  | some (root, mnt) => do
    emits [.acquire (.dentry root), .acquire (.mnt mnt)]
    let dSnap ← mkdirMayExist conv o.snapshot mnt ⟨root, .dir⟩
    let r ← initSnapshot conv o mnt dSnap
    emits (pathPut root mnt)
    return r

/-- The branch of `ensure_path_snapdir_ok` for a NULL `*path_snapdir`. -/
def ensureNewPath : SnapCalls (Bool × Option SnapPath) :=
  match o.subdirnameAlloc with
  | none => return (false, none)
  | some addr => do
    emit (.acquire (.subdirname addr))
    let r ← initPathSnapdir conv o
    emit (.release (.subdirname addr))
    return r

/-- `ensure_path_snapdir_ok`, with `*path_snapdir`. -/
def ensurePathSnapdirOk : Option SnapPath → SnapCalls (Bool × Option SnapPath)
  | some p =>
    if p.dentry.state = .dir then return (true, some p)
    else do
      emits (pathPut p.dentry.id p.mnt)
      emit (.release (.path p.addr))
      ensureNewPath conv o
  | none => ensureNewPath conv o

/-- `create_snapblocks_file`, with `*out_filp`. -/
def createSnapblocksFile (dir : Handle) : SnapCalls (Bool × Option FileHandle) := do
  emit (.create dir)
  match o.newFile with
  | none => return (false, none)
  | some d => do
    emit (.acquire (.dentry d))
    if o.vfsCreate then
      match o.dentryOpen with
      | none => do
        emit (.release (.dentry d))
        return (false, some .err)
      | some f => do
        emits [.acquire (.file f), .release (.dentry d)]
        return (true, some (.file f .reg))
    else do
      emit (.release (.dentry d))
      return (false, none)

/-- `ensure_snapblocks_file_ok`, with `*out_filp`; `d_is_file` lets special files pass. -/
def ensureSnapblocksFileOk (dir : Handle) : SnapCalls (Bool × Option FileHandle) := do
  emit (.lookup dir)
  match o.fileLookup with
  | some found => do
    emits [.acquire (.dentry found.dentry), .acquire (.mnt found.mnt)]
    if found.kind = .reg ∨ found.kind = .special then
      match o.dentryOpen with
      | none => do
        emits (pathPut found.dentry found.mnt)
        return (true, some .err)
      | some f => do
        emit (.acquire (.file f))
        emits (pathPut found.dentry found.mnt)
        return (true, some (.file f found.kind.state))
    else return (false, none)
  | none => o.createSnapblocksFile dir

/-- `fput` -/
def fput : FileHandle → SnapStep
  | .err => .misuse
  | .file f _ => .release (.file f)

/-- `make_snapshot` from the opened file on. -/
def snapshotInto (f : FileHandle) : SnapCalls Unit := do
  emit (.read f)
  if o.blockFound then emit (fput f) else emits [.write f, fput f]

/-- `ensure_cached_blocks_lru_ok`; `lru_ng_alloc_and_init` passes a cache that it could not
initialise to `kfree`, though it comes from `vmalloc`. -/
def ensureCachedBlocksLruOk : Option ℕ → SnapCalls (Option ℕ)
  | some lru => return some lru
  | none =>
    match o.lruVmalloc with
    | none => return none
    | some lru => do
      emit (.acquire (.lru lru))
      if o.lruInit then return some lru
      else do
        emit .misuse
        return none

/-- `make_snapshot` with a valid `*path_snapdir`. -/
def snapshotWith (p : Option SnapPath) : SnapCalls Unit := do
  let r ← o.ensureSnapblocksFileOk (snapHandle p)
  emit (.ensuredFile r.1 r.2)
  match r with
  | (true, some f) => o.snapshotInto f
  | (true, none) => emit .misuse
  | (false, _) => return ()

/-- `make_snapshot` behind `ensure_path_snapdir_ok`. -/
def snapshotEnsured : Bool × Option SnapPath → SnapCalls Unit
  | (true, p) => o.snapshotWith p
  | (false, _) => return ()

/-- `*path_snapdir` as a work finds it. -/
def found (s : EpochRefs) : Option SnapPath :=
  s.pathSnapdir.map fun p => { p with dentry := { p.dentry with state := o.snapdirNow } }

/-- `make_snapshot` behind its two tests of the cache. -/
def snapshotMissed (s : EpochRefs) : SnapCalls EpochRefs := do
  let r ← ensurePathSnapdirOk conv o (o.found s)
  emit (.ensuredPath r.1 r.2)
  o.snapshotEnsured r
  return { s with pathSnapdir := r.2 }

/-- `make_snapshot` before the work is freed. -/
def snapshotBody (s : EpochRefs) : SnapCalls EpochRefs := do
  let lru ← o.ensureCachedBlocksLruOk s.cachedBlocks
  if lru.isNone || o.lruLookup then return { s with cachedBlocks := lru }
  else snapshotMissed conv o { s with cachedBlocks := lru }

/-- `make_snapshot` of the work at an address with its block. -/
def makeSnapshot (work block : ℕ) (s : EpochRefs) : SnapCalls EpochRefs := do
  let s ← snapshotBody conv o s
  emits [.release (.block block), .release (.work work)]
  return s

end HandleCalls

/-- The allocations of `queue_snapshot_work`, and whether `queue_work` takes the work. -/
structure SubmitAllocs where
  msw : Option ℕ
  block : Option ℕ
  queued : Bool

/-- `queue_snapshot_work`: the addresses of the queued work and its block. -/
def SubmitAllocs.queueSnapshotWork (a : SubmitAllocs) : SnapCalls (Option (ℕ × ℕ)) :=
  match a.msw with
  | none => return none
  | some msw => do
    emit (.acquire (.work msw))
    match a.block with
    | none => do
      emit (.release (.work msw))
      return none
    | some block => do
      emit (.acquire (.block block))
      if a.queued then return some (msw, block)
      else do
        emits [.release (.block block), .release (.work msw)]
        return none

/-- The works of one epoch: what is queued, what they share and every step so far. -/
structure EpochWorks where
  queue : List (ℕ × ℕ)
  refs : EpochRefs
  steps : List SnapStep

/-- A block write, or the execution of the work at the head of the queue. -/
inductive EpochWorkAct where
  | submit (a : SubmitAllocs)
  | work (o : HandleCalls)

namespace EpochWorks

def step (conv : MkdirConvention) (s : EpochWorks) : EpochWorkAct → Option EpochWorks
  | .submit a =>
    let r := a.queueSnapshotWork
    some { s with queue := s.queue ++ r.val.toList, steps := s.steps ++ r.steps }
  | .work o =>
    match s.queue with
    | [] => none
    | (work, block) :: queue =>
      let r := o.makeSnapshot conv work block s.refs
      some ⟨queue, r.val, s.steps ++ r.steps⟩

/-- An epoch without a directory and a cache. -/
def opened : EpochWorks := ⟨[], ⟨none, none⟩, []⟩

/-- The works of an epoch from its first mount on. -/
def machine (conv : MkdirConvention) : Machine EpochWorks EpochWorkAct where
  init s := s = opened
  step := step conv

end EpochWorks

/-! ## Where the handles are valid -/

section Mkdir
variable (conv : MkdirConvention) (m : MkdirCalls)

/-- The directory is found or made. -/
def MkdirCalls.Made : Prop :=
  (∃ f, m.vfsPathLookup = some f ∧ f.kind = .dir) ∨
    m.vfsPathLookup = none ∧ m.mntWantWrite = true ∧ m.newDentry.isSome ∧ m.vfsMkdir.isSome

/-- A `vfs_mkdir` that returns an int fails, and leaves a dentry. -/
def MkdirCalls.Left (d : Dentry) : Prop :=
  conv = .int ∧ m.vfsPathLookup = none ∧ m.mntWantWrite = true ∧ m.newDentry = some d ∧
    m.vfsMkdir = none

/-- `mkdir_may_exist` goes on with a dentry. -/
def MkdirCalls.Gives : Prop := m.Made ∨ ∃ d, m.Left conv d

/-- The dentry that `mkdir_may_exist` returns. -/
theorem mkdirMayExist_val (mnt : ℕ) (parent : Dentry) :
    (m.Made ∧ ∃ id, (mkdirMayExist conv m mnt parent).val = .dentry ⟨id, .dir⟩) ∨
      (∃ d, m.Left conv d ∧ (mkdirMayExist conv m mnt parent).val = .dentry d) ∨
      ¬ m.Gives conv ∧ (mkdirMayExist conv m mnt parent).val = .null := by
  unfold mkdirMayExist mkdirViaNameByDent MkdirCalls.Gives MkdirCalls.Made MkdirCalls.Left
  rcases m.vfsPathLookup with - | f
  · cases m.mntWantWrite with
    | false => simp
    | true =>
      rcases m.newDentry with - | d
      · simp
      · cases conv <;> rcases m.vfsMkdir with - | id <;> simp
  · by_cases hkind : f.kind = .dir <;> simp [hkind]

/-- It passes on its parent only. -/
theorem mkdirMayExist_ok (mnt : ℕ) (parent : Dentry) :
    (mkdirMayExist conv m mnt parent).All SnapStep.Ok ↔ parent.state ≠ .negative := by
  unfold mkdirMayExist mkdirViaNameByDent pathPut
  rcases m.vfsPathLookup with - | f
  · cases m.mntWantWrite with
    | false => simp [SnapStep.Ok, Handle.Valid]
    | true =>
      rcases m.newDentry with - | d
      · simp [SnapStep.Ok, Handle.Valid]
      · cases conv <;> rcases m.vfsMkdir with - | id <;> simp [SnapStep.Ok, Handle.Valid]
  · by_cases hkind : f.kind = .dir <;> simp [hkind, SnapStep.Ok, Handle.Valid]

theorem mkdirMayExist_left {d : Dentry} (h : m.Left conv d) (mnt : ℕ) (parent : Dentry) :
    (mkdirMayExist conv m mnt parent).val = .dentry d := by
  obtain ⟨rfl, hlookup, hwant, hnew, hmkdir⟩ := h
  simp [mkdirMayExist, mkdirViaNameByDent, hlookup, hwant, hnew, hmkdir]

theorem mkdirMayExist_gives (h : m.Gives conv) (mnt : ℕ) (parent : Dentry) :
    ∃ d, (mkdirMayExist conv m mnt parent).val = .dentry d ∧
      (d.state = .dir ∨ m.Left conv d) := by
  rcases mkdirMayExist_val conv m mnt parent with ⟨-, id, hid⟩ | ⟨d, hleft, hd⟩ | ⟨hgives, -⟩
  · exact ⟨_, hid, .inl rfl⟩
  · exact ⟨d, hd, .inr hleft⟩
  · exact absurd h hgives

theorem mkdirMayExist_null (h : ¬ m.Gives conv) (mnt : ℕ) (parent : Dentry) :
    (mkdirMayExist conv m mnt parent).val = .null := by
  rcases mkdirMayExist_val conv m mnt parent with ⟨hmade, -⟩ | ⟨d, hleft, -⟩ | ⟨-, hval⟩
  · exact absurd (.inl hmade) h
  · exact absurd (.inr ⟨d, hleft⟩) h
  · exact hval

end Mkdir

namespace HandleCalls
variable (conv : MkdirConvention) (o : HandleCalls)

/-- No `vfs_mkdir` of `init_path_snapdir` fails and leaves a dentry that is no directory where
the work goes on with it. -/
structure MkdirsFine : Prop where
  snapshot : ∀ d, o.snapshot.Left conv d → d.state ≠ .negative
  subdir : o.snapshot.Gives conv → o.pathAlloc.isSome → ∀ d, o.subdir.Left conv d →
    d.state = .dir

/-- A found snapblocks file is a regular file that can be opened, or refused. -/
def FileFine : Prop :=
  ∀ f, o.fileLookup = some f → f.kind ≠ .special ∧ (f.kind = .reg → o.dentryOpen.isSome)

/-- The work comes to its directory. -/
def Misses (s : EpochRefs) : Prop :=
  (s.cachedBlocks.isSome ∨ o.lruVmalloc.isSome ∧ o.lruInit = true) ∧ o.lruLookup = false

/-- The directory of an earlier work is still there. -/
def Keeps (s : EpochRefs) : Prop := s.pathSnapdir.isSome ∧ o.snapdirNow = .dir

/-- `init_path_snapdir` is called and finds the root. -/
def Renews (s : EpochRefs) : Prop := ¬ o.Keeps s ∧ o.subdirnameAlloc.isSome ∧ o.root.isSome

/-- `init_path_snapdir` succeeds. -/
def Inits : Prop :=
  o.snapshot.Gives conv ∧ o.subdir.Gives conv ∧ o.pathAlloc.isSome

/-- The condition on a work for its handles to be valid. -/
def Sound (s : EpochRefs) : Prop :=
  o.Misses s → (o.Renews s → MkdirsFine conv o) ∧
    (o.Keeps s ∨ o.Renews s ∧ Inits conv o → o.FileFine)

/-- What `ensure_path_snapdir_ok` returns. -/
def PathPromise (r : Bool × Option SnapPath) : Prop := (SnapStep.ensuredPath r.1 r.2).Ok

theorem initSubdir_ok (mnt : ℕ) (dSub : Handle) : (o.initSubdir mnt dSub).All SnapStep.Ok := by
  unfold initSubdir
  rcases dSub with - | - | d
  · simp
  · simp
  · rcases o.pathAlloc with - | addr <;> simp [SnapStep.Ok]

theorem initSubdir_val (mnt : ℕ) (d : Dentry) :
    (o.initSubdir mnt (.dentry d)).val =
      (o.pathAlloc.isSome, o.pathAlloc.map fun addr => ⟨addr, d, mnt⟩) := by
  unfold initSubdir
  rcases o.pathAlloc with - | addr <;> rfl

/-- Every promise of a NULL `*path_snapdir` with false holds. -/
theorem pathPromise_false : PathPromise (false, none) := rfl

theorem pathPromise_true (p : SnapPath) :
    PathPromise (true, some p) ↔ p.dentry.state = .dir := by
  simp [PathPromise, SnapStep.Ok]

theorem initSnapshot_ok (mnt : ℕ) (dSnap : Handle) :
    (initSnapshot conv o mnt dSnap).All SnapStep.Ok ↔
      ∀ d, dSnap = .dentry d → d.state ≠ .negative := by
  unfold initSnapshot
  rcases dSnap with - | - | d
  · simp
  · simp
  · simp [SnapStep.Ok, mkdirMayExist_ok, initSubdir_ok]

theorem initPathSnapdir_ok (hroot : o.root.isSome) :
    (initPathSnapdir conv o).All SnapStep.Ok ↔
      ∀ d, o.snapshot.Left conv d → d.state ≠ .negative := by
  obtain ⟨⟨root, mnt⟩, hroot⟩ := Option.isSome_iff_exists.mp hroot
  have hall : (initPathSnapdir conv o).All SnapStep.Ok ↔
      (initSnapshot conv o mnt
        (mkdirMayExist conv o.snapshot mnt ⟨root, .dir⟩).val).All SnapStep.Ok := by
    simp [initPathSnapdir, hroot, pathPut, SnapStep.Ok, mkdirMayExist_ok]
  rw [hall, initSnapshot_ok]
  constructor
  · intro h d hleft
    exact h d (mkdirMayExist_left conv o.snapshot hleft mnt _)
  · intro h d hd
    by_cases hgives : o.snapshot.Gives conv
    · obtain ⟨d', hd', hor⟩ := mkdirMayExist_gives conv o.snapshot hgives mnt ⟨root, .dir⟩
      rw [hd'] at hd
      cases hd
      rcases hor with hdir | hleft
      · simp [hdir]
      · exact h d hleft
    · rw [mkdirMayExist_null conv o.snapshot hgives] at hd
      cases hd

/-- Where `init_path_snapdir` succeeds, it stores the dentry of the subdirectory. -/
theorem initPathSnapdir_inits (hroot : o.root.isSome) (h : Inits conv o) :
    ∃ p, (initPathSnapdir conv o).val = (true, some p) ∧
      (∀ d, o.subdir.Left conv d → p.dentry = d) ∧
      (p.dentry.state = .dir ∨ o.subdir.Left conv p.dentry) := by
  obtain ⟨⟨root, mnt⟩, hroot⟩ := Option.isSome_iff_exists.mp hroot
  obtain ⟨hsnap, hsub, halloc⟩ := h
  obtain ⟨addr, halloc⟩ := Option.isSome_iff_exists.mp halloc
  obtain ⟨dSnap, hdSnap, -⟩ := mkdirMayExist_gives conv o.snapshot hsnap mnt ⟨root, .dir⟩
  obtain ⟨dSub, hdSub, hor⟩ := mkdirMayExist_gives conv o.subdir hsub mnt dSnap
  refine ⟨⟨addr, dSub, mnt⟩, ?_, fun d hleft => ?_, hor⟩
  · simp [initPathSnapdir, initSnapshot, hroot, hdSnap, hdSub, initSubdir_val, halloc]
  · rw [mkdirMayExist_left conv o.subdir hleft] at hdSub
    cases hdSub
    rfl

theorem initPathSnapdir_fails (hroot : o.root.isSome) (h : ¬ Inits conv o) :
    (initPathSnapdir conv o).val = (false, none) := by
  obtain ⟨⟨root, mnt⟩, hroot⟩ := Option.isSome_iff_exists.mp hroot
  by_cases hsnap : o.snapshot.Gives conv
  · obtain ⟨dSnap, hdSnap, -⟩ := mkdirMayExist_gives conv o.snapshot hsnap mnt ⟨root, .dir⟩
    by_cases hsub : o.subdir.Gives conv
    · obtain ⟨dSub, hdSub, -⟩ := mkdirMayExist_gives conv o.subdir hsub mnt dSnap
      have halloc : o.pathAlloc = none := by
        by_contra hsome
        exact h ⟨hsnap, hsub, Option.isSome_iff_ne_none.mpr hsome⟩
      simp [initPathSnapdir, initSnapshot, hroot, hdSnap, hdSub, initSubdir_val, halloc]
    · simp [initPathSnapdir, initSnapshot, initSubdir, hroot, hdSnap,
        mkdirMayExist_null conv o.subdir hsub]
  · simp [initPathSnapdir, initSnapshot, hroot, mkdirMayExist_null conv o.snapshot hsnap]

/-- `init_path_snapdir` uses valid handles and keeps its promise. -/
theorem initPathSnapdir_fine (hroot : o.root.isSome) :
    (initPathSnapdir conv o).All SnapStep.Ok ∧ PathPromise (initPathSnapdir conv o).val ↔
      MkdirsFine conv o := by
  rw [initPathSnapdir_ok conv o hroot]
  by_cases hinits : Inits conv o
  · obtain ⟨p, hp, hleft, hor⟩ := initPathSnapdir_inits conv o hroot hinits
    rw [hp, pathPromise_true]
    constructor
    · rintro ⟨hsnap, hdir⟩
      exact ⟨hsnap, fun _ _ d hd => hleft d hd ▸ hdir⟩
    · intro h
      refine ⟨h.snapshot, hor.elim id fun hl => ?_⟩
      exact h.subdir hinits.1 hinits.2.2 _ hl
  · rw [initPathSnapdir_fails conv o hroot hinits]
    constructor
    · rintro ⟨hsnap, -⟩
      exact ⟨hsnap, fun hgives halloc d hd => absurd ⟨hgives, .inr ⟨d, hd⟩, halloc⟩ hinits⟩
    · exact fun h => ⟨h.snapshot, pathPromise_false⟩

theorem initPathSnapdir_val (hroot : o.root.isSome) :
    (Inits conv o → ∃ p, (initPathSnapdir conv o).val = (true, some p)) ∧
      (¬ Inits conv o → (initPathSnapdir conv o).val = (false, none)) := by
  refine ⟨fun h => ?_, initPathSnapdir_fails conv o hroot⟩
  obtain ⟨p, hp, -⟩ := initPathSnapdir_inits conv o hroot h
  exact ⟨p, hp⟩

section Ensure
variable (s : EpochRefs)

theorem ensureNewPath_eq (hroot : ¬ (o.subdirnameAlloc.isSome ∧ o.root.isSome)) :
    (ensureNewPath conv o).All SnapStep.Ok ∧ (ensureNewPath conv o).val = (false, none) := by
  unfold ensureNewPath
  rcases hsub : o.subdirnameAlloc with - | addr
  · simp
  · have hnone : o.root = none := by simpa [hsub] using hroot
    simp [initPathSnapdir, hnone, SnapStep.Ok]

/-- A new path has the handles and the result of `init_path_snapdir`. -/
theorem ensureNewPath_init (hsub : o.subdirnameAlloc.isSome) :
    ((ensureNewPath conv o).All SnapStep.Ok ↔ (initPathSnapdir conv o).All SnapStep.Ok) ∧
      (ensureNewPath conv o).val = (initPathSnapdir conv o).val := by
  obtain ⟨addr, hsub⟩ := Option.isSome_iff_exists.mp hsub
  simp [ensureNewPath, hsub, SnapStep.Ok]

theorem found_of_keeps (h : o.Keeps s) : ∃ p, o.found s = some p ∧ p.dentry.state = .dir := by
  obtain ⟨hsome, hdir⟩ := h
  obtain ⟨p, hp⟩ := Option.isSome_iff_exists.mp hsome
  exact ⟨_, by rw [found, hp]; rfl, hdir⟩

/-- A directory that is not there any more makes way for a new one. -/
theorem ensurePathSnapdirOk_of_not_keeps (h : ¬ o.Keeps s) :
    ((ensurePathSnapdirOk conv o (o.found s)).All SnapStep.Ok ↔
        (ensureNewPath conv o).All SnapStep.Ok) ∧
      (ensurePathSnapdirOk conv o (o.found s)).val = (ensureNewPath conv o).val := by
  unfold Keeps at h
  rcases hp : s.pathSnapdir with - | p
  · simp [found, hp, ensurePathSnapdirOk]
  · have hdir : o.snapdirNow ≠ .dir := by simpa [hp] using h
    simp [found, hp, ensurePathSnapdirOk, hdir, pathPut, SnapStep.Ok]

/-- `ensure_path_snapdir_ok` uses valid handles and keeps its promise. -/
theorem ensurePathSnapdirOk_fine :
    (ensurePathSnapdirOk conv o (o.found s)).All SnapStep.Ok ∧
        PathPromise (ensurePathSnapdirOk conv o (o.found s)).val ↔
      (o.Renews s → MkdirsFine conv o) := by
  by_cases hkeeps : o.Keeps s
  · obtain ⟨p, hp, hdir⟩ := found_of_keeps o s hkeeps
    refine iff_of_true ?_ fun h => absurd hkeeps h.1
    simp [hp, ensurePathSnapdirOk, hdir, pathPromise_true]
  · obtain ⟨hall, hval⟩ := ensurePathSnapdirOk_of_not_keeps conv o s hkeeps
    rw [hall, hval]
    by_cases hcalls : o.subdirnameAlloc.isSome ∧ o.root.isSome
    · obtain ⟨hall', hval'⟩ := ensureNewPath_init conv o hcalls.1
      rw [hall', hval', initPathSnapdir_fine conv o hcalls.2]
      exact ⟨fun h _ => h, fun h => h ⟨hkeeps, hcalls⟩⟩
    · obtain ⟨hok, hfalse⟩ := ensureNewPath_eq conv o hcalls
      rw [hfalse]
      exact iff_of_true ⟨hok, pathPromise_false⟩ fun h => absurd h.2 hcalls

/-- When `ensure_path_snapdir_ok` returns true, and with what. -/
theorem ensurePathSnapdirOk_val :
    (o.Keeps s ∨ o.Renews s ∧ Inits conv o →
        ∃ p, (ensurePathSnapdirOk conv o (o.found s)).val = (true, some p)) ∧
      (¬ (o.Keeps s ∨ o.Renews s ∧ Inits conv o) →
        (ensurePathSnapdirOk conv o (o.found s)).val = (false, none)) := by
  by_cases hkeeps : o.Keeps s
  · obtain ⟨p, hp, hdir⟩ := found_of_keeps o s hkeeps
    refine ⟨fun _ => ⟨p, ?_⟩, fun h => absurd (.inl hkeeps) h⟩
    simp [hp, ensurePathSnapdirOk, hdir]
  · rw [(ensurePathSnapdirOk_of_not_keeps conv o s hkeeps).2]
    by_cases hcalls : o.subdirnameAlloc.isSome ∧ o.root.isSome
    · rw [(ensureNewPath_init conv o hcalls.1).2]
      obtain ⟨hinits, hfails⟩ := initPathSnapdir_val conv o hcalls.2
      refine ⟨fun h => ?_, fun h => ?_⟩
      · exact hinits (h.resolve_left hkeeps).2
      · exact hfails fun hi => h (.inr ⟨⟨hkeeps, hcalls⟩, hi⟩)
    · refine ⟨fun h => ?_, fun _ => (ensureNewPath_eq conv o hcalls).2⟩
      exact absurd (h.resolve_left hkeeps).1.2 hcalls

theorem snapshotInto_ok (f : FileHandle) :
    (o.snapshotInto f).All SnapStep.Ok ↔ f.Valid := by
  unfold snapshotInto fput
  cases o.blockFound <;> cases f <;> simp [SnapStep.Ok, FileHandle.Valid]

/-- The file of a directory is opened, read and written through valid handles. -/
theorem snapshotWith_ok {p : SnapPath} (hp : p.dentry.state = .dir) :
    (o.snapshotWith (some p)).All SnapStep.Ok ↔ o.FileFine := by
  have hdir : (Handle.dentry p.dentry).Valid := by simp [Handle.Valid, hp]
  unfold snapshotWith ensureSnapblocksFileOk createSnapblocksFile FileFine snapHandle
  rcases o.fileLookup with - | f
  · rcases o.newFile with - | d
    · simp [SnapStep.Ok, hdir]
    · cases o.vfsCreate with
      | false => simp [SnapStep.Ok, hdir]
      | true =>
        rcases o.dentryOpen with - | file
        · simp [SnapStep.Ok, hdir]
        · simp [SnapStep.Ok, hdir, snapshotInto_ok, FileHandle.Valid]
  · rcases o.dentryOpen with - | file <;> cases hkind : f.kind <;>
      simp [SnapStep.Ok, hdir, snapshotInto_ok, FileHandle.Valid, FoundKind.state, pathPut, hkind]

/-- The handles behind the two tests of the cache. -/
theorem snapshotMissed_ok :
    (snapshotMissed conv o s).All SnapStep.Ok ↔
      (o.Renews s → MkdirsFine conv o) ∧ (o.Keeps s ∨ o.Renews s ∧ Inits conv o → o.FileFine) := by
  have hfine := ensurePathSnapdirOk_fine conv o s
  obtain ⟨htrue, hfalse⟩ := ensurePathSnapdirOk_val conv o s
  have hsplit : (snapshotMissed conv o s).All SnapStep.Ok ↔
      ((ensurePathSnapdirOk conv o (o.found s)).All SnapStep.Ok ∧
        PathPromise (ensurePathSnapdirOk conv o (o.found s)).val) ∧
      (o.snapshotEnsured (ensurePathSnapdirOk conv o (o.found s)).val).All SnapStep.Ok := by
    simp [snapshotMissed, PathPromise, and_assoc]
  rw [hsplit, ← hfine]
  refine and_congr_right fun hpromise => ?_
  by_cases hhas : o.Keeps s ∨ o.Renews s ∧ Inits conv o
  · obtain ⟨p, hp⟩ := htrue hhas
    rw [hp, pathPromise_true] at hpromise
    rw [hp, snapshotEnsured, snapshotWith_ok o hpromise.2]
    exact ⟨fun h _ => h, fun h => h hhas⟩
  · rw [hfalse hhas, snapshotEnsured]
    exact iff_of_true (all_pure ()) fun h => absurd h hhas

theorem ensureCachedBlocksLruOk_ok (lru : Option ℕ) :
    (o.ensureCachedBlocksLruOk lru).All SnapStep.Ok := by
  unfold ensureCachedBlocksLruOk
  rcases lru with - | lru
  · rcases o.lruVmalloc with - | addr <;> cases o.lruInit <;> simp [SnapStep.Ok]
  · simp

theorem ensureCachedBlocksLruOk_isSome (lru : Option ℕ) :
    (o.ensureCachedBlocksLruOk lru).val.isSome ↔
      lru.isSome ∨ o.lruVmalloc.isSome ∧ o.lruInit = true := by
  unfold ensureCachedBlocksLruOk
  rcases lru with - | lru
  · rcases o.lruVmalloc with - | addr <;> cases o.lruInit <;> simp
  · simp

/-- All handles of a work are valid exactly where it is sound. -/
theorem makeSnapshot_ok (work block : ℕ) :
    (makeSnapshot conv o work block s).All SnapStep.Ok ↔ Sound conv o s := by
  have hbody : (makeSnapshot conv o work block s).All SnapStep.Ok ↔
      (snapshotBody conv o s).All SnapStep.Ok := by
    simp [makeSnapshot, SnapStep.Ok]
  have hlru := ensureCachedBlocksLruOk_ok o s.cachedBlocks
  have hsome := ensureCachedBlocksLruOk_isSome o s.cachedBlocks
  rw [hbody, Sound, Misses, ← hsome, snapshotBody, all_bind]
  generalize (o.ensureCachedBlocksLruOk s.cachedBlocks).val = lru
  by_cases hmiss : lru.isSome ∧ o.lruLookup = false
  · rw [if_neg (by simp [Option.isNone_iff_eq_none, ← Option.isSome_iff_ne_none, hmiss]),
      snapshotMissed_ok]
    exact ⟨fun h _ => h.2, fun h => ⟨hlru, h hmiss⟩⟩
  · rw [if_pos (by
      cases lru <;> simp_all)]
    exact iff_of_true ⟨hlru, all_pure _⟩ fun h => absurd h hmiss

end Ensure

end HandleCalls

/-! ## The works without their handles -/

namespace HandleCalls
variable {conv : MkdirConvention} {o : HandleCalls} {w : WorkOutcomes} {s : EpochRefs}

/-- The same outcomes without handles. -/
structure Agrees (conv : MkdirConvention) (o : HandleCalls) (w : WorkOutcomes) : Prop where
  lruAlloc : w.lruAlloc = (o.lruVmalloc.isSome && o.lruInit)
  dirHealthy : w.dirHealthy = decide (o.snapdirNow = .dir)
  subdirnameAlloc : w.subdirnameAlloc = o.subdirnameAlloc.isSome
  initPath : w.initPath = (initPathSnapdir conv o).val.1
  pathLookup : w.pathLookup = o.fileLookup.isSome
  create : w.create = (o.newFile.isSome && o.vfsCreate)
  dentryOpen : w.dentryOpen = o.dentryOpen.isSome

/-- A cache is there in the same works. -/
theorem Agrees.lru (h : Agrees conv o w) (lru : Option LruNg) :
    (o.ensureCachedBlocksLruOk (lru.map fun _ => 0)).val.isSome =
      (BlkdevSnapshot.ensureCachedBlocksLruOk w.lruAlloc lru).isSome := by
  rw [h.lruAlloc]
  unfold ensureCachedBlocksLruOk BlkdevSnapshot.ensureCachedBlocksLruOk
  rcases lru with - | lru
  · rcases o.lruVmalloc with - | addr <;> cases o.lruInit <;> rfl
  · rfl

/-- A directory is there in the same works. -/
theorem Agrees.path (h : Agrees conv o w) (devname mountdate : CStr) :
    (ensurePathSnapdirOk conv o (o.found s)).val.1 =
      (BlkdevSnapshot.ensurePathSnapdirOk w
        (s.pathSnapdir.map fun _ => subdirname devname mountdate) devname mountdate).isSome := by
  have hnew : (ensureNewPath conv o).val.1 =
      (BlkdevSnapshot.initPathSnapdir w devname mountdate).isSome := by
    rw [BlkdevSnapshot.initPathSnapdir, h.subdirnameAlloc, h.initPath, ensureNewPath]
    rcases o.subdirnameAlloc with - | addr
    · rfl
    · cases (initPathSnapdir conv o).val.1 <;> simp
  rcases hp : s.pathSnapdir with - | p
  · simpa [found, hp, ensurePathSnapdirOk, BlkdevSnapshot.ensurePathSnapdirOk] using hnew
  · by_cases hdir : o.snapdirNow = .dir
    · simp [found, hp, ensurePathSnapdirOk, BlkdevSnapshot.ensurePathSnapdirOk, h.dirHealthy, hdir]
    · simpa [found, hp, ensurePathSnapdirOk, BlkdevSnapshot.ensurePathSnapdirOk, h.dirHealthy,
        hdir] using hnew

/-- The snapblocks file that a lookup finds is opened in the same works, or not at all. -/
theorem Agrees.file (h : Agrees conv o w) {f : FoundPath} (hf : o.fileLookup = some f)
    (hreg : f.kind = .reg) (content : Bytes) (dir : Handle) :
    (o.ensureSnapblocksFileOk dir).val =
      match (BlkdevSnapshot.ensureSnapblocksFileOk w (some content)).1 with
      | .failed => (false, none)
      | .errPtr => (true, some .err)
      | .opened _ => (true, o.dentryOpen.map fun file => .file file .reg) := by
  have hlookup : w.pathLookup = true := by rw [h.pathLookup, hf, Option.isSome_some]
  unfold ensureSnapblocksFileOk BlkdevSnapshot.ensureSnapblocksFileOk
  rw [h.dentryOpen, hlookup, hf]
  rcases o.dentryOpen with - | file <;> simp [hreg, FoundKind.state]

end HandleCalls

namespace EpochWorks
variable (conv : MkdirConvention)

/-- Every handle so far was valid, and every promise was kept. -/
def Valid (s : EpochWorks) : Prop := ∀ st ∈ s.steps, st.Ok

/-- The condition on an act for the handles to stay valid. -/
def Sound (s : EpochWorks) : EpochWorkAct → Prop
  | .submit _ => True
  | .work o => s.queue ≠ [] → o.Sound conv s.refs

theorem queueSnapshotWork_ok (a : SubmitAllocs) : a.queueSnapshotWork.All SnapStep.Ok := by
  unfold SubmitAllocs.queueSnapshotWork
  rcases a.msw with - | msw <;> rcases a.block with - | block <;> cases a.queued <;>
    simp [SnapStep.Ok]

/-- One act keeps the handles valid exactly where it is sound. -/
theorem valid_step {s s' : EpochWorks} {a : EpochWorkAct} (hs : s.Valid)
    (h : step conv s a = some s') : s'.Valid ↔ s.Sound conv a := by
  cases a with
  | submit a =>
    cases h
    exact iff_of_true (List.forall_mem_append.mpr ⟨hs, queueSnapshotWork_ok a⟩) trivial
  | work o =>
    obtain ⟨queue, refs, steps⟩ := s
    rcases queue with - | ⟨⟨work, block⟩, queue⟩
    · cases h
    · cases h
      have hmake := o.makeSnapshot_ok conv refs work block
      refine List.forall_mem_append.trans ?_
      exact ⟨fun h _ => hmake.mp h.2, fun h => ⟨hs, hmake.mpr (h (List.cons_ne_nil _ _))⟩⟩

/-- An act that is not sound can happen. -/
theorem step_of_not_sound {s : EpochWorks} {a : EpochWorkAct} (h : ¬ s.Sound conv a) :
    ∃ s', step conv s a = some s' := by
  cases a with
  | submit a => exact ⟨_, rfl⟩
  | work o =>
    obtain ⟨queue, refs, steps⟩ := s
    rcases queue with - | ⟨⟨work, block⟩, queue⟩
    · exact absurd (fun hne => absurd rfl hne) h
    · exact ⟨_, rfl⟩

end EpochWorks

/-- The handles of all works of an epoch are valid, and the promises kept, exactly in the runs
whose works are all sound. -/
theorem epochWorks_valid_iff (conv : MkdirConvention) (acts : List EpochWorkAct) :
    (EpochWorks.machine conv).Throughout EpochWorks.Valid EpochWorks.opened acts ↔
      (EpochWorks.machine conv).Meets (EpochWorks.Sound conv) EpochWorks.opened acts := by
  refine Machine.throughout_iff_meets (fun s hs => hs) ?_ ?_ ?_ acts
  · intro s a s' hs ha h
    exact (EpochWorks.valid_step conv hs h).mpr ha
  · intro s a hs ha
    obtain ⟨s', h⟩ := EpochWorks.step_of_not_sound conv ha
    exact ⟨s', h, fun hvalid => ha ((EpochWorks.valid_step conv hs h).mp hvalid)⟩
  · simp [EpochWorks.Valid, EpochWorks.opened]

/-- The directories and the snapblocks file exist, and the file cannot be opened. -/
def unopenableCalls : HandleCalls where
  lruVmalloc := some 1
  lruInit := true
  lruLookup := false
  snapdirNow := .dir
  subdirnameAlloc := some 2
  root := some (0, 0)
  snapshot := ⟨some ⟨1, 0, .dir⟩, true, none, none⟩
  subdir := ⟨some ⟨2, 0, .dir⟩, true, none, none⟩
  pathAlloc := some 3
  fileLookup := some ⟨3, 0, .reg⟩
  newFile := none
  vfsCreate := false
  dentryOpen := none
  blockFound := false

/-- An error pointer is read as a file when the snapblocks file cannot be opened. -/
theorem not_epochWorks_valid :
    let acts := [.submit ⟨some 4, some 5, true⟩, .work unopenableCalls]
    ∃ s, (EpochWorks.machine .dentry).run EpochWorks.opened acts = some s ∧
      .read .err ∈ s.steps ∧
      ¬ (EpochWorks.machine .dentry).Throughout EpochWorks.Valid EpochWorks.opened acts := by
  refine ⟨_, rfl, by decide, fun h => ?_⟩
  have hread : (SnapStep.read .err).Ok := h.run rfl (.read .err) (by decide)
  exact hread

end BlkdevSnapshot

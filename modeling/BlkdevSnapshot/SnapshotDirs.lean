import BlkdevSnapshot.Epoch
import BlkdevSnapshot.Originals

/-!
# The snapshot directories of all epochs

Any number of registered devices with their mounts, umounts, writes and works.
The epochs share nothing but the snapblocks files, which they find by the name of
their directory. The state also keeps every epoch opened so far and the works that
each of them has executed.
-/
namespace BlkdevSnapshot

/-- An epoch that was opened, with the clock at its first mount. -/
structure Opening (ι : Type*) where
  dev : ι
  addr : ℕ
  tv : ClockSec

variable {ι : Type*}

/-- `original_dev_name` of a device registered by the path `path i`. -/
def devName (path : ι → CStr) (i : ι) : CStr := (initObjectData (path i)).originalDevName

namespace Opening

/-- The name of the directory of an epoch. -/
def dir (path : ι → CStr) (x : Opening ι) : CStr :=
  subdirname (devName path x.dev) (firstMountDate x.tv)

/-- The same base name, and first mounts within one second. -/
def Collides (path : ι → CStr) (x y : Opening ι) : Prop :=
  kbasename (devName path x.dev) = kbasename (devName path y.dev) ∧ x.tv = y.tv

theorem dir_eq_iff (path : ι → CStr) (x y : Opening ι) :
    x.dir path = y.dir path ↔ x.Collides path y :=
  subdirname_inj _ _ _ _

end Opening

/-- The objects of the devices with their work queues, the fields of the epoch at
each address, and the snapblocks file of each directory. -/
structure SnapshotDirs (ι : Type*) where
  object : ι → ObjectData
  wq : ι → List (ℕ × MakeSnapshotWork)
  cachedBlocks : ℕ → Option LruNg
  pathSnapdir : ℕ → Option CStr
  snapblocks : CStr → Option Bytes
  nextAddr : ℕ
  opened : List (Opening ι)
  ran : ℕ → List WorkRun

/-- An event of a device or the execution of the work at the head of its queue. -/
inductive DirsAct (ι : Type*) where
  | mount (i : ι) (kzalloc : Bool) (tv : ClockSec)
  | umount (i : ι) (kmalloc : Bool)
  | write (i : ι) (blockNr : UInt64) (block : Bytes) (h : block.length < 2 ^ 32)
      (o : SubmitOutcomes)
  | work (i : ι) (o : WorkOutcomes)

namespace SnapshotDirs

/-- What the works of the epoch at an address see. -/
def workState (s : SnapshotDirs ι) (addr : ℕ) : WorkState :=
  ⟨s.cachedBlocks addr, s.pathSnapdir addr, s.snapblocks⟩

variable [DecidableEq ι]

/-- A mount event; a new epoch has no cache and no directory yet. -/
def mount (i : ι) (kzalloc : Bool) (tv : ClockSec) (s : SnapshotDirs ι) : SnapshotDirs ι :=
  if (s.object i).e = none ∧ kzalloc = true then { s with
    object := Function.update s.object i ((s.object i).countMount (some s.nextAddr) tv)
    cachedBlocks := Function.update s.cachedBlocks s.nextAddr none
    pathSnapdir := Function.update s.pathSnapdir s.nextAddr none
    nextAddr := s.nextAddr + 1
    opened := s.opened ++ [⟨i, s.nextAddr, tv⟩]
    ran := Function.update s.ran s.nextAddr [] }
  else { s with object := Function.update s.object i ((s.object i).countMount none tv) }

/-- An umount event. -/
def umount (i : ι) (kmalloc : Bool) (s : SnapshotDirs ι) : SnapshotDirs ι :=
  { s with object := Function.update s.object i ((s.object i).countUmount kmalloc).1 }

/-- A block write: `queue_snapshot_work` copies the name and the date. -/
def write (i : ι) (blockNr : UInt64) (block : Bytes) (h : block.length < 2 ^ 32)
    (o : SubmitOutcomes) (s : SnapshotDirs ι) : SnapshotDirs ι :=
  match (s.object i).e with
  | none => s
  | some e => { s with
      wq := Function.update s.wq i (submitBlock o (s.wq i)
        (e.addr, ⟨blockNr, block, (s.object i).originalDevName, e.firstMountDate, h⟩)) }

/-- The state after the work `w` of the epoch at `addr`. -/
def worked (i : ι) (addr : ℕ) (w : MakeSnapshotWork) (wq : List (ℕ × MakeSnapshotWork))
    (o : WorkOutcomes) (t : WorkState) (s : SnapshotDirs ι) : SnapshotDirs ι :=
  { s with
    wq := Function.update s.wq i wq
    cachedBlocks := Function.update s.cachedBlocks addr t.cachedBlocks
    pathSnapdir := Function.update s.pathSnapdir addr t.pathSnapdir
    snapblocks := t.snapblocks
    ran := Function.update s.ran addr (s.ran addr ++ [(o, w)]) }

end SnapshotDirs

/-- All devices together, registered before anything else and with no snapblocks
file at first. -/
def dirsMachine [DecidableEq ι] (hash : UInt64 → ℕ) (maxEntries fuel : ℕ) (path : ι → CStr) :
    Machine (SnapshotDirs ι) (DirsAct ι) where
  init s := (∀ i, s.object i = initObjectData (path i)) ∧ (∀ i, s.wq i = []) ∧
    (∀ dir, s.snapblocks dir = none) ∧ s.opened = []
  step
    | s, .mount i kzalloc tv => some (s.mount i kzalloc tv)
    | s, .umount i kmalloc => some (s.umount i kmalloc)
    | s, .write i blockNr block h o => some (s.write i blockNr block h o)
    | s, .work i o =>
      match s.wq i with
      | [] => none
      | (addr, w) :: wq => (makeSnapshot hash maxEntries fuel o w (s.workState addr)).map fun r =>
          s.worked i addr w wq o r.1

/-- A work reads and writes no directory but its own. -/
theorem makeSnapshot_elsewhere {hash : UInt64 → ℕ} {maxEntries fuel : ℕ} (o : WorkOutcomes)
    {w : MakeSnapshotWork} {s : WorkState} {files : CStr → Option Bytes}
    (hpath : ∀ d, s.pathSnapdir = some d → d = w.dir)
    (hfile : files w.dir = s.snapblocks w.dir) :
    makeSnapshot hash maxEntries fuel o w { s with snapblocks := files } =
      (makeSnapshot hash maxEntries fuel o w s).map fun r =>
        ({ r.1 with snapblocks := Function.update files w.dir (r.1.snapblocks w.dir) }, r.2) := by
  have hsame : Function.update files w.dir (s.snapblocks w.dir) = files := by
    rw [← hfile, Function.update_eq_self]
  simp only [makeSnapshot]
  cases ensureCachedBlocksLruOk o.lruAlloc s.cachedBlocks with
  | none => simp [hsame]
  | some lru =>
    simp only
    split
    · simp [hsame]
    · cases hdir : ensurePathSnapdirOk o s.pathSnapdir w.originalDevName w.firstMountDate with
      | none => simp [hsame]
      | some dir =>
        have hd : dir = w.dir := ensurePathSnapdirOk_eq hpath hdir
        subst hd
        simp only [hfile]
        cases (ensureSnapblocksFileOk o (s.snapblocks w.dir)).1 with
        | failed => simp
        | errPtr => simp
        | opened content =>
          simp only [snapshotInto]
          cases fileLookup fuel o.headerRead w.blockNr content with
          | none => simp
          | some found =>
            cases found with
            | true => simp
            | false =>
              simp only
              split <;> simp

/-- It does the same in two states that agree on what belongs to its epoch. -/
theorem makeSnapshot_alike {hash : UInt64 → ℕ} {maxEntries fuel : ℕ} {o : WorkOutcomes}
    {w : MakeSnapshotWork} {s u t : WorkState} {e : WorkEnd}
    (hcached : u.cachedBlocks = s.cachedBlocks) (hpath : u.pathSnapdir = s.pathSnapdir)
    (hfile : u.snapblocks w.dir = s.snapblocks w.dir)
    (hown : ∀ d, s.pathSnapdir = some d → d = w.dir)
    (hmake : makeSnapshot hash maxEntries fuel o w s = some (t, e)) :
    ∃ u', makeSnapshot hash maxEntries fuel o w u = some (u', e) ∧
      u'.cachedBlocks = t.cachedBlocks ∧ u'.pathSnapdir = t.pathSnapdir ∧
      u'.snapblocks w.dir = t.snapblocks w.dir := by
  have hu : u = { s with snapblocks := u.snapblocks } := by rw [← hcached, ← hpath]
  rw [hu, makeSnapshot_elsewhere o hown hfile, hmake]
  exact ⟨_, rfl, rfl, rfl, Function.update_self _ _ _⟩

namespace SnapshotDirs
variable {hash : UInt64 → ℕ} {maxEntries fuel : ℕ} {path : ι → CStr} {s : SnapshotDirs ι}

/-- The works of the epoch did what they do with nobody else around. -/
def Isolated (hash : UInt64 → ℕ) (maxEntries fuel : ℕ) (path : ι → CStr) (s : SnapshotDirs ι)
    (x : Opening ι) : Prop :=
  ∃ t, (epochMachine hash maxEntries fuel (x.dir path)).run .fresh (s.ran x.addr) = some t ∧
    t.cachedBlocks = s.cachedBlocks x.addr ∧ t.pathSnapdir = s.pathSnapdir x.addr ∧
    t.snapblocks (x.dir path) = s.snapblocks (x.dir path)

/-- No other epoch has the directory of `x`. -/
def Alone (path : ι → CStr) (s : SnapshotDirs ι) (x : Opening ι) : Prop :=
  ∀ y ∈ s.opened, y.addr ≠ x.addr → y.dir path ≠ x.dir path

/-- What holds of the epochs in every reachable state. -/
structure Inv (hash : UInt64 → ℕ) (maxEntries fuel : ℕ) (path : ι → CStr)
    (s : SnapshotDirs ι) : Prop where
  name : ∀ i, (s.object i).originalDevName = devName path i
  active : ∀ i, (s.object i).Active
  dated : ∀ i e, (s.object i).e = some e → ∃ x ∈ s.opened, x.dev = i ∧ x.addr = e.addr ∧
    e.firstMountDate = firstMountDate x.tv
  queued : ∀ i, ∀ q ∈ s.wq i, ∃ x ∈ s.opened, x.addr = q.1 ∧ q.2.dir = x.dir path
  fresh : ∀ x ∈ s.opened, x.addr < s.nextAddr
  nodup : (s.opened.map Opening.addr).Nodup
  files : ∀ dir, s.snapblocks dir ≠ none → ∃ x ∈ s.opened, x.dir path = dir
  handles : ∀ x ∈ s.opened, (s.workState x.addr).Ok hash (x.dir path)
  isolated : ∀ x ∈ s.opened, s.Alone path x → s.Isolated hash maxEntries fuel path x

theorem Inv.addr_inj (h : s.Inv hash maxEntries fuel path) {x y : Opening ι} (hx : x ∈ s.opened)
    (hy : y ∈ s.opened) (heq : x.addr = y.addr) : x = y :=
  List.inj_on_of_nodup_map h.nodup hx hy heq

variable [DecidableEq ι]

/-- An event that opens no epoch. -/
theorem Inv.setObject (h : s.Inv hash maxEntries fuel path) {i : ι} {data : ObjectData}
    (hname : data.originalDevName = (s.object i).originalDevName) (hactive : data.Active)
    (hsame : ∀ e', data.e = some e' → ∃ e, (s.object i).e = some e ∧ e'.addr = e.addr ∧
      e'.firstMountDate = e.firstMountDate) :
    Inv hash maxEntries fuel path { s with object := Function.update s.object i data } := by
  refine ⟨fun j => ?_, fun j => ?_, fun j e' he' => ?_, h.queued, h.fresh, h.nodup, h.files,
    h.handles, h.isolated⟩
  · by_cases hj : j = i
    · subst hj
      simp only [Function.update_self, hname, h.name]
    · simp only [Function.update_of_ne hj, h.name]
  · by_cases hj : j = i
    · subst hj
      simpa only [Function.update_self] using hactive
    · simpa only [Function.update_of_ne hj] using h.active j
  · by_cases hj : j = i
    · subst hj
      simp only [Function.update_self] at he'
      obtain ⟨e, he, haddr, hdate⟩ := hsame e' he'
      rw [haddr, hdate]
      exact h.dated j e he
    · simp only [Function.update_of_ne hj] at he'
      exact h.dated j e' he'

theorem Inv.umount (h : s.Inv hash maxEntries fuel path) (i : ι) (kmalloc : Bool) :
    Inv hash maxEntries fuel path (s.umount i kmalloc) := by
  apply h.setObject (ObjectData.countUmount_originalDevName _ _) ((h.active i).countUmount kmalloc)
  intro e' he'
  cases he : (s.object i).e with
  | none =>
    rw [ObjectData.countUmount_of_none he, he] at he'
    cases he'
  | some e =>
    rcases (h.active i).countUmount_cases he kmalloc with
      ⟨-, hnone, -⟩ | ⟨-, left, hleft, -, -, haddr, hdate⟩
    · rw [hnone] at he'
      cases he'
    · rw [hleft, Option.some.injEq] at he'
      subst he'
      exact ⟨e, rfl, haddr, hdate⟩

/-- The first mount of an epoch. -/
theorem Inv.open (h : s.Inv hash maxEntries fuel path) {i : ι} (he : (s.object i).e = none)
    (tv : ClockSec) : Inv hash maxEntries fuel path { s with
      object := Function.update s.object i ((s.object i).countMount (some s.nextAddr) tv)
      cachedBlocks := Function.update s.cachedBlocks s.nextAddr none
      pathSnapdir := Function.update s.pathSnapdir s.nextAddr none
      nextAddr := s.nextAddr + 1
      opened := s.opened ++ [⟨i, s.nextAddr, tv⟩]
      ran := Function.update s.ran s.nextAddr [] } := by
  have hold : ∀ x ∈ s.opened, x.addr ≠ s.nextAddr := fun x hx => (h.fresh x hx).ne
  have hnew := ObjectData.countMount_of_none he (some s.nextAddr) tv
  rw [Option.map_some] at hnew
  constructor
  · intro j
    by_cases hj : j = i
    · subst hj
      simp only [Function.update_self, ObjectData.countMount_originalDevName]
      exact h.name j
    · simp only [Function.update_of_ne hj]
      exact h.name j
  · intro j
    by_cases hj : j = i
    · subst hj
      simp only [Function.update_self]
      exact (h.active j).countMount _ _
    · simp only [Function.update_of_ne hj]
      exact h.active j
  · intro j e' he'
    by_cases hj : j = i
    · subst hj
      simp only [Function.update_self, hnew, Option.some.injEq] at he'
      subst he'
      refine ⟨⟨j, s.nextAddr, tv⟩, by simp, rfl, rfl, ?_⟩
      simp [Epoch.countMount, Epoch.zeroed]
    · simp only [Function.update_of_ne hj] at he'
      obtain ⟨x, hx, hdated⟩ := h.dated j e' he'
      exact ⟨x, List.mem_append_left _ hx, hdated⟩
  · intro j q hq
    obtain ⟨x, hx, hqueued⟩ := h.queued j q hq
    exact ⟨x, List.mem_append_left _ hx, hqueued⟩
  · intro x hx
    rcases List.mem_append.mp hx with hx | hx
    · exact Nat.lt_succ_of_lt (h.fresh x hx)
    · rw [List.mem_singleton.mp hx]
      exact Nat.lt_succ_self _
  · have hnotin : s.nextAddr ∉ s.opened.map Opening.addr := by
      intro hmem
      obtain ⟨x, hx, haddr⟩ := List.mem_map.mp hmem
      exact hold x hx haddr
    simpa using h.nodup.concat hnotin
  · intro dir hdir
    obtain ⟨x, hx, heq⟩ := h.files dir hdir
    exact ⟨x, List.mem_append_left _ hx, heq⟩
  · intro x hx
    rcases List.mem_append.mp hx with hx | hx
    · simpa [workState, Function.update_of_ne (hold x hx)] using h.handles x hx
    · rw [List.mem_singleton.mp hx]
      constructor
      · simp [workState]
      · simp [workState]
  · intro x hx halone
    rcases List.mem_append.mp hx with hx | hx
    · have hisolated := h.isolated x hx fun y hy => halone y (List.mem_append_left _ hy)
      simpa only [Isolated, Function.update_of_ne (hold x hx)] using hisolated
    · obtain rfl := List.mem_singleton.mp hx
      have hnofile : s.snapblocks (Opening.dir path ⟨i, s.nextAddr, tv⟩) = none := by
        by_contra hfile
        obtain ⟨y, hy, hdir⟩ := h.files _ hfile
        exact halone y (List.mem_append_left _ hy) (hold y hy) hdir
      refine ⟨.fresh, by simp [Machine.run], ?_⟩
      simp [WorkState.fresh, hnofile]

theorem Inv.mount (h : s.Inv hash maxEntries fuel path) (i : ι) (kzalloc : Bool) (tv : ClockSec) :
    Inv hash maxEntries fuel path (s.mount i kzalloc tv) := by
  unfold SnapshotDirs.mount
  split
  · rename_i hopen
    exact h.open hopen.1 tv
  · apply h.setObject (ObjectData.countMount_originalDevName _ _ _)
      ((h.active i).countMount none tv)
    intro e' he'
    cases he : (s.object i).e with
    | none =>
      rw [ObjectData.countMount_of_none he] at he'
      cases he'
    | some e =>
      have hpos := (h.active i).pos e he
      rw [ObjectData.countMount_of_some he, Option.some.injEq] at he'
      subst he'
      refine ⟨e, rfl, rfl, ?_⟩
      simp only [Epoch.countMount]
      exact if_neg (by omega)

theorem Inv.write (h : s.Inv hash maxEntries fuel path) (i : ι) (blockNr : UInt64) (block : Bytes)
    (hlt : block.length < 2 ^ 32) (o : SubmitOutcomes) :
    Inv hash maxEntries fuel path (s.write i blockNr block hlt o) := by
  unfold SnapshotDirs.write
  cases he : (s.object i).e with
  | none => exact h
  | some e =>
    refine ⟨h.name, h.active, h.dated, fun j q hq => ?_, h.fresh, h.nodup, h.files,
      h.handles, h.isolated⟩
    by_cases hj : j = i
    · subst hj
      simp only [Function.update_self] at hq
      obtain ⟨x, hx, hdev, haddr, hdate⟩ := h.dated j e he
      have hcopied : ∀ msw : MakeSnapshotWork, msw.originalDevName = (s.object j).originalDevName →
          msw.firstMountDate = e.firstMountDate → msw.dir = x.dir path := by
        intro msw hname hfirst
        rw [MakeSnapshotWork.dir, Opening.dir, hname, hfirst, h.name, hdev, hdate]
      rcases submitBlock_eq o (s.wq j) (e.addr, ⟨blockNr, block, (s.object j).originalDevName,
        e.firstMountDate, hlt⟩) with hwq | hwq
      · rw [hwq] at hq
        exact h.queued j q hq
      · rw [hwq, List.mem_append, List.mem_singleton] at hq
        rcases hq with hq | rfl
        · exact h.queued j q hq
        · exact ⟨x, hx, haddr, hcopied _ rfl rfl⟩
    · simp only [Function.update_of_ne hj] at hq
      exact h.queued j q hq

/-- A work of the epoch `x` continues the run of `x` on its own. -/
theorem Isolated.work {x : Opening ι} {w : MakeSnapshotWork} {o : WorkOutcomes} {t : WorkState}
    {e : WorkEnd} (h : s.Isolated hash maxEntries fuel path x) (hdir : w.dir = x.dir path)
    (hok : (s.workState x.addr).Ok hash w.dir)
    (hmake : makeSnapshot hash maxEntries fuel o w (s.workState x.addr) = some (t, e))
    (i : ι) (wq : List (ℕ × MakeSnapshotWork)) :
    Isolated hash maxEntries fuel path (s.worked i x.addr w wq o t) x := by
  obtain ⟨u, hrun, hcached, hpath, hfile⟩ := h
  rw [← hdir] at hfile
  obtain ⟨u', hmake', hcached', hpath', hfile'⟩ :=
    makeSnapshot_alike hcached hpath hfile hok.path_eq hmake
  rw [hdir] at hfile'
  refine ⟨u', ?_, ?_, ?_, hfile'⟩
  · simp only [worked, Function.update_self, Machine.run_concat, hrun, Option.bind_some]
    simp only [epochMachine, hdir, if_true, hmake', Option.map_some]
  · simpa only [worked, Function.update_self] using hcached'
  · simpa only [worked, Function.update_self] using hpath'

/-- The execution of the work at the head of a queue. -/
theorem Inv.work (h : s.Inv hash maxEntries fuel path) {i : ι} {addr : ℕ} {w : MakeSnapshotWork}
    {wq : List (ℕ × MakeSnapshotWork)} {o : WorkOutcomes} {t : WorkState} {e : WorkEnd}
    (hwq : s.wq i = (addr, w) :: wq)
    (hmake : makeSnapshot hash maxEntries fuel o w (s.workState addr) = some (t, e)) :
    Inv hash maxEntries fuel path (s.worked i addr w wq o t) := by
  obtain ⟨x, hx, haddr, hdir⟩ := h.queued i (addr, w) (by rw [hwq]; exact List.mem_cons_self)
  simp only at haddr hdir
  subst haddr
  have hok : (s.workState x.addr).Ok hash w.dir := hdir ▸ h.handles x hx
  obtain ⟨hok', hframe, -⟩ := makeSnapshot_effect hok hmake
  refine ⟨h.name, h.active, h.dated, fun j q hq => ?_, h.fresh, h.nodup, fun dir hfile => ?_,
    fun y hy => ?_, fun y hy halone => ?_⟩
  · by_cases hj : j = i
    · subst hj
      simp only [worked, Function.update_self] at hq
      apply h.queued j q
      rw [hwq]
      exact List.mem_cons_of_mem _ hq
    · simp only [worked, Function.update_of_ne hj] at hq
      exact h.queued j q hq
  · by_cases hown : dir = w.dir
    · exact ⟨x, hx, by rw [hown, hdir]⟩
    · apply h.files dir
      rw [← show t.snapblocks dir = s.snapblocks dir from hframe dir hown]
      exact hfile
  · by_cases hyx : y.addr = x.addr
    · obtain rfl := h.addr_inj hy hx hyx
      simpa [worked, workState, ← hdir] using hok'
    · have hhandles := h.handles y hy
      constructor
      · simpa [worked, workState, Function.update_of_ne hyx] using hhandles.cache_wf
      · simpa [worked, workState, Function.update_of_ne hyx] using hhandles.path_eq
  · by_cases hyx : y.addr = x.addr
    · obtain rfl := h.addr_inj hy hx hyx
      exact (h.isolated y hy halone).work hdir hok hmake i wq
    · have hother : y.dir path ≠ w.dir := by
        rw [hdir]
        exact (halone x hx (Ne.symm hyx)).symm
      obtain ⟨u, hrun, hcached, hpath, hfile⟩ := h.isolated y hy halone
      refine ⟨u, ?_, ?_, ?_, ?_⟩
      · simpa only [worked, Function.update_of_ne hyx] using hrun
      · simpa only [worked, Function.update_of_ne hyx] using hcached
      · simpa only [worked, Function.update_of_ne hyx] using hpath
      · exact hfile.trans (hframe _ hother).symm

theorem inv_of_reachable (h : (dirsMachine hash maxEntries fuel path).Reachable s) :
    s.Inv hash maxEntries fuel path := by
  apply h.invariant
  · rintro s ⟨hobject, hwq, hfiles, hopened⟩
    constructor
    · simp [hobject, devName]
    · intro i
      rw [hobject]
      exact ObjectData.initObjectData_active _
    · simp [hobject, initObjectData]
    · simp [hwq]
    · simp [hopened]
    · simp [hopened]
    · simp [hfiles]
    · simp [hopened]
    · simp [hopened]
  · intro s a s' hinv _ hstep
    cases a with
    | mount i kzalloc tv =>
      cases hstep
      exact hinv.mount i kzalloc tv
    | umount i kmalloc =>
      cases hstep
      exact hinv.umount i kmalloc
    | write i blockNr block hlt o =>
      cases hstep
      exact hinv.write i blockNr block hlt o
    | work i o =>
      simp only [dirsMachine] at hstep
      cases hwq : s.wq i with
      | nil => simp [hwq] at hstep
      | cons q wq =>
        obtain ⟨addr, w⟩ := q
        simp only [hwq, Option.map_eq_some_iff] at hstep
        obtain ⟨⟨t, e⟩, hmake, rfl⟩ := hstep
        exact hinv.work hwq hmake

/-- The law of the directories: an epoch's works go to the directory of its device
and first mount, two epochs have one directory iff they collide, and an epoch that
collides with no other has its directory to itself. -/
structure OwnDirs (hash : UInt64 → ℕ) (maxEntries fuel : ℕ) (path : ι → CStr)
    (s : SnapshotDirs ι) : Prop where
  current : ∀ i e, (s.object i).e = some e → ∃ x ∈ s.opened, x.dev = i ∧ x.addr = e.addr ∧
    subdirname (s.object i).originalDevName e.firstMountDate = x.dir path
  queued : ∀ i, ∀ q ∈ s.wq i, ∃ x ∈ s.opened, x.addr = q.1 ∧ q.2.dir = x.dir path
  distinct : (s.opened.map Opening.addr).Nodup
  same_dir : ∀ x ∈ s.opened, ∀ y ∈ s.opened,
    (x.dir path = y.dir path ↔ x.Collides path y)
  isolated : ∀ x ∈ s.opened, (∀ y ∈ s.opened, y.addr ≠ x.addr → ¬ y.Collides path x) →
    s.Isolated hash maxEntries fuel path x

end SnapshotDirs

open SnapshotDirs

/-- Two epochs share a snapshot directory exactly when their devices have one base
name and their first mounts fall into one second; otherwise neither notices the other. -/
theorem snapshot_dirs_by_name_and_second [DecidableEq ι] {hash : UInt64 → ℕ}
    {maxEntries fuel : ℕ} {path : ι → CStr} {s : SnapshotDirs ι}
    (h : (dirsMachine hash maxEntries fuel path).Reachable s) :
    s.OwnDirs hash maxEntries fuel path := by
  have hinv := inv_of_reachable h
  constructor
  · intro i e he
    obtain ⟨x, hx, hdev, haddr, hdate⟩ := hinv.dated i e he
    refine ⟨x, hx, hdev, haddr, ?_⟩
    rw [hinv.name, hdate, ← hdev, Opening.dir]
  · exact hinv.queued
  · exact hinv.nodup
  · intro x _ y _
    exact Opening.dir_eq_iff path x y
  · intro x hx halone
    apply hinv.isolated x hx
    intro y hy haddr hdir
    exact halone y hy haddr ((Opening.dir_eq_iff path y x).mp hdir)

/-- Two images of the same name in different places. -/
def imgPath (i : Bool) : CStr := if i then "/a/img".toList else "/b/img".toList

/-- Both registered, none mounted. -/
def imgDirs : SnapshotDirs Bool where
  object i := initObjectData (imgPath i)
  wq _ := []
  cachedBlocks _ := none
  pathSnapdir _ := none
  snapblocks _ := none
  nextAddr := 0
  opened := []
  ran _ := []

theorem imgDirs_init (hash : UInt64 → ℕ) (maxEntries fuel : ℕ) :
    (dirsMachine hash maxEntries fuel imgPath).init imgDirs :=
  ⟨fun _ => rfl, fun _ => rfl, fun _ => rfl, rfl⟩

/-- Both mounted, at the seconds `a` and `b`, then a write to block 7 of each. -/
def imgWrites (a b : ClockSec) : List (DirsAct Bool) :=
  [.mount false true a, .mount true true b,
    .write false 7 [1] (by decide) ⟨true, true, true, true⟩,
    .write true 7 [2] (by decide) ⟨true, true, true, true⟩,
    .work false .allDone, .work true .allDone]

theorem snapshot_dirs_by_name_and_second_img :
    ∃ s, (dirsMachine (fun _ => 0) 4 4 imgPath).run imgDirs
      (imgWrites ⟨5, by decide⟩ ⟨6, by decide⟩) = some s ∧
      s.OwnDirs (fun _ => 0) 4 4 imgPath :=
  ⟨_, Machine.run_eq_getD _ _ _ (by decide +kernel), snapshot_dirs_by_name_and_second
    (Machine.reachable_of_run (imgDirs_init _ _ _) _
      (Machine.run_eq_getD _ _ _ (by decide +kernel)))⟩

/-- Mounted in one second they share the directory, and the original of the second
image is dropped, since its block number is found there. -/
theorem snapshot_dirs_collide :
    ∃ s, (dirsMachine (fun _ => 0) 4 4 imgPath).run imgDirs
      (imgWrites ⟨5, by decide⟩ ⟨5, by decide⟩) = some s ∧
      s.opened.map (fun x => (x.dev, x.addr, x.dir imgPath)) =
        [(false, 0, "img-1970-01-01_00:00:05".toList),
          (true, 1, "img-1970-01-01_00:00:05".toList)] ∧
      s.snapblocks "img-1970-01-01_00:00:05".toList =
        some (Record.raw 7 [1] (by decide)).encode := by
  refine ⟨_, Machine.run_eq_getD _ _ _ (by decide +kernel), ?_⟩
  decide +kernel

end BlkdevSnapshot

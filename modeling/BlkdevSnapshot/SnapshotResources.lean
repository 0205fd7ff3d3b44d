import BlkdevSnapshot.ResourceLedger
import BlkdevSnapshot.SnapshotHandles
import Mathlib.Tactic.Abel

/-!
# The resources of the snapshot works

The references, files and allocations of all works of an epoch in one ledger, up to the
`destroy_an_epoch` that ends it. What a work loses stays in the ledger for ever; a step
through a handle that is not valid is a misuse, and no ledger replays it.
-/
namespace BlkdevSnapshot
open ResourceLedger Traced

/-- What a step does to the ledger. -/
def SnapStep.event : SnapStep → Option (Event SnapResource)
  | .acquire r => some (.acquire r)
  | .release r => some (.release r)
  | .misuse => some .misuse
  | .lookup (.dentry d) | .create (.dentry d) =>
    some (if d.state = .negative then .misuse else .use (.dentry d.id))
  | .lookup _ | .create _ => some .misuse
  | .read (.file id _) | .write (.file id _) => some (.use (.file id))
  | .read .err | .write .err => some .misuse
  | .ensuredPath _ _ | .ensuredFile _ _ => none

def events (steps : List SnapStep) : List (Event SnapResource) := steps.filterMap SnapStep.event

/-- The computation leads from one multiset of held resources to another. -/
def Spends {α : Type} (held : Multiset SnapResource) (x : SnapCalls α)
    (held' : Multiset SnapResource) : Prop :=
  Runs held (events x.steps) held'

/-- The computation fails in every ledger. -/
def Misuses {α : Type} (x : SnapCalls α) : Prop := ∀ held, replay held (events x.steps) = none

section Rules
variable {α β : Type} {x : SnapCalls α} {f : α → SnapCalls β}
  {held held' held'' : Multiset SnapResource} {l : List SnapStep}

theorem events_append (l l' : List SnapStep) : events (l ++ l') = events l ++ events l' :=
  List.filterMap_append

theorem Spends.bind (hx : Spends held x held') (hf : Spends held' (f x.val) held'') :
    Spends held (x >>= f) held'' := by
  rw [Spends, steps_bind, events_append]
  exact hx.append hf

theorem spends_pure (a : α) : Spends held (pure a) held := runs_nil

theorem Spends.frame (hx : Spends held x held') (frame : Multiset SnapResource) :
    Spends (held + frame) x (held' + frame) :=
  Runs.frame hx frame

theorem Misuses.bind_left (hx : Misuses x) : Misuses (x >>= f) := by
  intro held
  rw [steps_bind, events_append, replay_append, hx held, Option.bind_none]

theorem Misuses.bind_right (hf : Misuses (f x.val)) : Misuses (x >>= f) := by
  intro held
  rw [steps_bind, events_append, replay_append]
  simp [hf _]

end Rules

/-- The reference that a handle stands for. -/
def Handle.held : Handle → Multiset SnapResource
  | .dentry d => {.dentry d.id}
  | _ => 0

section Mkdir
variable (conv : MkdirConvention) (m : MkdirCalls)

/-- Another object is in the place of the directory. -/
def MkdirCalls.Strays : Prop := ∃ f, m.vfsPathLookup = some f ∧ f.kind ≠ .dir

/-- What `mkdir_may_exist` keeps of another object. -/
def MkdirCalls.lost : Multiset SnapResource :=
  match m.vfsPathLookup with
  | some f => if f.kind = .dir then 0 else {.dentry f.dentry}
  | none => 0

theorem MkdirCalls.lost_eq_zero : m.lost = 0 ↔ ¬ m.Strays := by
  unfold MkdirCalls.lost MkdirCalls.Strays
  rcases m.vfsPathLookup with - | f
  · simp
  · by_cases hkind : f.kind = .dir <;> simp [hkind]

theorem mkdirMayExist_spends (mnt : ℕ) {parent : Dentry} (hparent : parent.state ≠ .negative)
    {held : Multiset SnapResource} (hmem : .dentry parent.id ∈ held) :
    Spends held (mkdirMayExist conv m mnt parent)
      ((mkdirMayExist conv m mnt parent).val.held + (m.lost + held)) := by
  unfold mkdirMayExist mkdirViaNameByDent MkdirCalls.lost
  rcases m.vfsPathLookup with - | f
  · cases m.mntWantWrite with
    | false =>
      simp [Spends, events, SnapStep.event, Runs, replay, replayEvent, Handle.held, hparent, hmem]
    | true =>
      rcases m.newDentry with - | d
      · simp [Spends, events, SnapStep.event, Runs, replay, replayEvent, Handle.held, hparent, hmem]
      · cases conv <;> rcases m.vfsMkdir with - | id <;>
          simp [Spends, events, SnapStep.event, Runs, replay, replayEvent, Handle.held, hparent,
            hmem]
  · by_cases hkind : f.kind = .dir <;>
      simp [Spends, events, SnapStep.event, Runs, replay, replayEvent, Handle.held, hparent, hmem,
        hkind, pathPut]

theorem mkdirMayExist_misuses (mnt : ℕ) {parent : Dentry} (hparent : parent.state = .negative) :
    Misuses (mkdirMayExist conv m mnt parent) := by
  intro held
  simp [mkdirMayExist, events, SnapStep.event, replay, replayEvent, hparent]

end Mkdir

/-- What `*path_snapdir` holds. -/
def SnapPath.held (p : SnapPath) : Multiset SnapResource :=
  {.mnt p.mnt, .path p.addr, .dentry p.dentry.id}

def heldPath : Option SnapPath → Multiset SnapResource
  | none => 0
  | some p => p.held

theorem spends_release {held held' : Multiset SnapResource} {r : SnapResource}
    (h : held = r ::ₘ held') : Spends held (emit (.release r)) held' := by
  subst h
  exact runs_release held' r

theorem spends_pathPut {held held' : Multiset SnapResource} {d mnt : ℕ}
    (h : held = .dentry d ::ₘ .mnt mnt ::ₘ held') : Spends held (emits (pathPut d mnt)) held' := by
  subst h
  simp [Spends, pathPut, events, SnapStep.event, Runs, replay, replayEvent]

namespace HandleCalls
variable (conv : MkdirConvention) (o : HandleCalls) (held : Multiset SnapResource)

theorem initSubdir_spends (mnt : ℕ) (dSub : Handle) :
    Spends (dSub.held + held) (o.initSubdir mnt dSub)
      (heldPath (o.initSubdir mnt dSub).val.2 + held) := by
  unfold initSubdir
  rcases dSub with - | - | d
  · exact spends_pure _
  · exact spends_pure _
  · rcases o.pathAlloc with - | addr <;>
      simp [Spends, events, SnapStep.event, Runs, replay, replayEvent, Handle.held, heldPath,
        SnapPath.held]

/-- What the lookup of the subdirectory loses. -/
def lostSubdir : Handle → Multiset SnapResource
  | .dentry _ => o.subdir.lost
  | _ => 0

theorem initSnapshot_spends (mnt : ℕ) {dSnap : Handle}
    (hvalid : ∀ d, dSnap = .dentry d → d.state ≠ .negative) :
    Spends (dSnap.held + held) (initSnapshot conv o mnt dSnap)
      (heldPath (initSnapshot conv o mnt dSnap).val.2 + (o.lostSubdir dSnap + held)) := by
  rcases dSnap with - | - | d
  · simp only [initSnapshot, Handle.held, lostSubdir, val_pure, heldPath, zero_add]
    exact spends_pure _
  · simp only [initSnapshot, Handle.held, lostSubdir, val_pure, heldPath, zero_add]
    exact spends_pure _
  · have hmkdir := mkdirMayExist_spends conv o.subdir mnt (hvalid d rfl)
      (Multiset.mem_cons_self (.dentry d.id) held)
    refine hmkdir.bind ((spends_release ?_).bind (initSubdir_spends o _ mnt _))
    simp only [← Multiset.singleton_add, lostSubdir]
    abel

/-- What `init_path_snapdir` loses. -/
def lostInit (root mnt : ℕ) : Multiset SnapResource :=
  o.snapshot.lost + o.lostSubdir (mkdirMayExist conv o.snapshot mnt ⟨root, .dir⟩).val

/-- The dentry of `snapshot` can be used. -/
theorem snapshot_valid (hsnap : ∀ d, o.snapshot.Left conv d → d.state ≠ .negative) (mnt : ℕ)
    (root d : Dentry) (h : (mkdirMayExist conv o.snapshot mnt root).val = .dentry d) :
    d.state ≠ .negative := by
  by_cases hgives : o.snapshot.Gives conv
  · obtain ⟨d', hd', hor⟩ := mkdirMayExist_gives conv o.snapshot hgives mnt root
    rw [h] at hd'
    cases hd'
    exact hor.elim (fun hdir => by simp [hdir]) (hsnap d)
  · rw [mkdirMayExist_null conv o.snapshot hgives] at h
    cases h

theorem initPathSnapdir_spends {root mnt : ℕ} (hroot : o.root = some (root, mnt))
    (hsnap : ∀ d, o.snapshot.Left conv d → d.state ≠ .negative) :
    Spends held (initPathSnapdir conv o)
      (heldPath (initPathSnapdir conv o).val.2 + (lostInit conv o root mnt + held)) := by
  have hacquire : Spends held (emits [.acquire (.dentry root), .acquire (.mnt mnt)])
      (.mnt mnt ::ₘ .dentry root ::ₘ held) := rfl
  have hmem : .dentry root ∈ (.mnt mnt ::ₘ .dentry root ::ₘ held : Multiset SnapResource) := by
    simp
  have hroot' : (⟨root, .dir⟩ : Dentry).state ≠ .negative := by simp
  have hmkdir := mkdirMayExist_spends conv o.snapshot mnt hroot' hmem
  have hinit := initSnapshot_spends conv o
    (o.snapshot.lost + .mnt mnt ::ₘ .dentry root ::ₘ held) mnt
    (snapshot_valid conv o hsnap mnt ⟨root, .dir⟩)
  unfold initPathSnapdir
  simp only [hroot]
  refine hacquire.bind (hmkdir.bind (hinit.bind ((spends_pathPut ?_).bind (spends_pure _))))
  simp only [← Multiset.singleton_add, lostInit, val_bind, val_pure]
  abel

/-- What `ensure_path_snapdir_ok` loses where it makes a new path. -/
def lostNew : Multiset SnapResource :=
  match o.subdirnameAlloc, o.root with
  | some _, some (root, mnt) => lostInit conv o root mnt
  | _, _ => 0

theorem ensureNewPath_spends
    (hsnap : o.subdirnameAlloc.isSome → o.root.isSome → ∀ d, o.snapshot.Left conv d →
      d.state ≠ .negative) :
    Spends held (ensureNewPath conv o)
      (heldPath (ensureNewPath conv o).val.2 + (lostNew conv o + held)) := by
  unfold ensureNewPath lostNew
  rcases hsub : o.subdirnameAlloc with - | addr
  · simp only [val_pure, heldPath, zero_add]
    exact spends_pure _
  · rcases hroot : o.root with - | ⟨root, mnt⟩
    · simp [initPathSnapdir, hroot, Spends, events, SnapStep.event, Runs, replay, replayEvent,
        heldPath]
    · have hacquire : Spends held (emit (.acquire (.subdirname addr)))
          (.subdirname addr ::ₘ held) := rfl
      have hinit := initPathSnapdir_spends conv o (.subdirname addr ::ₘ held) hroot
        (hsnap (by simp [hsub]) (by simp [hroot]))
      refine hacquire.bind (hinit.bind ((spends_release ?_).bind (spends_pure _)))
      simp only [← Multiset.singleton_add, val_bind, val_pure]
      abel

/-- `path_put` and `kfree` of a broken directory. -/
theorem spends_dropPath (p : SnapPath) {α : Type} {x : SnapCalls α}
    {held' : Multiset SnapResource} (hx : Spends held x held') :
    Spends (p.held + held)
      (do emits (pathPut p.dentry.id p.mnt); emit (.release (.path p.addr)); x) held' := by
  refine (spends_pathPut ?_).bind ((spends_release rfl).bind hx)
  simp only [SnapPath.held, Multiset.insert_eq_cons, ← Multiset.singleton_add]
  abel

/-- What `ensure_path_snapdir_ok` loses. -/
def lostPath (s : EpochRefs) : Multiset SnapResource :=
  if s.pathSnapdir.isSome ∧ o.snapdirNow = .dir then 0 else lostNew conv o

theorem ensurePathSnapdirOk_spends (s : EpochRefs)
    (hsnap : o.Renews s → ∀ d, o.snapshot.Left conv d → d.state ≠ .negative) :
    Spends (heldPath s.pathSnapdir + held) (ensurePathSnapdirOk conv o (o.found s))
      (heldPath (ensurePathSnapdirOk conv o (o.found s)).val.2 + (lostPath conv o s + held)) := by
  have hnew (hkeeps : ¬ o.Keeps s) : Spends held (ensureNewPath conv o)
      (heldPath (ensureNewPath conv o).val.2 + (lostNew conv o + held)) :=
    ensureNewPath_spends conv o held fun hsub hroot => hsnap ⟨hkeeps, hsub, hroot⟩
  unfold Keeps at hnew
  rcases hp : s.pathSnapdir with - | p
  · have hkeeps : ¬ (s.pathSnapdir.isSome ∧ o.snapdirNow = .dir) := by simp [hp]
    simp only [found, hp, Option.map_none, ensurePathSnapdirOk, lostPath, heldPath, zero_add,
      Option.isSome_none, Bool.false_eq_true, false_and, if_false]
    exact hnew hkeeps
  · by_cases hdir : o.snapdirNow = .dir
    · simp only [found, hp, hdir, Option.map_some, ensurePathSnapdirOk, lostPath,
        Option.isSome_some, and_self, if_true, val_pure, zero_add]
      exact spends_pure _
    · have hkeeps : ¬ (s.pathSnapdir.isSome ∧ o.snapdirNow = .dir) := by simp [hdir]
      simp only [found, hp, hdir, Option.map_some, ensurePathSnapdirOk, lostPath, and_false,
        if_false, val_bind]
      exact spends_dropPath held p (hnew hkeeps)

/-- What `ensure_snapblocks_file_ok` keeps of an object that is no file. -/
def lostFile : Multiset SnapResource :=
  match o.fileLookup with
  | some f =>
    if f.kind = .reg ∨ f.kind = .special then 0 else {.mnt f.mnt, .dentry f.dentry}
  | none => 0

/-- The snapblocks file is found and cannot be opened. -/
def Unopenable : Prop :=
  ∃ f, o.fileLookup = some f ∧ (f.kind = .reg ∨ f.kind = .special) ∧ o.dentryOpen = none

theorem snapshotWith_spends {p : SnapPath} (hp : p.dentry.state ≠ .negative)
    (hopen : ¬ o.Unopenable) :
    Spends (p.held + held) (o.snapshotWith (some p)) (o.lostFile + (p.held + held)) := by
  have hmem : .dentry p.dentry.id ∈ p.held + held := by simp [SnapPath.held]
  generalize p.held + held = held at hmem
  unfold Unopenable at hopen
  unfold snapshotWith ensureSnapblocksFileOk createSnapblocksFile snapHandle lostFile snapshotInto
    fput
  rcases hfile : o.fileLookup with - | f
  · rcases o.newFile with - | d
    · simp [Spends, events, SnapStep.event, List.filterMap_cons, Runs, replay, replayEvent, hp,
        hmem]
    · cases o.vfsCreate with
      | false =>
        simp [Spends, events, SnapStep.event, List.filterMap_cons, Runs, replay, replayEvent, hp,
          hmem]
      | true =>
        rcases o.dentryOpen with - | file <;> cases o.blockFound <;>
          simp [Spends, events, SnapStep.event, List.filterMap_cons, Runs, replay, replayEvent, hp,
            hmem]
  · by_cases hkind : f.kind = .reg ∨ f.kind = .special
    · rcases hdentry : o.dentryOpen with - | file
      · exact absurd ⟨f, hfile, hkind, hdentry⟩ hopen
      · cases o.blockFound <;>
          simp [Spends, events, SnapStep.event, List.filterMap_cons, Runs, replay, replayEvent, hp,
            hmem, hkind, pathPut]
    · simp [Spends, events, SnapStep.event, List.filterMap_cons, Runs, replay, replayEvent, hp,
        hmem, hkind]

/-- A work has a directory to go on with. -/
def Goes (s : EpochRefs) : Prop := o.Keeps s ∨ o.Renews s ∧ Inits conv o

/-- No step behind the cache goes through a handle that is not valid. -/
structure Sane (s : EpochRefs) : Prop where
  snapshot : o.Renews s → ∀ d, o.snapshot.Left conv d → d.state ≠ .negative
  subdir : o.Renews s → Inits conv o → ∀ d, o.subdir.Left conv d → d.state ≠ .negative
  file : Goes conv o s → ¬ o.Unopenable

/-- What a work loses behind the cache. -/
def lostMissed (s : EpochRefs) : Multiset SnapResource :=
  if (ensurePathSnapdirOk conv o (o.found s)).val.1 then o.lostFile + lostPath conv o s
  else lostPath conv o s

/-- The dentry that a work goes on with can be used exactly when no `vfs_mkdir` has left a
negative one. -/
theorem ensured_negative_iff {s : EpochRefs} {p : SnapPath}
    (hp : (ensurePathSnapdirOk conv o (o.found s)).val = (true, some p)) :
    p.dentry.state = .negative ↔
      o.Renews s ∧ Inits conv o ∧ ∃ d, o.subdir.Left conv d ∧ d.state = .negative := by
  by_cases hkeeps : o.Keeps s
  · obtain ⟨q, hq, hdir⟩ := found_of_keeps o s hkeeps
    have hval : (ensurePathSnapdirOk conv o (o.found s)).val = (true, some q) := by
      simp [hq, ensurePathSnapdirOk, hdir]
    rw [hp] at hval
    cases hval
    refine iff_of_false (by simp [hdir]) fun h => h.1.1 hkeeps
  · rw [(ensurePathSnapdirOk_of_not_keeps conv o s hkeeps).2] at hp
    have hcalls : o.subdirnameAlloc.isSome ∧ o.root.isSome := by
      by_contra hcalls
      rw [(ensureNewPath_eq conv o hcalls).2] at hp
      cases hp
    rw [(ensureNewPath_init conv o hcalls.1).2] at hp
    have hinits : Inits conv o := by
      by_contra hinits
      rw [initPathSnapdir_fails conv o hcalls.2 hinits] at hp
      cases hp
    obtain ⟨q, hq, hleft, hor⟩ := initPathSnapdir_inits conv o hcalls.2 hinits
    rw [hp] at hq
    cases hq
    constructor
    · intro hneg
      exact ⟨⟨hkeeps, hcalls⟩, hinits, _, hor.resolve_left (by simp [hneg]), hneg⟩
    · rintro ⟨-, -, d, hd, hneg⟩
      rw [hleft d hd, hneg]

theorem snapshotMissed_spends {s : EpochRefs} (hsane : Sane conv o s) :
    Spends (heldPath s.pathSnapdir + held) (snapshotMissed conv o s)
      (heldPath (snapshotMissed conv o s).val.pathSnapdir + (lostMissed conv o s + held)) := by
  have hpath := ensurePathSnapdirOk_spends conv o held s hsane.snapshot
  have hensured (h : Multiset SnapResource) (rv : Bool) (p : Option SnapPath) :
      Spends h (emit (.ensuredPath rv p)) h := rfl
  refine hpath.bind ((hensured _ _ _).bind (Spends.bind ?_ (spends_pure _)))
  simp only [snapshotMissed, val_bind, val_pure, lostMissed]
  obtain ⟨htrue, hfalse⟩ := ensurePathSnapdirOk_val conv o s
  by_cases hgoes : Goes conv o s
  · obtain ⟨p, hp⟩ := htrue hgoes
    have hstate : p.dentry.state ≠ .negative := by
      rw [Ne, ensured_negative_iff conv o hp]
      rintro ⟨hrenews, hinits, d, hd, hneg⟩
      exact hsane.subdir hrenews hinits d hd hneg
    rw [hp, snapshotEnsured, if_pos rfl]
    have hfile := snapshotWith_spends o (lostPath conv o s + held) hstate (hsane.file hgoes)
    rw [heldPath]
    convert hfile using 1
    abel
  · rw [hfalse hgoes, snapshotEnsured, if_neg Bool.false_ne_true]
    exact spends_pure _

theorem snapshotInto_misuses : Misuses (o.snapshotInto .err) := by
  refine Misuses.bind_left fun held => ?_
  simp [events, SnapStep.event, replay, replayEvent]

theorem snapshotWith_misuses {p : SnapPath}
    (h : p.dentry.state = .negative ∨ o.Unopenable) : Misuses (o.snapshotWith (some p)) := by
  rcases h with hneg | ⟨f, hf, hkind, hopen⟩
  · refine Misuses.bind_left (Misuses.bind_left fun held => ?_)
    simp [events, SnapStep.event, replay, replayEvent, snapHandle, hneg]
  · have hval : (o.ensureSnapblocksFileOk (snapHandle (some p))).val = (true, some .err) := by
      simp [ensureSnapblocksFileOk, hf, hkind, hopen]
    refine Misuses.bind_right (Misuses.bind_right ?_)
    rw [hval]
    exact snapshotInto_misuses o

/-- A directory without an inode is passed on to the next lookup. -/
theorem initPathSnapdir_misuses (hroot : o.root.isSome) {d : Dentry}
    (hleft : o.snapshot.Left conv d) (hneg : d.state = .negative) :
    Misuses (initPathSnapdir conv o) := by
  obtain ⟨⟨root, mnt⟩, hroot⟩ := Option.isSome_iff_exists.mp hroot
  unfold initPathSnapdir
  simp only [hroot]
  refine Misuses.bind_right (Misuses.bind_right (Misuses.bind_left ?_))
  rw [mkdirMayExist_left conv o.snapshot hleft]
  exact Misuses.bind_left (mkdirMayExist_misuses conv o.subdir mnt hneg)

theorem ensurePathSnapdirOk_misuses {s : EpochRefs} (hrenews : o.Renews s) {d : Dentry}
    (hleft : o.snapshot.Left conv d) (hneg : d.state = .negative) :
    Misuses (ensurePathSnapdirOk conv o (o.found s)) := by
  obtain ⟨hkeeps, hsub, hroot⟩ := hrenews
  have hnew : Misuses (ensureNewPath conv o) := by
    obtain ⟨addr, hsub⟩ := Option.isSome_iff_exists.mp hsub
    unfold ensureNewPath
    simp only [hsub]
    exact Misuses.bind_right (Misuses.bind_left
      (initPathSnapdir_misuses conv o hroot hleft hneg))
  unfold Keeps at hkeeps
  rcases hp : s.pathSnapdir with - | p
  · simpa only [found, hp, Option.map_none, ensurePathSnapdirOk] using hnew
  · have hdir : o.snapdirNow ≠ .dir := by simpa [hp] using hkeeps
    simp only [found, hp, Option.map_some, ensurePathSnapdirOk, hdir, if_false]
    exact Misuses.bind_right (Misuses.bind_right hnew)

theorem snapshotMissed_misuses {s : EpochRefs} (h : ¬ Sane conv o s) :
    Misuses (snapshotMissed conv o s) := by
  by_cases hsnap : o.Renews s → ∀ d, o.snapshot.Left conv d → d.state ≠ .negative
  · refine Misuses.bind_right (Misuses.bind_right (Misuses.bind_left ?_))
    obtain ⟨htrue, -⟩ := ensurePathSnapdirOk_val conv o s
    by_cases hgoes : Goes conv o s
    · obtain ⟨p, hp⟩ := htrue hgoes
      rw [hp]
      refine snapshotWith_misuses o ?_
      by_contra hfine
      obtain ⟨hneg, hopen⟩ := not_or.mp hfine
      rw [ensured_negative_iff conv o hp] at hneg
      exact h ⟨hsnap, fun hrenews hinits d hd hd' => hneg ⟨hrenews, hinits, d, hd, hd'⟩,
        fun _ => hopen⟩
    · refine absurd ⟨hsnap, fun hrenews hinits => ?_, fun hg => absurd hg hgoes⟩ h
      exact absurd (.inr ⟨hrenews, hinits⟩) hgoes
  · push Not at hsnap
    obtain ⟨hrenews, d, hleft, hneg⟩ := hsnap
    exact Misuses.bind_left (ensurePathSnapdirOk_misuses conv o hrenews hleft hneg)

/-! ## What is lost -/

/-- A work leaves references behind. -/
def Loses (s : EpochRefs) : Prop :=
  (o.Renews s ∧ (o.snapshot.Strays ∨ o.snapshot.Gives conv ∧ o.subdir.Strays)) ∨
    Goes conv o s ∧ ∃ f, o.fileLookup = some f ∧ f.kind ≠ .reg ∧ f.kind ≠ .special

theorem lostFile_eq_zero :
    o.lostFile = 0 ↔ ¬ ∃ f, o.fileLookup = some f ∧ f.kind ≠ .reg ∧ f.kind ≠ .special := by
  unfold lostFile
  rcases o.fileLookup with - | f
  · simp
  · cases hkind : f.kind <;> simp [hkind]

theorem lostInit_eq_zero (root mnt : ℕ) :
    lostInit conv o root mnt = 0 ↔
      ¬ (o.snapshot.Strays ∨ o.snapshot.Gives conv ∧ o.subdir.Strays) := by
  rw [lostInit, add_eq_zero, o.snapshot.lost_eq_zero, not_or]
  refine and_congr_right fun _ => ?_
  by_cases hgives : o.snapshot.Gives conv
  · obtain ⟨d, hd, -⟩ := mkdirMayExist_gives conv o.snapshot hgives mnt ⟨root, .dir⟩
    rw [hd, lostSubdir, o.subdir.lost_eq_zero]
    simp [hgives]
  · simp [mkdirMayExist_null conv o.snapshot hgives, lostSubdir, hgives]

theorem lostPath_eq_zero (s : EpochRefs) :
    lostPath conv o s = 0 ↔
      ¬ (o.Renews s ∧ (o.snapshot.Strays ∨ o.snapshot.Gives conv ∧ o.subdir.Strays)) := by
  unfold lostPath Renews Keeps
  by_cases hkeeps : s.pathSnapdir.isSome ∧ o.snapdirNow = .dir
  · rw [if_pos hkeeps]
    exact iff_of_true rfl fun h => h.1.1 hkeeps
  · rw [if_neg hkeeps, lostNew]
    rcases o.subdirnameAlloc with - | addr
    · simp
    · rcases o.root with - | ⟨root, mnt⟩
      · simp
      · simp only [lostInit_eq_zero, hkeeps, not_false_eq_true, Option.isSome_some, and_self,
          true_and]

theorem lostMissed_eq_zero (s : EpochRefs) : lostMissed conv o s = 0 ↔ ¬ Loses conv o s := by
  unfold lostMissed Loses
  obtain ⟨htrue, hfalse⟩ := ensurePathSnapdirOk_val conv o s
  by_cases hgoes : Goes conv o s
  · obtain ⟨p, hp⟩ := htrue hgoes
    rw [hp, if_pos rfl, add_eq_zero, lostFile_eq_zero, lostPath_eq_zero, not_or, and_comm]
    simp [hgoes]
  · rw [hfalse hgoes, if_neg Bool.false_ne_true, lostPath_eq_zero]
    simp [hgoes]

end HandleCalls

/-! ## Whole works -/

/-- The cache of an epoch. -/
def heldLru : Option ℕ → Multiset SnapResource
  | none => 0
  | some lru => {.lru lru}

/-- What the works of an epoch hold between them. -/
def EpochRefs.held (s : EpochRefs) : Multiset SnapResource :=
  heldPath s.pathSnapdir + heldLru s.cachedBlocks

namespace HandleCalls
variable (conv : MkdirConvention) (o : HandleCalls) (held : Multiset SnapResource)

/-- A new cache cannot be initialised. -/
def LruBroken (s : EpochRefs) : Prop :=
  s.cachedBlocks = none ∧ o.lruVmalloc.isSome ∧ o.lruInit = false

theorem ensureCachedBlocksLruOk_spends {s : EpochRefs} (h : ¬ o.LruBroken s) :
    Spends (heldLru s.cachedBlocks + held) (o.ensureCachedBlocksLruOk s.cachedBlocks)
      (heldLru (o.ensureCachedBlocksLruOk s.cachedBlocks).val + held) := by
  unfold LruBroken at h
  unfold ensureCachedBlocksLruOk
  rcases hcached : s.cachedBlocks with - | lru
  · rcases hvm : o.lruVmalloc with - | lru
    · exact spends_pure _
    · have hinit : o.lruInit = true := by simpa [hcached, hvm] using h
      simp [hinit, Spends, events, SnapStep.event, Runs, replay, replayEvent, heldLru]
  · exact spends_pure _

theorem ensureCachedBlocksLruOk_misuses {s : EpochRefs} (h : o.LruBroken s) :
    Misuses (o.ensureCachedBlocksLruOk s.cachedBlocks) := by
  obtain ⟨hnone, hvm, hinit⟩ := h
  obtain ⟨lru, hvm⟩ := Option.isSome_iff_exists.mp hvm
  intro held
  simp [ensureCachedBlocksLruOk, hnone, hvm, hinit, events, SnapStep.event, replay, replayEvent]

/-- What a work loses. -/
def lostWork (s : EpochRefs) : Multiset SnapResource :=
  if (o.ensureCachedBlocksLruOk s.cachedBlocks).val.isNone || o.lruLookup then 0
  else lostMissed conv o s

/-- A work that releases whatever it takes. -/
structure Clean (s : EpochRefs) : Prop where
  lru : ¬ o.LruBroken s
  sane : o.Misses s → Sane conv o s
  keeps : o.Misses s → ¬ Loses conv o s

theorem misses_iff (s : EpochRefs) :
    o.Misses s ↔
      ¬ ((o.ensureCachedBlocksLruOk s.cachedBlocks).val.isNone || o.lruLookup) = true := by
  rw [Misses, ← ensureCachedBlocksLruOk_isSome]
  cases (o.ensureCachedBlocksLruOk s.cachedBlocks).val <;> simp

theorem snapshotBody_spends {s : EpochRefs} (hlru : ¬ o.LruBroken s)
    (hsane : o.Misses s → Sane conv o s) :
    Spends (s.held + held) (snapshotBody conv o s)
      ((snapshotBody conv o s).val.held + (lostWork conv o s + held)) := by
  have hcached := ensureCachedBlocksLruOk_spends o (heldPath s.pathSnapdir + held) hlru
  have hstart : s.held + held =
      heldLru s.cachedBlocks + (heldPath s.pathSnapdir + held) := by
    rw [EpochRefs.held]
    abel
  have hmiss := misses_iff o s
  rw [hstart]
  refine hcached.bind ?_
  unfold snapshotBody lostWork
  rw [val_bind]
  generalize (o.ensureCachedBlocksLruOk s.cachedBlocks).val = lru at hmiss
  by_cases hexit : (lru.isNone || o.lruLookup) = true
  · rw [if_pos hexit, if_pos hexit, val_pure, EpochRefs.held, zero_add]
    convert spends_pure _ using 1
    abel
  · obtain ⟨hsnap, hsub, hfile⟩ := hsane (hmiss.mpr hexit)
    have hmissed := snapshotMissed_spends conv o (heldLru lru + held)
      (s := { s with cachedBlocks := lru }) ⟨hsnap, hsub, hfile⟩
    rw [if_neg hexit, if_neg hexit]
    convert hmissed using 1
    · abel
    · have hlost : lostMissed conv o { s with cachedBlocks := lru } = lostMissed conv o s := rfl
      have hheld : (snapshotMissed conv o { s with cachedBlocks := lru }).val.cachedBlocks = lru :=
        rfl
      rw [EpochRefs.held, hheld, hlost]
      abel

theorem snapshotBody_misuses {s : EpochRefs}
    (h : o.LruBroken s ∨ o.Misses s ∧ ¬ Sane conv o s) : Misuses (snapshotBody conv o s) := by
  rcases h with hlru | ⟨hmiss, hsane⟩
  · exact Misuses.bind_left (ensureCachedBlocksLruOk_misuses o hlru)
  · refine Misuses.bind_right ?_
    rw [if_neg ((misses_iff o s).mp hmiss)]
    refine snapshotMissed_misuses conv o fun h => hsane ?_
    exact ⟨h.snapshot, h.subdir, h.file⟩

theorem spends_freeWork {held held' : Multiset SnapResource} {work block : ℕ}
    (h : held = .block block ::ₘ .work work ::ₘ held') :
    Spends held (emits [.release (.block block), .release (.work work)]) held' := by
  subst h
  simp [Spends, events, SnapStep.event, Runs, replay, replayEvent]

/-- A work releases itself and its block, and the epoch keeps what it holds. -/
theorem makeSnapshot_spends {s : EpochRefs} (work block : ℕ) (hlru : ¬ o.LruBroken s)
    (hsane : o.Misses s → Sane conv o s) :
    Spends (s.held + ({.work work, .block block} + held)) (makeSnapshot conv o work block s)
      ((makeSnapshot conv o work block s).val.held + (lostWork conv o s + held)) := by
  have hbody := snapshotBody_spends conv o ({.work work, .block block} + held) hlru hsane
  refine hbody.bind ((spends_freeWork ?_).bind (spends_pure _))
  simp only [Multiset.insert_eq_cons, ← Multiset.singleton_add, makeSnapshot, val_bind, val_pure]
  abel

theorem makeSnapshot_misuses {s : EpochRefs} (work block : ℕ)
    (h : o.LruBroken s ∨ o.Misses s ∧ ¬ Sane conv o s) :
    Misuses (makeSnapshot conv o work block s) :=
  Misuses.bind_left (snapshotBody_misuses conv o h)

theorem lostWork_eq_zero (s : EpochRefs) :
    lostWork conv o s = 0 ↔ (o.Misses s → ¬ Loses conv o s) := by
  unfold lostWork
  rw [misses_iff]
  by_cases hexit : ((o.ensureCachedBlocksLruOk s.cachedBlocks).val.isNone || o.lruLookup) = true
  · rw [if_pos hexit]
    exact iff_of_true rfl fun h => absurd hexit h
  · rw [if_neg hexit, lostMissed_eq_zero]
    exact ⟨fun h _ => h, fun h => h hexit⟩

end HandleCalls

/-- `destroy_an_epoch`: the `struct path` is put, but not freed. -/
def EpochRefs.destroyAnEpoch (s : EpochRefs) : SnapCalls Unit := do
  match s.pathSnapdir with
  | some p => emits (pathPut p.dentry.id p.mnt)
  | none => pure ()
  match s.cachedBlocks with
  | some lru => emit (.release (.lru lru))
  | none => pure ()
  emit (.release .epoch)

/-- What `destroy_an_epoch` loses. -/
def lostEpoch : Option SnapPath → Multiset SnapResource
  | some p => {.path p.addr}
  | none => 0

theorem destroyAnEpoch_spends (s : EpochRefs) (held : Multiset SnapResource) :
    Spends (s.held + ({.epoch} + held)) s.destroyAnEpoch (lostEpoch s.pathSnapdir + held) := by
  obtain ⟨path, cached⟩ := s
  unfold EpochRefs.destroyAnEpoch EpochRefs.held
  rcases path with - | p <;> rcases cached with - | lru <;>
    simp [Spends, events, SnapStep.event, Runs, replay, replayEvent, heldPath, heldLru, lostEpoch,
      SnapPath.held, pathPut]

namespace EpochWorks
variable (conv : MkdirConvention)

/-- The works in the queue with their blocks. -/
def heldQueue (queue : List (ℕ × ℕ)) : Multiset SnapResource :=
  (queue.map fun w => ({.work w.1, .block w.2} : Multiset SnapResource)).sum

/-- What the epoch and its works hold. -/
def held (s : EpochWorks) : Multiset SnapResource := s.refs.held + heldQueue s.queue

/-- Everything so far replays, and some is lost. -/
def Ledger (s : EpochWorks) (lost : Multiset SnapResource) : Prop :=
  Runs {.epoch} (events s.steps) (s.held + ({.epoch} + lost))

/-- Something went wrong, or is lost. -/
def Spoilt (s : EpochWorks) : Prop :=
  (∃ lost, lost ≠ 0 ∧ s.Ledger lost) ∨ replay {.epoch} (events s.steps) = none

/-- The condition on an act for nothing to be lost. -/
def Clean (s : EpochWorks) : EpochWorkAct → Prop
  | .submit _ => True
  | .work o => s.queue ≠ [] → o.Clean conv s.refs

theorem queueSnapshotWork_spends (a : SubmitAllocs) (held : Multiset SnapResource) :
    Spends held a.queueSnapshotWork (heldQueue a.queueSnapshotWork.val.toList + held) := by
  unfold SubmitAllocs.queueSnapshotWork
  rcases a.msw with - | msw
  · simp [Spends, events, Runs, replay, heldQueue]
  · rcases a.block with - | block
    · simp [Spends, events, SnapStep.event, Runs, replay, replayEvent, heldQueue]
    · cases a.queued with
      | false => simp [Spends, events, SnapStep.event, Runs, replay, replayEvent, heldQueue]
      | true =>
        simp only [Spends, events, SnapStep.event, Runs, replay, replayEvent, heldQueue, steps_bind,
          steps_emit, if_true, steps_pure, val_bind, val_pure, List.append_nil, List.cons_append,
          List.nil_append, List.filterMap_cons, List.filterMap_nil, Option.bind_some,
          Option.toList_some, List.map_cons, List.map_nil, List.sum_cons, List.sum_nil, add_zero,
          Multiset.insert_eq_cons, Multiset.cons_add, Multiset.singleton_add, Option.some.injEq]
        exact Multiset.cons_swap _ _ _

variable {conv} {s s' : EpochWorks} {lost : Multiset SnapResource}

/-- The works so far with one more computation. -/
theorem ledger_of_spends {α : Type} {x : SnapCalls α} {lost' : Multiset SnapResource}
    (h : s.Ledger lost) (hsteps : s'.steps = s.steps ++ x.steps)
    (hx : Spends (s.held + ({.epoch} + lost)) x (s'.held + ({.epoch} + lost'))) :
    s'.Ledger lost' := by
  rw [Ledger, hsteps, events_append]
  exact h.append hx

theorem ledger_submit (h : s.Ledger lost) {a : SubmitAllocs}
    (hstep : step conv s (.submit a) = some s') : s'.Ledger lost := by
  cases hstep
  refine ledger_of_spends h rfl ?_
  convert queueSnapshotWork_spends a (s.held + ({.epoch} + lost)) using 1
  simp only [held, heldQueue, List.map_append, List.sum_append]
  abel

/-- A work that does not fail adds to what is lost. -/
theorem ledger_work (h : s.Ledger lost) {o : HandleCalls}
    (hlru : ¬ o.LruBroken s.refs) (hsane : o.Misses s.refs → o.Sane conv s.refs)
    (hstep : step conv s (.work o) = some s') :
    s'.Ledger (o.lostWork conv s.refs + lost) := by
  obtain ⟨queue, refs, steps⟩ := s
  rcases queue with - | ⟨⟨work, block⟩, queue⟩
  · cases hstep
  · cases hstep
    refine ledger_of_spends h rfl ?_
    have hmake := o.makeSnapshot_spends conv (heldQueue queue + ({.epoch} + lost)) work block hlru
      hsane
    convert hmake using 1
    · simp only [held, heldQueue, List.map_cons, List.sum_cons]
      abel
    · simp only [held]
      abel

/-- What went wrong stays wrong. -/
theorem replay_none_step {a : EpochWorkAct} (h : replay {.epoch} (events s.steps) = none)
    (hstep : step conv s a = some s') : replay {.epoch} (events s'.steps) = none := by
  have hsteps : ∃ l, s'.steps = s.steps ++ l := by
    cases a with
    | submit a =>
      cases hstep
      exact ⟨_, rfl⟩
    | work o =>
      obtain ⟨queue, refs, steps⟩ := s
      rcases queue with - | ⟨⟨work, block⟩, queue⟩
      · cases hstep
      · cases hstep
        exact ⟨_, rfl⟩
  obtain ⟨l, hl⟩ := hsteps
  rw [hl, events_append, replay_append, h, Option.bind_none]

/-- A work that misuses a handle. -/
theorem replay_none_work {o : HandleCalls}
    (hbad : o.LruBroken s.refs ∨ o.Misses s.refs ∧ ¬ o.Sane conv s.refs)
    (hstep : step conv s (.work o) = some s') : replay {.epoch} (events s'.steps) = none := by
  obtain ⟨queue, refs, steps⟩ := s
  rcases queue with - | ⟨⟨work, block⟩, queue⟩
  · cases hstep
  · cases hstep
    have hmake := o.makeSnapshot_misuses conv work block hbad
    simp only [events_append, replay_append]
    simp [hmake _]

theorem ledger_step {a : EpochWorkAct} (h : s.Ledger 0) (ha : s.Clean conv a)
    (hstep : step conv s a = some s') : s'.Ledger 0 := by
  cases a with
  | submit a => exact ledger_submit h hstep
  | work o =>
    have hqueue : s.queue ≠ [] := by
      rintro hnil
      simp [step, hnil] at hstep
    obtain ⟨hlru, hsane, hkeeps⟩ := ha hqueue
    have hwork := ledger_work h hlru hsane hstep
    rwa [(o.lostWork_eq_zero conv s.refs).mpr hkeeps, add_zero] at hwork

theorem spoilt_of_not_clean {a : EpochWorkAct} (h : s.Ledger 0) (ha : ¬ s.Clean conv a)
    (hstep : step conv s a = some s') : s'.Spoilt := by
  cases a with
  | submit a => exact absurd trivial ha
  | work o =>
    by_cases hbad : o.LruBroken s.refs ∨ o.Misses s.refs ∧ ¬ o.Sane conv s.refs
    · exact .inr (replay_none_work hbad hstep)
    · obtain ⟨hlru, hsane⟩ := not_or.mp hbad
      have hsane' : o.Misses s.refs → o.Sane conv s.refs := by
        intro hmiss
        by_contra hno
        exact hsane ⟨hmiss, hno⟩
      refine .inl ⟨_, fun hzero => ha fun _ => ?_, ledger_work h hlru hsane' hstep⟩
      rw [add_zero, o.lostWork_eq_zero] at hzero
      exact ⟨hlru, hsane', hzero⟩

/-- What is lost stays lost. -/
theorem Spoilt.step {a : EpochWorkAct} (h : s.Spoilt) (hstep : step conv s a = some s') :
    s'.Spoilt := by
  rcases h with ⟨lost, hlost, h⟩ | h
  · cases a with
    | submit a => exact .inl ⟨lost, hlost, ledger_submit h hstep⟩
    | work o =>
      by_cases hbad : o.LruBroken s.refs ∨ o.Misses s.refs ∧ ¬ o.Sane conv s.refs
      · exact .inr (replay_none_work hbad hstep)
      · obtain ⟨hlru, hsane⟩ := not_or.mp hbad
        refine .inl ⟨_, fun hzero => hlost ?_, ledger_work h hlru ?_ hstep⟩
        · exact (add_eq_zero.mp hzero).2
        · intro hmiss
          by_contra hno
          exact hsane ⟨hmiss, hno⟩
  · exact .inr (replay_none_step h hstep)

/-- All steps of the works and of the end of the epoch balance. -/
def Balanced (s : EpochWorks) : Prop :=
  Runs {.epoch} (events (s.steps ++ s.refs.destroyAnEpoch.steps)) 0

instance : Decidable s.Balanced := inferInstanceAs (Decidable (Runs _ _ _))

/-- With an empty queue the end of the epoch leaves what was lost before and then. -/
theorem balanced_iff_of_ledger (h : s.Ledger lost) (hqueue : s.queue = []) :
    s.Balanced ↔ lostEpoch s.refs.pathSnapdir + lost = 0 := by
  have hheld : s.held = s.refs.held := by simp [held, heldQueue, hqueue]
  rw [Ledger, hheld] at h
  have hend : Runs {.epoch} (events (s.steps ++ s.refs.destroyAnEpoch.steps))
      (lostEpoch s.refs.pathSnapdir + lost) := by
    rw [events_append]
    exact h.append (destroyAnEpoch_spends s.refs lost)
  refine ⟨fun h0 => hend.unique h0, fun h0 => ?_⟩
  rwa [h0] at hend

theorem lostEpoch_eq_zero (p : Option SnapPath) : lostEpoch p = 0 ↔ p = none := by
  rcases p with - | p <;> simp [lostEpoch]

theorem not_balanced_of_spoilt (h : s.Spoilt) (hqueue : s.queue = []) : ¬ s.Balanced := by
  rcases h with ⟨lost, hlost, h⟩ | h
  · rw [balanced_iff_of_ledger h hqueue, add_eq_zero, not_and]
    exact fun _ => hlost
  · rw [Balanced, events_append]
    exact not_runs_append h

end EpochWorks

/-- The resources of an epoch balance exactly when its works lose nothing and no directory is
left for `destroy_an_epoch`. -/
theorem epochWorks_balanced_iff {conv : MkdirConvention} {acts : List EpochWorkAct}
    {s : EpochWorks} (hrun : (EpochWorks.machine conv).run EpochWorks.opened acts = some s)
    (hqueue : s.queue = []) :
    s.Balanced ↔
      (EpochWorks.machine conv).Meets (EpochWorks.Clean conv) EpochWorks.opened acts ∧
        s.refs.pathSnapdir = none := by
  have hopened : EpochWorks.opened.Ledger 0 := by
    simp [EpochWorks.Ledger, EpochWorks.opened, events, EpochWorks.held, EpochRefs.held, heldPath,
      heldLru, EpochWorks.heldQueue, Runs, replay]
  have hgood (s : EpochWorks) (a : EpochWorkAct) (s' : EpochWorks) (h : s.Ledger 0)
      (ha : s.Clean conv a) (hstep : (EpochWorks.machine conv).step s a = some s') : s'.Ledger 0 :=
    EpochWorks.ledger_step h ha hstep
  have hbad (s : EpochWorks) (a : EpochWorkAct) (s' : EpochWorks) (h : s.Ledger 0)
      (ha : ¬ s.Clean conv a) (hstep : (EpochWorks.machine conv).step s a = some s') :
      s'.Spoilt :=
    EpochWorks.spoilt_of_not_clean h ha hstep
  have hdoom (s : EpochWorks) (a : EpochWorkAct) (s' : EpochWorks) (h : s.Spoilt)
      (hstep : (EpochWorks.machine conv).step s a = some s') : s'.Spoilt :=
    h.step hstep
  rcases Machine.run_ends hgood hbad hdoom hopened hrun with ⟨hmeets, h⟩ | ⟨hmeets, h⟩
  · rw [EpochWorks.balanced_iff_of_ledger h hqueue, add_zero, EpochWorks.lostEpoch_eq_zero]
    exact ⟨fun hnone => ⟨hmeets, hnone⟩, And.right⟩
  · exact iff_of_false (EpochWorks.not_balanced_of_spoilt h hqueue) fun hclean =>
      hmeets hclean.1

/-- One write, and its work. -/
def oneWork (o : HandleCalls) : List EpochWorkAct := [.submit ⟨some 4, some 5, true⟩, .work o]

/-- The epoch after the one work. -/
def afterOneWork (o : HandleCalls) : EpochWorks :=
  ((EpochWorks.machine .dentry).run EpochWorks.opened (oneWork o)).getD EpochWorks.opened

/-- A work that finds its directory and has no memory for the `struct path` gives back all
that it took. -/
theorem epochWorks_balanced_iff_pathless :
    let o := { unopenableCalls with pathAlloc := none }
    .acquire (.dentry 2) ∈ (afterOneWork o).steps ∧
    ((afterOneWork o).Balanced ↔
      (EpochWorks.machine .dentry).Meets (EpochWorks.Clean .dentry) EpochWorks.opened
          (oneWork o) ∧ (afterOneWork o).refs.pathSnapdir = none) ∧
    (afterOneWork o).Balanced :=
  ⟨by decide, epochWorks_balanced_iff rfl rfl, by decide +kernel⟩

/-- After a single good work the `struct path` of the epoch is never freed. -/
theorem not_epochWorks_balanced :
    let s := afterOneWork { unopenableCalls with dentryOpen := some 6 }
    (EpochWorks.machine .dentry).run EpochWorks.opened
        (oneWork { unopenableCalls with dentryOpen := some 6 }) = some s ∧
      s.queue = [] ∧
      Runs {.epoch} (events (s.steps ++ s.refs.destroyAnEpoch.steps)) {.path 3} ∧
      ¬ s.Balanced :=
  ⟨rfl, rfl, by decide +kernel, by decide +kernel⟩

end BlkdevSnapshot

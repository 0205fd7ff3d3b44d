import BlkdevSnapshot.DiskHistories

/-!
# Disks that are activated and deactivated

Any number of devices, each with its object while it is registered. An activation makes a new
object with a queue of its own; a deactivation takes the object away and ends its epoch,
but leaves the works that are queued. Events and writes of a device that is not registered are
seen by nobody. The objects of all activations run like devices that were registered from the
start, so what holds of the epochs of these holds of theirs.
-/
namespace BlkdevSnapshot
open FirstWrite SnapshotDirs

/-- An activation: how many came before it, and the path that was given. -/
structure DeviceActivation where
  nr : ℕ
  path : CStr
  deriving DecidableEq

/-- The object of an activation of a device. -/
structure ObjectId (δ : Type*) where
  dev : δ
  act : DeviceActivation
  deriving DecidableEq

/-- The path that the device of an object was activated with. -/
def ObjectId.path {δ : Type*} (o : ObjectId δ) : CStr := o.act.path

variable {δ : Type*} {N : δ → ℕ}

/-- The objects of all activations as the module sees them, the activation of each device that is
registered, the blocks of the devices, and the history of every epoch. -/
structure ActivatedDisks (δ : Type*) (N : δ → ℕ) where
  dirs : SnapshotDirs (ObjectId δ)
  registered : δ → Option DeviceActivation
  activations : ℕ
  image : ∀ i, Image (N i)
  begun : ∀ i, ℕ → Image (N i)
  since : ∀ i, ℕ → List (Fin (N i) × Block singlefilefsBlockSize)

/-- A request to the module, an event of a device, a write of a block, or the work at the head of
the queue of an object. -/
inductive ActivatedAct (δ : Type*) (N : δ → ℕ) where
  | activate (i : δ) (path : CStr)
  | deactivate (i : δ) (wlistnode wargs : Bool)
  | mount (i : δ) (kzalloc : Bool) (tv : ClockSec)
  | umount (i : δ) (kmalloc : Bool)
  | write (i : δ) (b : Fin (N i)) (block : Block singlefilefsBlockSize) (calls : SubmitOutcomes)
  | work (o : ObjectId δ) (outcomes : WorkOutcomes)

namespace ActivatedDisks
variable [DecidableEq δ]

/-- The insertion of a new object with `init_object_data`. -/
def insert (i : δ) (path : CStr) (s : ActivatedDisks δ N) : ActivatedDisks δ N :=
  let act : DeviceActivation := ⟨s.activations, path⟩
  { s with
    dirs := { s.dirs with
      object := Function.update s.dirs.object ⟨i, act⟩ (initObjectData path)
      wq := Function.update s.dirs.wq ⟨i, act⟩ [] }
    registered := Function.update s.registered i (some act)
    activations := s.activations + 1 }

/-- `register_device`, which fails for a device that is registered. -/
def activate (i : δ) (path : CStr) (s : ActivatedDisks δ N) : ActivatedDisks δ N :=
  match s.registered i with
  | some _ => s
  | none => s.insert i path

/-- The removal of an object with `cleanup_object_data`. -/
def remove (o : ObjectId δ) (wlistnode wargs : Bool) (s : ActivatedDisks δ N) :
    ActivatedDisks δ N :=
  { s with
    dirs := { s.dirs with
      object := Function.update s.dirs.object o
        (cleanupObjectData wlistnode wargs (s.dirs.object o)).1 }
    registered := Function.update s.registered o.dev none }

/-- `unregister_device` -/
def deactivate (i : δ) (wlistnode wargs : Bool) (s : ActivatedDisks δ N) : ActivatedDisks δ N :=
  match s.registered i with
  | none => s
  | some act => s.remove ⟨i, act⟩ wlistnode wargs

/-- A mount event for an object. Its next epoch starts with the image of its device. -/
def mountObject (o : ObjectId δ) (kzalloc : Bool) (tv : ClockSec) (s : ActivatedDisks δ N) :
    ActivatedDisks δ N :=
  if (s.dirs.object o).e = none ∧ kzalloc = true then
    { s with
      dirs := s.dirs.mount o kzalloc tv
      begun := Function.update s.begun o.dev
        (Function.update (s.begun o.dev) s.dirs.nextAddr (s.image o.dev))
      since := Function.update s.since o.dev
        (Function.update (s.since o.dev) s.dirs.nextAddr []) }
  else { s with dirs := s.dirs.mount o kzalloc tv }

/-- A mount event. -/
def mount (i : δ) (kzalloc : Bool) (tv : ClockSec) (s : ActivatedDisks δ N) :
    ActivatedDisks δ N :=
  match s.registered i with
  | none => s
  | some act => s.mountObject ⟨i, act⟩ kzalloc tv

/-- An umount event. -/
def umount (i : δ) (kmalloc : Bool) (s : ActivatedDisks δ N) : ActivatedDisks δ N :=
  match s.registered i with
  | none => s
  | some act => { s with dirs := s.dirs.umount ⟨i, act⟩ kmalloc }

/-- A write to a block, which is noted if the device has an epoch. -/
def writeObject (o : ObjectId δ) (b : Fin (N o.dev)) (block : Block singlefilefsBlockSize)
    (calls : SubmitOutcomes) (s : ActivatedDisks δ N) : ActivatedDisks δ N :=
  { s with
    dirs := s.dirs.write o (UInt64.ofNat b) (s.image o.dev b).val
      (CapturedBlock.length_lt (s.image o.dev b)) calls
    image := Function.update s.image o.dev (Function.update (s.image o.dev) b block)
    since := match (s.dirs.object o).e with
      | none => s.since
      | some e => Function.update s.since o.dev
          (Function.update (s.since o.dev) e.addr (s.since o.dev e.addr ++ [(b, block)])) }

/-- A write to a block, which hands over what the block is about to lose to the object that the
device has. -/
def write (i : δ) (b : Fin (N i)) (block : Block singlefilefsBlockSize) (calls : SubmitOutcomes)
    (s : ActivatedDisks δ N) : ActivatedDisks δ N :=
  match s.registered i with
  | none => { s with image := Function.update s.image i (Function.update (s.image i) b block) }
  | some act => s.writeObject ⟨i, act⟩ b block calls

/-- The image after the last write of an epoch. -/
def ended (s : ActivatedDisks δ N) (i : δ) (addr : ℕ) : Image (N i) :=
  applyWrites (s.begun i addr) (s.since i addr)

/-- The bytes of the snapblocks file of an epoch. -/
def content (s : ActivatedDisks δ N) (x : Opening (ObjectId δ)) : Bytes :=
  (s.dirs.snapblocks (x.dir ObjectId.path)).getD []

end ActivatedDisks

/-- All disks together, with nothing registered at first. -/
def activatedMachine [DecidableEq δ] (hash : UInt64 → ℕ) (maxEntries fuel : ℕ) (N : δ → ℕ) :
    Machine (ActivatedDisks δ N) (ActivatedAct δ N) where
  init s := (∀ i, s.registered i = none) ∧ (∀ o, s.dirs.wq o = []) ∧
    (∀ dir, s.dirs.snapblocks dir = none) ∧ s.dirs.opened = []
  step
    | s, .activate i path => some (s.activate i path)
    | s, .deactivate i wlistnode wargs => some (s.deactivate i wlistnode wargs)
    | s, .mount i kzalloc tv => some (s.mount i kzalloc tv)
    | s, .umount i kmalloc => some (s.umount i kmalloc)
    | s, .write i b block calls => some (s.write i b block calls)
    | s, .work o outcomes =>
      match s.dirs.wq o with
      | [] => none
      | (addr, w) :: wq =>
        (makeSnapshot hash maxEntries fuel outcomes w (s.dirs.workState addr)).map fun r =>
          { s with dirs := s.dirs.worked o addr w wq outcomes r.1 }

/-! ## Functions of two arguments -/

section Update
variable {ι κ : Type*} [DecidableEq ι] [DecidableEq κ] {β : ι → Type*} (f : ∀ i, κ → β i)

theorem update_update_of_ne (i : ι) (v : β i) {k l : κ} (hne : l ≠ k) (j : ι) :
    Function.update f i (Function.update (f i) k v) j l = f j l := by
  by_cases hj : j = i
  · subst hj
    rw [Function.update_self, Function.update_of_ne hne]
  · rw [Function.update_of_ne hj]

theorem update_update_self (i : ι) (v : β i) (k : κ) :
    Function.update f i (Function.update (f i) k v) i k = v := by
  rw [Function.update_self, Function.update_self]

end Update

/-! ## Runs of disks that are always registered -/

namespace Disks
variable {ι : Type*} [DecidableEq ι] {M : ι → ℕ} {hash : UInt64 → ℕ} {maxEntries fuel : ℕ}
  {path : ι → CStr} {D : Disks ι M}

/-- An image with some of its blocks copied from another. -/
def copied {κ β : Type*} [DecidableEq κ] (bs : List κ) (img old : κ → β) : κ → β :=
  fun b => if b ∈ bs then img b else old b

section Copied
variable {κ β : Type*} [DecidableEq κ] (img old : κ → β)

theorem copied_nil : copied [] img old = old := by
  funext c
  simp [copied]

theorem copied_cons (b : κ) (bs : List κ) :
    copied (b :: bs) img old = Function.update (copied bs img old) b (img b) := by
  funext c
  by_cases hc : c = b
  · subst hc
    simp [copied]
  · simp [copied, hc]

theorem copied_all (bs : List κ) (hall : ∀ b, b ∈ bs) : copied bs img old = img := by
  funext c
  rw [copied, if_pos (hall c)]

end Copied

/-- Without an epoch a write changes its block and nothing else. -/
theorem step_write_unseen {i : ι} (he : (D.dirs.object i).e = none) (b : Fin (M i))
    (block : Block singlefilefsBlockSize) (calls : SubmitOutcomes) :
    (disksMachine hash maxEntries fuel path M).step D (.write i b block calls) =
      some { D with
        image := Function.update D.image i (Function.update (D.image i) b block) } := by
  simp [disksMachine, dirsMachine, label, note, writes, SnapshotDirs.write, he]

/-- Writes outside of all epochs take a device to any image. -/
theorem exists_copied (h : (disksMachine hash maxEntries fuel path M).Reach Healthy D)
    {i : ι} (he : (D.dirs.object i).e = none) (img : Image (M i)) :
    (disksMachine hash maxEntries fuel path M).Reach Healthy
      { D with image := Function.update D.image i img } := by
  have hsome : ∀ bs : List (Fin (M i)), (disksMachine hash maxEntries fuel path M).Reach Healthy
      { D with image := Function.update D.image i (copied bs img (D.image i)) } := by
    intro bs
    induction bs with
    | nil => simpa [copied_nil] using h
    | cons b bs ih =>
      have hstep := @step_write_unseen ι _ M hash maxEntries fuel path
        { D with image := Function.update D.image i (copied bs img (D.image i)) } i he b (img b)
        .allDone
      rw [copied_cons]
      simpa using ih.step (by trivial) hstep
  have hall := hsome (List.finRange (M i))
  rwa [copied_all _ _ _ List.mem_finRange] at hall

/-- Umounts take a device out of its epoch. -/
theorem exists_closed (h : (disksMachine hash maxEntries fuel path M).Reach Healthy D)
    (i : ι) :
    ∃ data : ObjectData, data.e = none ∧
      (disksMachine hash maxEntries fuel path M).Reach Healthy
        { D with dirs := { D.dirs with object := Function.update D.dirs.object i data } } := by
  have hactive := (SnapshotDirs.inv_of_reachable (dirs_reachable h)).active i
  generalize hn : (D.dirs.object i).counter.toNat = n
  induction n generalizing D with
  | zero =>
    have hnone : (D.dirs.object i).e = none := by
      cases he : (D.dirs.object i).e with
      | none => rfl
      | some e =>
        have hpos := hactive.pos e he
        simp only [ObjectData.counter, he, Option.map_some, Option.getD_some] at hn
        omega
    exact ⟨D.dirs.object i, hnone, by simpa using h⟩
  | succ n ih =>
    have hpos : 0 < (D.dirs.object i).counter := by omega
    have hcount := ObjectData.counter_countUmount hactive hpos true
    have humount : Healthy D (.umount i true) := trivial
    have hstep : (disksMachine hash maxEntries fuel path M).step D (.umount i true) =
        some { D with dirs := D.dirs.umount i true } := rfl
    have hless : ((D.dirs.umount i true).object i).counter.toNat = n := by
      simp only [SnapshotDirs.umount, Function.update_self]
      omega
    obtain ⟨data, hnone, hreach⟩ := ih (h.step humount hstep)
      (by simpa [SnapshotDirs.umount] using hactive.countUmount true) hless
    exact ⟨data, hnone, by simpa [SnapshotDirs.umount] using hreach⟩

end Disks

/-! ## Events with other objects in the state -/

namespace SnapshotDirs
variable {ι : Type*} [DecidableEq ι] {d : SnapshotDirs ι} {object : ι → ObjectData} {o : ι}

/-- Of the objects an event reads and writes that of its own device. -/
theorem mount_objects (ho : object o = d.object o) (kzalloc : Bool) (tv : ClockSec) :
    ({ d with object := object } : SnapshotDirs ι).mount o kzalloc tv =
      { d.mount o kzalloc tv with
        object := Function.update object o ((d.mount o kzalloc tv).object o) } := by
  simp only [SnapshotDirs.mount, ho]
  split <;> simp

theorem umount_objects (ho : object o = d.object o) (kmalloc : Bool) :
    ({ d with object := object } : SnapshotDirs ι).umount o kmalloc =
      { d.umount o kmalloc with
        object := Function.update object o ((d.umount o kmalloc).object o) } := by
  simp [SnapshotDirs.umount, ho]

theorem write_objects (ho : object o = d.object o) (blockNr : UInt64) (block : Bytes)
    (h : block.length < 2 ^ 32) (calls : SubmitOutcomes) :
    ({ d with object := object } : SnapshotDirs ι).write o blockNr block h calls =
      { d.write o blockNr block h calls with object := object } := by
  simp only [SnapshotDirs.write, ho]
  split <;> rfl

theorem mount_object_of_ne {o' : ι} (hne : o' ≠ o) (kzalloc : Bool) (tv : ClockSec) :
    (d.mount o kzalloc tv).object o' = d.object o' := by
  unfold SnapshotDirs.mount
  split <;> simp [Function.update_of_ne hne]

theorem mount_wq (o : ι) (kzalloc : Bool) (tv : ClockSec) : (d.mount o kzalloc tv).wq = d.wq := by
  unfold SnapshotDirs.mount
  split <;> rfl

theorem write_object (o : ι) (blockNr : UInt64) (block : Bytes) (h : block.length < 2 ^ 32)
    (calls : SubmitOutcomes) : (d.write o blockNr block h calls).object = d.object := by
  unfold SnapshotDirs.write
  split <;> rfl

theorem write_wq_of_ne {o' : ι} (hne : o' ≠ o) (blockNr : UInt64) (block : Bytes)
    (h : block.length < 2 ^ 32) (calls : SubmitOutcomes) :
    (d.write o blockNr block h calls).wq o' = d.wq o' := by
  unfold SnapshotDirs.write
  split
  · rfl
  · simp [Function.update_of_ne hne]

theorem write_opened (o : ι) (blockNr : UInt64) (block : Bytes) (h : block.length < 2 ^ 32)
    (calls : SubmitOutcomes) : (d.write o blockNr block h calls).opened = d.opened := by
  unfold SnapshotDirs.write
  split <;> rfl

end SnapshotDirs

namespace ActivatedDisks
variable [DecidableEq δ]

/-- All calls of the works and of the submissions succeed. -/
def WorksSucceed (_ : ActivatedDisks δ N) : ActivatedAct δ N → Prop
  | .work _ outcomes => outcomes.Succeeds
  | .write _ _ _ calls => calls.Succeeds
  | _ => True

/-- The blocks of the device of an object. -/
abbrev blocksOf (N : δ → ℕ) (o : ObjectId δ) : ℕ := N o.dev

/-- The device of the object is registered, and by its activation. -/
def Current (s : ActivatedDisks δ N) (o : ObjectId δ) : Prop := s.registered o.dev = some o.act

/-- The state of disks whose objects have all been registered from the start. -/
structure Related (D : Disks (ObjectId δ) (blocksOf N)) (s : ActivatedDisks δ N) : Prop where
  dirs : D.dirs = { s.dirs with object := D.dirs.object }
  used : ∀ o, s.Current o → o.act.nr < s.activations
  object : ∀ o, s.Current o → D.dirs.object o = s.dirs.object o
  image : ∀ o, s.Current o → D.image o = s.image o.dev
  unused : ∀ o, s.activations ≤ o.act.nr → D.dirs.object o = initObjectData o.path ∧
    s.dirs.wq o = []
  history : ∀ x ∈ D.dirs.opened, D.begun x.dev x.addr = s.begun x.dev.dev x.addr ∧
    D.since x.dev x.addr = s.since x.dev.dev x.addr

section Steps
variable {hash : UInt64 → ℕ} {maxEntries fuel : ℕ} {D : Disks (ObjectId δ) (blocksOf N)}
  {s : ActivatedDisks δ N}

omit [DecidableEq δ] in
/-- An object that is registered is none of those that are still unused. -/
theorem Related.ne_of_unused (h : Related D s) {o o' : ObjectId δ} (ho : s.Current o)
    (hunused : s.activations ≤ o'.act.nr) : o' ≠ o := by
  rintro rfl
  have hlt := h.used o' ho
  omega

omit [DecidableEq δ] in
/-- Two objects that are registered are of two devices. -/
theorem Current.dev_ne {o o' : ObjectId δ} (ho : s.Current o) (ho' : s.Current o') (hne : o' ≠ o) :
    o'.dev ≠ o.dev := by
  intro hdev
  obtain ⟨dev, act⟩ := o
  obtain ⟨dev', act'⟩ := o'
  obtain rfl : dev' = dev := hdev
  obtain rfl : act' = act := Option.some.inj (ho'.symm.trans ho)
  exact hne rfl

/-- Who is registered after an activation. -/
theorem current_insert {i : δ} {path : CStr} {o : ObjectId δ} (ho : (s.insert i path).Current o) :
    o = ⟨i, s.activations, path⟩ ∨ o ≠ ⟨i, s.activations, path⟩ ∧ s.Current o := by
  obtain ⟨dev, act⟩ := o
  by_cases hdev : dev = i
  · subst hdev
    simp only [Current, ActivatedDisks.insert, Function.update_self, Option.some.injEq] at ho
    rw [← ho]
    exact .inl rfl
  · simp only [Current, ActivatedDisks.insert, Function.update_of_ne hdev] at ho
    exact .inr ⟨fun heq => hdev (congrArg ObjectId.dev heq), ho⟩

/-- Who is registered after a deactivation. -/
theorem current_remove {o o' : ObjectId δ} {wlistnode wargs : Bool}
    (ho' : (s.remove o wlistnode wargs).Current o') : o' ≠ o ∧ s.Current o' := by
  by_cases hdev : o'.dev = o.dev
  · simp [Current, remove, hdev] at ho'
  · simp only [Current, remove, Function.update_of_ne hdev] at ho'
    exact ⟨fun heq => hdev (heq ▸ rfl), ho'⟩

variable (h : Related D s)
  (hD : (disksMachine hash maxEntries fuel ObjectId.path (blocksOf N)).Reach Healthy D)
include h hD

theorem Related.insert (i : δ) (path : CStr) :
    ∃ D', (disksMachine hash maxEntries fuel ObjectId.path (blocksOf N)).Reach Healthy D' ∧
      Related D' (s.insert i path) := by
  obtain ⟨hobject, hwq⟩ := h.unused ⟨i, s.activations, path⟩ le_rfl
  have hnone : (D.dirs.object ⟨i, s.activations, path⟩).e = none := by
    rw [hobject]
    rfl
  refine ⟨_, Disks.exists_copied hD hnone (s.image i), ?_, fun o ho => ?_, fun o ho => ?_,
    fun o ho => ?_, fun o ho => ?_, h.history⟩
  · simp only [ActivatedDisks.insert]
    rw [h.dirs]
    simp [← hwq]
  · rcases current_insert ho with rfl | ⟨-, hold⟩
    · exact Nat.lt_succ_self _
    · exact Nat.lt_succ_of_lt (h.used o hold)
  · simp only [ActivatedDisks.insert]
    rcases current_insert ho with rfl | ⟨hne, hold⟩
    · rw [Function.update_self, hobject]
      rfl
    · rw [Function.update_of_ne hne]
      exact h.object o hold
  · rcases current_insert ho with rfl | ⟨hne, hold⟩
    · exact Function.update_self _ _ _
    · exact (Function.update_of_ne hne _ _).trans (h.image o hold)
  · have hne : o ≠ ⟨i, s.activations, path⟩ := by
      rintro rfl
      exact absurd ho (Nat.not_succ_le_self _)
    have hle : s.activations ≤ o.act.nr := (Nat.le_succ _).trans ho
    simpa only [ActivatedDisks.insert, Function.update_of_ne hne] using h.unused o hle

theorem Related.remove {o : ObjectId δ} (ho : s.Current o) (wlistnode wargs : Bool) :
    ∃ D', (disksMachine hash maxEntries fuel ObjectId.path (blocksOf N)).Reach Healthy D' ∧
      Related D' (s.remove o wlistnode wargs) := by
  obtain ⟨data, -, hreach⟩ := Disks.exists_closed hD o
  refine ⟨_, hreach, ?_, fun o' ho' => h.used o' (current_remove ho').2, fun o' ho' => ?_,
    fun o' ho' => h.image o' (current_remove ho').2, fun o' ho' => ?_, h.history⟩
  · simp only [ActivatedDisks.remove]
    rw [h.dirs]
  · obtain ⟨hne, hold⟩ := current_remove ho'
    simpa only [ActivatedDisks.remove, Function.update_of_ne hne] using h.object o' hold
  · have hne : o' ≠ o := h.ne_of_unused ho ho'
    simpa only [ActivatedDisks.remove, Function.update_of_ne hne] using h.unused o' ho'

omit hD in
/-- The part of a mount event that is not about the history. -/
theorem Related.mounted {o : ObjectId δ} (ho : s.Current o) (kzalloc : Bool) (tv : ClockSec)
    {begun : ∀ o : ObjectId δ, ℕ → Image (N o.dev)}
    {since : ∀ o : ObjectId δ, ℕ → List (Fin (N o.dev) × Block singlefilefsBlockSize)}
    {begun' : ∀ i, ℕ → Image (N i)}
    {since' : ∀ i, ℕ → List (Fin (N i) × Block singlefilefsBlockSize)}
    (hhistory : ∀ x ∈ (D.dirs.mount o kzalloc tv).opened,
      begun x.dev x.addr = begun' x.dev.dev x.addr ∧ since x.dev x.addr = since' x.dev.dev x.addr) :
    Related ⟨D.dirs.mount o kzalloc tv, D.image, begun, since⟩
      ⟨s.dirs.mount o kzalloc tv, s.registered, s.activations, s.image, begun', since'⟩ := by
  have hdirs : D.dirs.mount o kzalloc tv = { s.dirs.mount o kzalloc tv with
      object := Function.update D.dirs.object o ((s.dirs.mount o kzalloc tv).object o) } := by
    conv_lhs => rw [h.dirs]
    exact mount_objects (h.object o ho) kzalloc tv
  refine ⟨?_, h.used, fun o' ho' => ?_, h.image, fun o' ho' => ?_, hhistory⟩
  · simp only [hdirs]
  · by_cases hne : o' = o
    · subst hne
      simp only [hdirs, Function.update_self]
    · simp only [mount_object_of_ne hne]
      exact h.object o' ho'
  · have hne : o' ≠ o := h.ne_of_unused ho ho'
    simp only [mount_object_of_ne hne, mount_wq]
    exact h.unused o' ho'

theorem Related.mountObject {o : ObjectId δ} (ho : s.Current o) (kzalloc : Bool) (tv : ClockSec) :
    ∃ D', (disksMachine hash maxEntries fuel ObjectId.path (blocksOf N)).Reach Healthy D' ∧
      Related D' (s.mountObject o kzalloc tv) := by
  have hstep : (disksMachine hash maxEntries fuel ObjectId.path (blocksOf N)).step D
      (.mount o kzalloc tv) =
        some { D.note (.mount o kzalloc tv) with dirs := D.dirs.mount o kzalloc tv } := rfl
  have hsame := h.object o ho
  have hnext : D.dirs.nextAddr = s.dirs.nextAddr := by rw [h.dirs]
  refine ⟨_, hD.step (by trivial) hstep, ?_⟩
  by_cases hopen : (s.dirs.object o).e = none ∧ kzalloc = true
  · have hopen' : (D.dirs.object o).e = none ∧ kzalloc = true := by rwa [hsame]
    rw [Disks.note, if_pos hopen', ActivatedDisks.mountObject, if_pos hopen]
    refine h.mounted ho kzalloc tv fun x hx => ?_
    rw [SnapshotDirs.mount, if_pos hopen'] at hx
    rcases List.mem_append.mp hx with hx | hx
    · have hlt := (SnapshotDirs.inv_of_reachable (Disks.dirs_reachable hD)).fresh x hx
      obtain ⟨hbegun, hsince⟩ := h.history x hx
      have hne' : x.addr ≠ s.dirs.nextAddr := by
        rw [← hnext]
        exact hlt.ne
      rw [update_update_of_ne s.begun _ _ hne', update_update_of_ne s.since _ _ hne', ← hbegun,
        ← hsince]
      exact ⟨update_update_of_ne D.begun _ _ hlt.ne _, update_update_of_ne D.since _ _ hlt.ne _⟩
    · obtain rfl := List.mem_singleton.mp hx
      simp only [hnext, update_update_self]
      refine ⟨?_, ?_⟩
      · rw [← h.image o ho, ← hnext]
        exact update_update_self D.begun _ _ _
      · rw [← hnext]
        exact update_update_self D.since _ _ _
  · have hopen' : ¬ ((D.dirs.object o).e = none ∧ kzalloc = true) := by rwa [hsame]
    rw [Disks.note, if_neg hopen', ActivatedDisks.mountObject, if_neg hopen]
    refine h.mounted ho kzalloc tv fun x hx => ?_
    rw [SnapshotDirs.mount, if_neg hopen'] at hx
    exact h.history x hx

theorem Related.umountObject {o : ObjectId δ} (ho : s.Current o) (kmalloc : Bool) :
    ∃ D', (disksMachine hash maxEntries fuel ObjectId.path (blocksOf N)).Reach Healthy D' ∧
      Related D' { s with dirs := s.dirs.umount o kmalloc } := by
  have hstep : (disksMachine hash maxEntries fuel ObjectId.path (blocksOf N)).step D
      (.umount o kmalloc) = some { D with dirs := D.dirs.umount o kmalloc } := rfl
  have hdirs : D.dirs.umount o kmalloc = { s.dirs.umount o kmalloc with
      object := Function.update D.dirs.object o ((s.dirs.umount o kmalloc).object o) } := by
    conv_lhs => rw [h.dirs]
    exact umount_objects (h.object o ho) kmalloc
  refine ⟨_, hD.step (by trivial) hstep, ?_, h.used, fun o' ho' => ?_, h.image, fun o' ho' => ?_,
    h.history⟩
  · simp only [hdirs]
  · by_cases hne : o' = o
    · subst hne
      simp only [hdirs, Function.update_self]
    · simpa only [SnapshotDirs.umount, Function.update_of_ne hne] using h.object o' ho'
  · have hne : o' ≠ o := h.ne_of_unused ho ho'
    simpa only [SnapshotDirs.umount, Function.update_of_ne hne] using h.unused o' ho'

theorem Related.writeObject {o : ObjectId δ} (ho : s.Current o) (b : Fin (N o.dev))
    (block : Block singlefilefsBlockSize) {calls : SubmitOutcomes} (hcalls : calls.Succeeds) :
    ∃ D', (disksMachine hash maxEntries fuel ObjectId.path (blocksOf N)).Reach Healthy D' ∧
      Related D' (s.writeObject o b block calls) := by
  have hinv := SnapshotDirs.inv_of_reachable (Disks.dirs_reachable hD)
  have hsame := h.object o ho
  have himage := h.image o ho
  have hstep : (disksMachine hash maxEntries fuel ObjectId.path (blocksOf N)).step D
      (.write o b block calls) = some { D.writes o b block with
        dirs := D.dirs.write o (UInt64.ofNat b) (D.image o b).val
          (CapturedBlock.length_lt (D.image o b)) calls } := rfl
  have hdirs : D.dirs.write o (UInt64.ofNat b) (D.image o b).val
      (CapturedBlock.length_lt (D.image o b)) calls =
        { s.dirs.write o (UInt64.ofNat b) (s.image o.dev b).val
          (CapturedBlock.length_lt (s.image o.dev b)) calls with object := D.dirs.object } := by
    conv_lhs => rw [h.dirs]
    rw [write_objects hsame]
    simp only [himage]
  have hhealthy : Healthy D (.write o b block calls) := hcalls
  refine ⟨_, hD.step hhealthy hstep, ?_, h.used, fun o' ho' => ?_, fun o' ho' => ?_,
    fun o' ho' => ?_, fun x hx => ?_⟩
  · simp only [hdirs]
    rfl
  · simp only [ActivatedDisks.writeObject, write_object]
    exact h.object o' ho'
  · show Function.update D.image o (Function.update (D.image o) b block) o' =
      Function.update s.image o.dev (Function.update (s.image o.dev) b block) o'.dev
    by_cases hne : o' = o
    · subst hne
      rw [Function.update_self, Function.update_self, himage]
    · rw [Function.update_of_ne hne, Function.update_of_ne (ho.dev_ne ho' hne)]
      exact h.image o' ho'
  · have hne : o' ≠ o := h.ne_of_unused ho ho'
    simp only [ActivatedDisks.writeObject, write_object, write_wq_of_ne hne]
    exact h.unused o' ho'
  · simp only [write_opened] at hx
    obtain ⟨hbegun, hsince⟩ := h.history x hx
    refine ⟨hbegun, ?_⟩
    cases he : (s.dirs.object o).e with
    | none => simpa [ActivatedDisks.writeObject, Disks.writes, hsame, he] using hsince
    | some e =>
      simp only [ActivatedDisks.writeObject, Disks.writes, hsame, he]
      by_cases haddr : x.addr = e.addr
      · obtain ⟨x₀, hx₀, hdev₀, haddr₀, -⟩ := hinv.dated o e (by rw [hsame, he])
        obtain rfl := hinv.addr_inj hx hx₀ (haddr.trans haddr₀.symm)
        subst hdev₀
        rw [← haddr, update_update_self s.since, ← hsince]
        exact update_update_self D.since _ _ _
      · rw [update_update_of_ne s.since _ _ haddr, ← hsince]
        exact update_update_of_ne D.since _ _ haddr _

theorem Related.work {o : ObjectId δ} {outcomes : WorkOutcomes} (hout : outcomes.Succeeds)
    {s' : ActivatedDisks δ N}
    (hstep : (activatedMachine hash maxEntries fuel N).step s (.work o outcomes) = some s') :
    ∃ D', (disksMachine hash maxEntries fuel ObjectId.path (blocksOf N)).Reach Healthy D' ∧
      Related D' s' := by
  have hwq : D.dirs.wq o = s.dirs.wq o := by rw [h.dirs]
  have hstate (addr : ℕ) : D.dirs.workState addr = s.dirs.workState addr := by
    rw [h.dirs]
    rfl
  simp only [activatedMachine] at hstep
  cases hqueue : s.dirs.wq o with
  | nil => simp [hqueue] at hstep
  | cons q wq =>
    obtain ⟨addr, w⟩ := q
    simp only [hqueue, Option.map_eq_some_iff] at hstep
    obtain ⟨r, hmake, rfl⟩ := hstep
    have hstep' : (disksMachine hash maxEntries fuel ObjectId.path (blocksOf N)).step D
        (.work o outcomes) = some { D with dirs := D.dirs.worked o addr w wq outcomes r.1 } := by
      simp only [disksMachine, dirsMachine, Disks.label, hwq, hqueue, hstate, hmake]
      rfl
    have hhealthy : Healthy D (.work o outcomes) := hout
    refine ⟨_, hD.step hhealthy hstep', ?_, h.used, h.object, h.image, fun o' ho' => ?_, h.history⟩
    · simp only [SnapshotDirs.worked]
      rw [h.dirs]
    · have hunused := h.unused o' ho'
      refine ⟨hunused.1, ?_⟩
      have hne : o' ≠ o := by
        rintro rfl
        rw [hunused.2] at hqueue
        cases hqueue
      simpa only [SnapshotDirs.worked, Function.update_of_ne hne] using hunused.2

/-- Every action is matched by actions of the objects. -/
theorem Related.step {a : ActivatedAct δ N} (ha : s.WorksSucceed a) {s' : ActivatedDisks δ N}
    (hstep : (activatedMachine hash maxEntries fuel N).step s a = some s') :
    ∃ D', (disksMachine hash maxEntries fuel ObjectId.path (blocksOf N)).Reach Healthy D' ∧
      Related D' s' := by
  cases a with
  | activate i path =>
    obtain rfl := Option.some.inj hstep
    unfold ActivatedDisks.activate
    cases s.registered i with
    | some act => exact ⟨D, hD, h⟩
    | none => exact h.insert hD i path
  | deactivate i wlistnode wargs =>
    obtain rfl := Option.some.inj hstep
    unfold ActivatedDisks.deactivate
    cases hreg : s.registered i with
    | none => exact ⟨D, hD, h⟩
    | some act =>
      have hcurrent : s.Current ⟨i, act⟩ := hreg
      exact h.remove hD hcurrent wlistnode wargs
  | mount i kzalloc tv =>
    obtain rfl := Option.some.inj hstep
    unfold ActivatedDisks.mount
    cases hreg : s.registered i with
    | none => exact ⟨D, hD, h⟩
    | some act =>
      have hcurrent : s.Current ⟨i, act⟩ := hreg
      exact h.mountObject hD hcurrent kzalloc tv
  | umount i kmalloc =>
    obtain rfl := Option.some.inj hstep
    unfold ActivatedDisks.umount
    cases hreg : s.registered i with
    | none => exact ⟨D, hD, h⟩
    | some act =>
      have hcurrent : s.Current ⟨i, act⟩ := hreg
      exact h.umountObject hD hcurrent kmalloc
  | write i b block calls =>
    obtain rfl := Option.some.inj hstep
    unfold ActivatedDisks.write
    cases hreg : s.registered i with
    | none =>
      refine ⟨D, hD, h.dirs, h.used, h.object, fun o ho => ?_, h.unused, h.history⟩
      have hdev : o.dev ≠ i := by
        rintro rfl
        rw [Current, hreg] at ho
        cases ho
      exact (h.image o ho).trans (Function.update_of_ne hdev _ _).symm
    | some act =>
      have hcurrent : s.Current ⟨i, act⟩ := hreg
      exact h.writeObject hD hcurrent b block ha
  | work o outcomes => exact h.work hD ha hstep

end Steps

section Laws
variable {hash : UInt64 → ℕ} {maxEntries fuel : ℕ} {s : ActivatedDisks δ N}

/-- What is reached with activations and deactivations is reached without. -/
theorem exists_related (h : (activatedMachine hash maxEntries fuel N).Reach WorksSucceed s) :
    ∃ D, (disksMachine hash maxEntries fuel ObjectId.path (blocksOf N)).Reach Healthy D ∧
      Related D s := by
  refine h.refines (fun s hs => ?_) fun s a s' D hD hR ha hstep => hR.step hD ha hstep
  obtain ⟨hregistered, hwq, hsnapblocks, hopened⟩ := hs
  have hnobody (o : ObjectId δ) : ¬ s.Current o := by
    rw [Current, hregistered]
    nofun
  refine ⟨⟨{ s.dirs with object := fun o => initObjectData o.path }, fun o => s.image o.dev,
    fun o => s.begun o.dev, fun o => s.since o.dev⟩, ⟨fun o => rfl, hwq, hsnapblocks, hopened⟩, rfl,
    fun o ho => absurd ho (hnobody o), fun o ho => absurd ho (hnobody o),
    fun o ho => absurd ho (hnobody o), fun o _ => ⟨rfl, hwq o⟩, fun x _ => ⟨rfl, rfl⟩⟩

/-- An epoch of an activation that has its directory for itself, with writes that its file can
hold. -/
structure Loggable (fuel : ℕ) (s : ActivatedDisks δ N) (x : Opening (ObjectId δ)) : Prop where
  opened : x ∈ s.dirs.opened
  alone : ∀ y ∈ s.dirs.opened, y.addr ≠ x.addr → ¬ y.Collides ObjectId.path x
  scans : (s.since x.dev.dev x.addr).length < fuel
  fits : (s.since x.dev.dev x.addr).length * (sizeofHdr + singlefilefsBlockSize) ≤ maxLfsFilesize

omit [DecidableEq δ] in
theorem Loggable.related {D : Disks (ObjectId δ) (blocksOf N)} {x : Opening (ObjectId δ)}
    (hx : s.Loggable fuel x) (hR : Related D s) : D.Loggable ObjectId.path fuel x := by
  have hopened : D.dirs.opened = s.dirs.opened := by rw [hR.dirs]
  have hmem : x ∈ D.dirs.opened := hopened ▸ hx.opened
  obtain ⟨-, hsince⟩ := hR.history x hmem
  refine ⟨hmem, fun y hy => hx.alone y (hopened ▸ hy), ?_, ?_⟩
  · rw [hsince]
    exact hx.scans
  · rw [hsince]
    exact hx.fits

section Epoch
variable (h : (activatedMachine hash maxEntries fuel N).Reach WorksSucceed s)
  {x : Opening (ObjectId δ)} (hx : s.Loggable fuel x)
include h hx

/-- The work at the head of the queue comes to its end. -/
theorem work_returns {outcomes : WorkOutcomes} (hout : outcomes.Succeeds) {w : MakeSnapshotWork}
    {wq : List (ℕ × MakeSnapshotWork)} (hqueue : s.dirs.wq x.dev = (x.addr, w) :: wq) :
    ∃ s', (activatedMachine hash maxEntries fuel N).step s (.work x.dev outcomes) = some s' := by
  obtain ⟨D, hD, hR⟩ := exists_related h
  have hwq : D.dirs.wq x.dev = s.dirs.wq x.dev := by rw [hR.dirs]
  have hstate : D.dirs.workState x.addr = s.dirs.workState x.addr := by
    rw [hR.dirs]
    rfl
  obtain ⟨D', hstep⟩ := Disks.work_returns hD (hx.related hR) hout (hwq.trans hqueue)
  simp only [disksMachine, dirsMachine, Disks.label, hwq, hqueue, hstate] at hstep
  cases hmake : makeSnapshot hash maxEntries fuel outcomes w (s.dirs.workState x.addr) with
  | none => simp [hmake] at hstep
  | some r =>
    refine ⟨{ s with dirs := s.dirs.worked x.dev x.addr w wq outcomes r.1 }, ?_⟩
    simp only [activatedMachine, hqueue, hmake, Option.map_some]

/-- The writes of an open epoch lead to the image of its device. -/
theorem image_eq_ended {e : Epoch} (hcurrent : s.Current x.dev)
    (he : (s.dirs.object x.dev).e = some e) (haddr : e.addr = x.addr) :
    s.image x.dev.dev = s.ended x.dev.dev x.addr := by
  obtain ⟨D, hD, hR⟩ := exists_related h
  obtain ⟨hbegun, hsince⟩ := hR.history x (hx.related hR).opened
  have himage := (Disks.inv_of_reach hD).current x.dev e (by rw [hR.object x.dev hcurrent, he])
  rw [haddr, hR.image x.dev hcurrent, Disks.ended, hbegun, hsince] at himage
  exact himage

/-- Restoring the file of a drained epoch, after any attempts, takes the device from the end
of the epoch to its start. -/
theorem doRestore_epoch (hN : N x.dev.dev * singlefilefsBlockSize < 2 ^ 63)
    (hdrained : ∀ q ∈ s.dirs.wq x.dev, q.1 ≠ x.addr) {opts : RestoreOpts} (hopts : opts.All)
    (kind : DeviceKind) (stdin : Bytes) (attempts : List RestoreAttempt) :
    ∃ t, doRestore opts (fun _ => .allDone) fuel (s.content x)
        (.start kind (attempts.foldl (RestoreAttempt.after kind (s.content x))
          (flatten (s.ended x.dev.dev x.addr))) stdin) = some (t, true) ∧
      t.dev.data = flatten (s.begun x.dev.dev x.addr) := by
  obtain ⟨D, hD, hR⟩ := exists_related h
  obtain ⟨hbegun, hsince⟩ := hR.history x (hx.related hR).opened
  have hwq : D.dirs.wq x.dev = s.dirs.wq x.dev := by rw [hR.dirs]
  have hended : D.ended x.dev x.addr = s.ended x.dev.dev x.addr := by
    rw [Disks.ended, hbegun, hsince]
    rfl
  have hcontent : D.content ObjectId.path x = s.content x := by
    rw [Disks.content, hR.dirs]
    rfl
  obtain ⟨t, hrestore, hdata⟩ := Disks.doRestore_epoch hD (hx.related hR) hN
    (fun q hq => hdrained q (hwq ▸ hq)) hopts kind stdin attempts
  rw [hcontent, hended] at hrestore
  rw [hbegun] at hdata
  exact ⟨t, hrestore, hdata⟩

end Epoch
end Laws

end ActivatedDisks

/-- With devices activated and deactivated at any time: the works of an epoch come to their ends,
also behind the deactivation of its device; while the epoch is open its writes lead to the
image of the device; and when none of its works is left, its file takes the device, after any
attempts, from the image behind the last write of the epoch to that at its first mount. -/
theorem activations_restorable [DecidableEq δ] {hash : UInt64 → ℕ} {maxEntries fuel : ℕ}
    {s : ActivatedDisks δ N}
    (h : (activatedMachine hash maxEntries fuel N).Reach ActivatedDisks.WorksSucceed s)
    {x : Opening (ObjectId δ)} (hN : N x.dev.dev * singlefilefsBlockSize < 2 ^ 63)
    (hx : s.Loggable fuel x) :
    (∀ outcomes w wq, outcomes.Succeeds → s.dirs.wq x.dev = (x.addr, w) :: wq →
      ∃ s', (activatedMachine hash maxEntries fuel N).step s (.work x.dev outcomes) = some s') ∧
    (∀ e, s.Current x.dev → (s.dirs.object x.dev).e = some e → e.addr = x.addr →
      s.image x.dev.dev = s.ended x.dev.dev x.addr) ∧
    ((∀ q ∈ s.dirs.wq x.dev, q.1 ≠ x.addr) → ∀ opts : RestoreOpts, opts.All →
      ∀ kind stdin (attempts : List RestoreAttempt),
        ∃ t, doRestore opts (fun _ => .allDone) fuel (s.content x)
          (.start kind (attempts.foldl (RestoreAttempt.after kind (s.content x))
            (flatten (s.ended x.dev.dev x.addr))) stdin) = some (t, true) ∧
          t.dev.data = flatten (s.begun x.dev.dev x.addr)) := by
  refine ⟨fun outcomes w wq hout hqueue => ?_, fun e hcurrent he haddr => ?_, ?_⟩
  · exact ActivatedDisks.work_returns h hx hout hqueue
  · exact ActivatedDisks.image_eq_ended h hx hcurrent he haddr
  · intro hdrained opts hopts kind stdin attempts
    exact ActivatedDisks.doRestore_epoch h hx hN hdrained hopts kind stdin attempts

/-- One device of one block, not yet registered. -/
def bareDisk : ActivatedDisks Unit fun _ => 1 :=
  ⟨⟨fun _ => initObjectData [], fun _ => [], fun _ => none, fun _ => none, fun _ => none, 0, [],
    fun _ => []⟩, fun _ => none, 0, fun _ _ => filledBlock 0, fun _ _ _ => filledBlock 0,
    fun _ _ => []⟩

/-- The device is deactivated in an epoch with a work in the queue, written to and activated
again. -/
def bareHistory : List (ActivatedAct Unit fun _ => 1) :=
  [.activate () "/img".toList, .mount () true ⟨14, by decide⟩,
    .write () (Fin.last 0) (filledBlock 1) .allDone, .deactivate () true true,
    .write () (Fin.last 0) (filledBlock 2) .allDone, .activate () "/img".toList,
    .mount () true ⟨15, by decide⟩, .write () (Fin.last 0) (filledBlock 3) .allDone,
    .work ⟨(), 0, "/img".toList⟩ .allDone]

theorem bareHistory_succeeds (s : ActivatedDisks Unit fun _ => 1)
    (as : List (ActivatedAct Unit fun _ => 1)) (has : ∀ a ∈ as, a ∈ bareHistory) :
    (activatedMachine (fun _ => 0) 4 4 fun _ => 1).Meets ActivatedDisks.WorksSucceed s as := by
  apply Machine.meets_of_invariant (I := fun _ => True) (p := fun a => a ∈ bareHistory)
    ?_ (fun _ _ _ _ _ _ => trivial) trivial has
  intro t a _ ha
  have hall : ∀ a ∈ bareHistory, ActivatedDisks.WorksSucceed t a := by
    simp [bareHistory, ActivatedDisks.WorksSucceed, WorkOutcomes.allDone_succeeds,
      SubmitOutcomes.Succeeds]
  exact hall a ha

theorem bareDisk_init : (activatedMachine (fun _ => 0) 4 4 fun _ => 1).init bareDisk :=
  ⟨fun _ => rfl, fun _ => rfl, fun _ => rfl, rfl⟩

/-- The objects, addresses and directories of the two epochs. -/
def bareEpochs : List (ObjectId Unit × ℕ × CStr) :=
  [(⟨(), 0, "/img".toList⟩, 0, "img-1970-01-01_00:00:14".toList),
    (⟨(), 1, "/img".toList⟩, 1, "img-1970-01-01_00:00:15".toList)]

theorem bare_loggable {s : ActivatedDisks Unit fun _ => 1}
    (hopened : s.dirs.opened.map (fun x => (x.dev, x.addr, x.dir ObjectId.path)) = bareEpochs)
    (hsince : ∀ addr ∈ [0, 1], (s.since () addr).length = 1) :
    ∀ x ∈ s.dirs.opened, s.Loggable 4 x := by
  have hfields (x : Opening (ObjectId Unit)) (hx : x ∈ s.dirs.opened) :
      x.addr ∈ [0, 1] ∧ (x.dev, x.addr, x.dir ObjectId.path) ∈ bareEpochs := by
    have hmem := List.mem_map_of_mem (f := fun x => (x.dev, x.addr, x.dir ObjectId.path)) hx
    rw [hopened] at hmem
    have haddr := List.mem_map_of_mem (f := fun p => p.2.1) hmem
    exact ⟨haddr, hmem⟩
  have hdistinct : ∀ p ∈ bareEpochs, ∀ q ∈ bareEpochs, p.2.2 = q.2.2 → p.2.1 = q.2.1 := by decide
  intro x hx
  obtain ⟨haddr, hmem⟩ := hfields x hx
  refine ⟨hx, fun y hy hne hcollides => ?_, ?_, ?_⟩
  · have hdir := (Opening.dir_eq_iff ObjectId.path y x).mpr hcollides
    exact hne (hdistinct _ (hfields y hy).2 _ hmem hdir)
  · rw [hsince x.addr haddr]
    decide
  · rw [hsince x.addr haddr]
    decide

/-- The file of the epoch that the deactivation has ended. -/
theorem activations_restorable_bare :
    ∃ s x, (activatedMachine (fun _ => 0) 4 4 fun _ => 1).run bareDisk bareHistory = some s ∧
      x ∈ s.dirs.opened ∧ ¬ s.Current x.dev ∧
      ∃ t, doRestore ⟨true, 0, false⟩ (fun _ => .allDone) 4 (s.content x)
        (.start .block (flatten (s.ended x.dev.dev x.addr)) []) = some (t, true) ∧
        t.dev.data = flatten (s.begun x.dev.dev x.addr) := by
  have hrun := Machine.run_eq_getD (activatedMachine (fun _ => 0) 4 4 fun _ => 1) bareDisk
    bareHistory (by decide +kernel)
  generalize hs : ((activatedMachine (fun _ => 0) 4 4 fun _ => 1).run bareDisk
    bareHistory).getD bareDisk = s at hrun
  have hopened : s.dirs.opened.map (fun x => (x.dev, x.addr, x.dir ObjectId.path)) =
      bareEpochs := by
    rw [← hs]
    decide +kernel
  have hwq : s.dirs.wq ⟨(), 0, "/img".toList⟩ = [] := by
    rw [← hs]
    decide +kernel
  have hsince : ∀ addr ∈ [0, 1], (s.since () addr).length = 1 := by
    rw [← hs]
    decide +kernel
  have hregistered : s.registered () = some ⟨1, "/img".toList⟩ := by
    rw [← hs]
    decide +kernel
  have hreach := Machine.Reach.run (.init bareDisk_init) (bareHistory_succeeds _ _ fun _ ha => ha)
    hrun
  have hfirst : ((⟨(), 0, "/img".toList⟩ : ObjectId Unit), 0, "img-1970-01-01_00:00:14".toList) ∈
      s.dirs.opened.map fun x => (x.dev, x.addr, x.dir ObjectId.path) := by
    rw [hopened]
    exact List.mem_cons_self
  obtain ⟨x, hx, hfields⟩ := List.mem_map.mp hfirst
  have hdev : x.dev = ⟨(), 0, "/img".toList⟩ := congrArg Prod.fst hfields
  have hdrained : ∀ q ∈ s.dirs.wq x.dev, q.1 ≠ x.addr := by
    rw [hdev, hwq]
    simp
  refine ⟨s, x, hrun, hx, ?_, (activations_restorable hreach (by decide)
    (bare_loggable hopened hsince x hx)).2.2 hdrained _ ⟨rfl, rfl⟩ .block [] []⟩
  rw [ActivatedDisks.Current, hdev, hregistered]
  simp

end BlkdevSnapshot

import BlkdevSnapshot.RestoreAttempts
import BlkdevSnapshot.SnapshotDirs

/-!
# The history of all disks

Any number of registered devices with their blocks. A write hands the content that its
block is about to lose to the epoch of the device, and the works of all devices are
executed in any order. The state also keeps, for every epoch, the image at its first mount
and the writes since.
-/
namespace BlkdevSnapshot
open FirstWrite SnapshotDirs

variable {ι : Type*} {N : ι → ℕ}

/-- The devices as the module sees them, their blocks, and the history of every epoch. -/
structure Disks (ι : Type*) (N : ι → ℕ) where
  dirs : SnapshotDirs ι
  image : ∀ i, Image (N i)
  begun : ∀ i, ℕ → Image (N i)
  since : ∀ i, ℕ → List (Fin (N i) × Block singlefilefsBlockSize)

/-- An event of a device, a write of a block, or the work at the head of a queue. -/
inductive DisksAct (ι : Type*) (N : ι → ℕ) where
  | mount (i : ι) (kzalloc : Bool) (tv : ClockSec)
  | umount (i : ι) (kmalloc : Bool)
  | write (i : ι) (b : Fin (N i)) (block : Block singlefilefsBlockSize) (calls : SubmitOutcomes)
  | work (i : ι) (o : WorkOutcomes)

/-- The block gets into the queue. -/
def SubmitOutcomes.allDone : SubmitOutcomes := ⟨true, true, true, true⟩

def SubmitOutcomes.Succeeds (calls : SubmitOutcomes) : Prop := calls = .allDone

/-- The works of an epoch that are still queued. -/
def SnapshotDirs.pending (s : SnapshotDirs ι) (x : Opening ι) : List MakeSnapshotWork :=
  ((s.wq x.dev).filter fun q => q.1 = x.addr).map Prod.snd

namespace Disks

/-- What an action is to the module: a write hands over what its block is about to lose. -/
def label (s : Disks ι N) : DisksAct ι N → DirsAct ι
  | .mount i kzalloc tv => .mount i kzalloc tv
  | .umount i kmalloc => .umount i kmalloc
  | .write i b _ calls => .write i (UInt64.ofNat b) (s.image i b).val
      (CapturedBlock.length_lt (s.image i b)) calls
  | .work i o => .work i o

/-- The image after the last write of an epoch. -/
def ended (s : Disks ι N) (i : ι) (addr : ℕ) : Image (N i) :=
  applyWrites (s.begun i addr) (s.since i addr)

/-- The bytes of the snapblocks file of an epoch. -/
def content (path : ι → CStr) (s : Disks ι N) (x : Opening ι) : Bytes :=
  (s.dirs.snapblocks (x.dir path)).getD []

variable [DecidableEq ι]

/-- The next epoch starts with the image of its device. -/
def opens (i : ι) (s : Disks ι N) : Disks ι N :=
  { s with
    begun := Function.update s.begun i
      (Function.update (s.begun i) s.dirs.nextAddr (s.image i))
    since := Function.update s.since i (Function.update (s.since i) s.dirs.nextAddr []) }

/-- A write to a block, noted in the epoch of the device if there is one. -/
def writes (i : ι) (b : Fin (N i)) (block : Block singlefilefsBlockSize) (s : Disks ι N) :
    Disks ι N :=
  { s with
    image := Function.update s.image i (Function.update (s.image i) b block)
    since := match (s.dirs.object i).e with
      | none => s.since
      | some e => Function.update s.since i
          (Function.update (s.since i) e.addr (s.since i e.addr ++ [(b, block)])) }

/-- What an action is to the disks and their history. -/
def note (s : Disks ι N) : DisksAct ι N → Disks ι N
  | .mount i kzalloc _ =>
    if (s.dirs.object i).e = none ∧ kzalloc = true then s.opens i else s
  | .umount _ _ => s
  | .write i b block _ => s.writes i b block
  | .work _ _ => s

end Disks

variable [DecidableEq ι]

/-- All disks together. -/
def disksMachine (hash : UInt64 → ℕ) (maxEntries fuel : ℕ) (path : ι → CStr) (N : ι → ℕ) :
    Machine (Disks ι N) (DisksAct ι N) where
  init s := (dirsMachine hash maxEntries fuel path).init s.dirs
  step s a := ((dirsMachine hash maxEntries fuel path).step s.dirs (s.label a)).map fun d =>
    { s.note a with dirs := d }

/-- All calls of the works and of the submissions succeed. -/
def Healthy (_ : Disks ι N) : DisksAct ι N → Prop
  | .work _ o => o.Succeeds
  | .write _ _ _ calls => calls.Succeeds
  | _ => True

section Object
variable {data : ObjectData}

/-- A mount event that opens no epoch keeps the one that there is. -/
theorem ObjectData.countMount_addr (tv : ClockSec) (e' : Epoch)
    (he' : (data.countMount none tv).e = some e') : ∃ e, data.e = some e ∧ e'.addr = e.addr := by
  cases he : data.e with
  | none =>
    rw [ObjectData.countMount_of_none he] at he'
    cases he'
  | some e =>
    rw [ObjectData.countMount_of_some he, Option.some.injEq] at he'
    subst he'
    exact ⟨e, rfl, rfl⟩

/-- An umount event ends the epoch or keeps it. -/
theorem ObjectData.Active.countUmount_addr (h : data.Active) (kmalloc : Bool) (e' : Epoch)
    (he' : (data.countUmount kmalloc).1.e = some e') :
    ∃ e, data.e = some e ∧ e'.addr = e.addr := by
  cases he : data.e with
  | none =>
    rw [ObjectData.countUmount_of_none he, he] at he'
    cases he'
  | some e =>
    rcases h.countUmount_cases he kmalloc with
      ⟨-, hnone, -⟩ | ⟨-, left, hleft, -, -, haddr, -⟩
    · rw [hnone] at he'
      cases he'
    · rw [hleft, Option.some.injEq] at he'
      subst he'
      exact ⟨e, rfl, haddr⟩

end Object

namespace Disks
variable {hash : UInt64 → ℕ} {maxEntries fuel : ℕ} {path : ι → CStr} {s : Disks ι N}

omit [DecidableEq ι] in
/-- One more write hands over one more block. -/
theorem submissions_concat (devname mountdate : CStr) {n : ℕ} (img : Image n)
    (ws : List (Fin n × Block singlefilefsBlockSize)) (w : Fin n × Block singlefilefsBlockSize) :
    submissions devname mountdate img (ws ++ [w]) = submissions devname mountdate img ws ++
      [beforeImageWork devname mountdate (w.1, applyWrites img ws w.1)] := by
  rw [submissions, beforeImages_append, List.map_append]
  rfl

/-- The queue of an epoch after a submission. -/
theorem pending_submit (d : SnapshotDirs ι) (i : ι) (q : ℕ × MakeSnapshotWork) (x : Opening ι) :
    SnapshotDirs.pending { d with wq := Function.update d.wq i (d.wq i ++ [q]) } x =
      d.pending x ++ if x.dev = i ∧ q.1 = x.addr then [q.2] else [] := by
  by_cases hdev : x.dev = i
  · subst hdev
    by_cases haddr : q.1 = x.addr
    · simp [pending, haddr]
    · simp [pending, haddr]
  · simp [pending, hdev]

/-- What holds of the history in every reachable state. -/
structure Inv (path : ι → CStr) (s : Disks ι N) : Prop where
  owned : ∀ i, ∀ q ∈ s.dirs.wq i, ∃ x ∈ s.dirs.opened, x.dev = i ∧ x.addr = q.1
  succeeded : ∀ x ∈ s.dirs.opened, ∀ run ∈ s.dirs.ran x.addr, run.1.Succeeds
  handed : ∀ x ∈ s.dirs.opened, (s.dirs.ran x.addr).map Prod.snd ++ s.dirs.pending x =
    submissions (devName path x.dev) (firstMountDate x.tv) (s.begun x.dev x.addr)
      (s.since x.dev x.addr)
  current : ∀ i e, (s.dirs.object i).e = some e → s.image i = s.ended i e.addr

/-- What holds of the epochs that are open holds behind an event that opens none. -/
theorem open_setObject {object : ι → ObjectData} {Q : ι → ℕ → Prop}
    (h : ∀ j e, (object j).e = some e → Q j e.addr) {i : ι} {data : ObjectData}
    (hsame : ∀ e', data.e = some e' → ∃ e, (object i).e = some e ∧ e'.addr = e.addr) :
    ∀ j e', (Function.update object i data j).e = some e' → Q j e'.addr := by
  intro j e' he'
  by_cases hj : j = i
  · subst hj
    rw [Function.update_self] at he'
    obtain ⟨e, he, haddr⟩ := hsame e' he'
    rw [haddr]
    exact h j e he
  · rw [Function.update_of_ne hj] at he'
    exact h j e' he'

/-- An event that opens no epoch. -/
theorem Inv.setObject (h : s.Inv path) {i : ι} {data : ObjectData}
    (hsame : ∀ e', data.e = some e' → ∃ e, (s.dirs.object i).e = some e ∧ e'.addr = e.addr) :
    Inv path { s with
      dirs := { s.dirs with object := Function.update s.dirs.object i data } } :=
  ⟨h.owned, h.succeeded, h.handed,
    open_setObject (Q := fun j addr => s.image j = s.ended j addr) h.current hsame⟩

omit [DecidableEq ι] in
/-- Works of an epoch that has not been opened are not queued. -/
theorem Inv.pending_eq_nil (h : s.Inv path) (hd : s.dirs.Inv hash maxEntries fuel path) (i : ι)
    (tv : ClockSec) : s.dirs.pending ⟨i, s.dirs.nextAddr, tv⟩ = [] := by
  rw [pending, List.map_eq_nil_iff, List.filter_eq_nil_iff]
  intro q hq
  obtain ⟨x, hx, -, haddr⟩ := h.owned i q hq
  have hlt := hd.fresh x hx
  rw [haddr] at hlt
  simpa using hlt.ne

/-- The first mount of an epoch. -/
theorem Inv.open (h : s.Inv path) (hd : s.dirs.Inv hash maxEntries fuel path) {i : ι}
    (he : (s.dirs.object i).e = none) (tv : ClockSec) :
    Inv path { s.opens i with dirs := s.dirs.mount i true tv } := by
  have hold : ∀ x ∈ s.dirs.opened, x.addr ≠ s.dirs.nextAddr := fun x hx => (hd.fresh x hx).ne
  have hbegun (x : Opening ι) (hx : x ∈ s.dirs.opened) :
      (s.opens i).begun x.dev x.addr = s.begun x.dev x.addr ∧
        (s.opens i).since x.dev x.addr = s.since x.dev x.addr := by
    by_cases hdev : x.dev = i
    · subst hdev
      simp [opens, Function.update_of_ne (hold x hx)]
    · simp [opens, Function.update_of_ne hdev]
  rw [SnapshotDirs.mount, if_pos ⟨he, rfl⟩]
  constructor
  · intro j q hq
    obtain ⟨x, hx, howned⟩ := h.owned j q hq
    exact ⟨x, List.mem_append_left _ hx, howned⟩
  · intro x hx run hrun
    rcases List.mem_append.mp hx with hx | hx
    · simp only [Function.update_of_ne (hold x hx)] at hrun
      exact h.succeeded x hx run hrun
    · obtain rfl := List.mem_singleton.mp hx
      simp at hrun
  · intro x hx
    rcases List.mem_append.mp hx with hx | hx
    · obtain ⟨hb, hs⟩ := hbegun x hx
      simp only [Function.update_of_ne (hold x hx), hb, hs]
      exact h.handed x hx
    · obtain rfl := List.mem_singleton.mp hx
      have hpending := h.pending_eq_nil hd i tv
      simp only [pending] at hpending ⊢
      simp [hpending, opens, submissions, beforeImages]
  · intro j e' he'
    by_cases hj : j = i
    · subst hj
      have hnew := ObjectData.countMount_of_none he (some s.dirs.nextAddr) tv
      simp only [Function.update_self, hnew, Option.map_some, Option.some.injEq] at he'
      subst he'
      simp [ended, opens, Epoch.countMount, Epoch.zeroed, applyWrites]
    · simp only [Function.update_of_ne hj] at he'
      simpa [ended, opens, Function.update_of_ne hj] using h.current j e' he'

theorem Inv.mount (h : s.Inv path) (hd : s.dirs.Inv hash maxEntries fuel path) (i : ι)
    (kzalloc : Bool) (tv : ClockSec) :
    Inv path { s.note (.mount i kzalloc tv) with dirs := s.dirs.mount i kzalloc tv } := by
  by_cases hopen : (s.dirs.object i).e = none ∧ kzalloc = true
  · obtain ⟨he, rfl⟩ := hopen
    rw [note, if_pos ⟨he, rfl⟩]
    exact h.open hd he tv
  · rw [note, if_neg hopen, SnapshotDirs.mount, if_neg hopen]
    exact h.setObject (ObjectData.countMount_addr tv)

theorem Inv.umount (h : s.Inv path) (hd : s.dirs.Inv hash maxEntries fuel path) (i : ι)
    (kmalloc : Bool) : Inv path { s with dirs := s.dirs.umount i kmalloc } :=
  h.setObject ((hd.active i).countUmount_addr kmalloc)

/-- A write outside of all epochs is seen by nobody. -/
theorem Inv.write_unseen (h : s.Inv path) {i : ι} (he : (s.dirs.object i).e = none) (b : Fin (N i))
    (block : Block singlefilefsBlockSize) : Inv path (s.writes i b block) := by
  have hsince : (s.writes i b block).since = s.since := by simp [writes, he]
  refine ⟨h.owned, h.succeeded, fun x hx => ?_, fun j e hj => ?_⟩
  · rw [hsince]
    exact h.handed x hx
  · have hne : j ≠ i := by
      rintro rfl
      rw [show (s.writes j b block).dirs = s.dirs from rfl, he] at hj
      cases hj
    have himage : (s.writes i b block).image j = s.image j := Function.update_of_ne hne _ _
    rw [ended, hsince, himage]
    exact h.current j e hj

/-- A write in an epoch is handed over. -/
theorem Inv.write_seen (h : s.Inv path) (hd : s.dirs.Inv hash maxEntries fuel path) {i : ι}
    {e : Epoch} (he : (s.dirs.object i).e = some e) (b : Fin (N i))
    (block : Block singlefilefsBlockSize) :
    Inv path { s.writes i b block with
      dirs := { s.dirs with
        wq := Function.update s.dirs.wq i (s.dirs.wq i ++ [(e.addr,
          beforeImageWork (s.dirs.object i).originalDevName e.firstMountDate
            (b, s.image i b))]) } } := by
  obtain ⟨x₀, hx₀, hdev₀, haddr₀, hdate₀⟩ := hd.dated i e he
  have hsince : (s.writes i b block).since = Function.update s.since i
      (Function.update (s.since i) e.addr (s.since i e.addr ++ [(b, block)])) := by
    simp [writes, he]
  constructor
  · intro j q hq
    by_cases hj : j = i
    · subst hj
      simp only [Function.update_self, List.mem_append, List.mem_singleton] at hq
      rcases hq with hq | rfl
      · exact h.owned j q hq
      · exact ⟨x₀, hx₀, hdev₀, haddr₀⟩
    · simp only [Function.update_of_ne hj] at hq
      exact h.owned j q hq
  · exact h.succeeded
  · intro x hx
    have hhanded := h.handed x hx
    simp only [pending_submit, hsince]
    rw [← List.append_assoc, hhanded]
    by_cases hown : x.dev = i ∧ e.addr = x.addr
    · obtain ⟨rfl, haddr⟩ := hown
      obtain rfl := hd.addr_inj hx hx₀ (haddr.symm.trans haddr₀.symm)
      have himage : s.image x.dev = applyWrites (s.begun x.dev x.addr) (s.since x.dev x.addr) := by
        rw [h.current x.dev e he, haddr, ended]
      simp only [haddr, Function.update_self, submissions_concat, and_self, if_true]
      rw [himage, hd.name, hdate₀]
      rfl
    · have hsame : Function.update s.since i (Function.update (s.since i) e.addr
          (s.since i e.addr ++ [(b, block)])) x.dev x.addr = s.since x.dev x.addr := by
        by_cases hdev : x.dev = i
        · subst hdev
          have haddr : x.addr ≠ e.addr := fun haddr => hown ⟨rfl, haddr.symm⟩
          rw [Function.update_self, Function.update_of_ne haddr]
        · rw [Function.update_of_ne hdev]
      rw [hsame, if_neg hown, List.append_nil]
      rfl
  · intro j e' he'
    by_cases hj : j = i
    · subst hj
      obtain rfl : e = e' := Option.some.inj (he.symm.trans he')
      have himage := h.current j e he
      show Function.update s.image j (Function.update (s.image j) b block) j =
        applyWrites (s.begun j e.addr) ((s.writes j b block).since j e.addr)
      rw [hsince, Function.update_self, Function.update_self, Function.update_self,
        applyWrites_concat, himage]
      rfl
    · have himage : (s.writes i b block).image j = s.image j := Function.update_of_ne hj _ _
      simp only [ended, hsince, Function.update_of_ne hj, himage]
      exact h.current j e' he'

theorem Inv.write (h : s.Inv path) (hd : s.dirs.Inv hash maxEntries fuel path) (i : ι)
    (b : Fin (N i)) (block : Block singlefilefsBlockSize) {calls : SubmitOutcomes}
    (hcalls : calls.Succeeds) :
    Inv path { s.writes i b block with
      dirs := s.dirs.write i (UInt64.ofNat b) (s.image i b).val
        (CapturedBlock.length_lt (s.image i b)) calls } := by
  obtain rfl := hcalls
  cases he : (s.dirs.object i).e with
  | none =>
    simp only [SnapshotDirs.write, he]
    exact h.write_unseen he b block
  | some e =>
    simp only [SnapshotDirs.write, he]
    exact h.write_seen hd he b block

/-- The execution of the work at the head of a queue. -/
theorem Inv.work (h : s.Inv path) (hd : s.dirs.Inv hash maxEntries fuel path) {i : ι} {addr : ℕ}
    {w : MakeSnapshotWork} {wq : List (ℕ × MakeSnapshotWork)} (hwq : s.dirs.wq i = (addr, w) :: wq)
    {o : WorkOutcomes} (ho : o.Succeeds) (t : WorkState) :
    Inv path { s with dirs := s.dirs.worked i addr w wq o t } := by
  obtain ⟨x₀, hx₀, hdev₀, haddr₀⟩ := h.owned i (addr, w) (by rw [hwq]; exact List.mem_cons_self)
  simp only at haddr₀
  constructor
  · intro j q hq
    by_cases hj : j = i
    · subst hj
      simp only [worked, Function.update_self] at hq
      apply h.owned j q
      rw [hwq]
      exact List.mem_cons_of_mem _ hq
    · simp only [worked, Function.update_of_ne hj] at hq
      exact h.owned j q hq
  · intro x hx run hrun
    by_cases haddr : x.addr = addr
    · simp only [worked, haddr, Function.update_self, List.mem_append, List.mem_singleton] at hrun
      rcases hrun with hrun | rfl
      · exact h.succeeded x hx run (haddr ▸ hrun)
      · exact ho
    · simp only [worked, Function.update_of_ne haddr] at hrun
      exact h.succeeded x hx run hrun
  · intro x hx
    have hhanded := h.handed x hx
    show ((s.dirs.worked i addr w wq o t).ran x.addr).map Prod.snd ++
      (s.dirs.worked i addr w wq o t).pending x = _
    rw [← hhanded]
    by_cases haddr : x.addr = addr
    · obtain rfl := hd.addr_inj hx hx₀ (haddr.trans haddr₀.symm)
      subst hdev₀
      simp [worked, pending, hwq, haddr]
    · have hother : ¬ addr = x.addr := Ne.symm haddr
      by_cases hdev : x.dev = i
      · simp [worked, pending, hdev, hwq, hother, Function.update_of_ne haddr]
      · simp [worked, pending, Function.update_of_ne hdev, Function.update_of_ne haddr]
  · exact h.current

/-- The disks run on the directories of the module. -/
theorem dirs_reachable (h : (disksMachine hash maxEntries fuel path N).Reach Healthy s) :
    (dirsMachine hash maxEntries fuel path).Reachable s.dirs := by
  induction h with
  | init hs => exact .init hs
  | step _ _ hstep ih =>
    obtain ⟨d, hd, rfl⟩ := Option.map_eq_some_iff.mp hstep
    exact .step ih trivial hd

theorem Inv.step (h : s.Inv path) (hd : s.dirs.Inv hash maxEntries fuel path) {a : DisksAct ι N}
    (ha : Healthy s a) {s' : Disks ι N}
    (hstep : (disksMachine hash maxEntries fuel path N).step s a = some s') : s'.Inv path := by
  obtain ⟨d, hdirs, rfl⟩ := Option.map_eq_some_iff.mp hstep
  cases a with
  | mount i kzalloc tv =>
    cases hdirs
    exact h.mount hd i kzalloc tv
  | umount i kmalloc =>
    cases hdirs
    exact h.umount hd i kmalloc
  | write i b block calls =>
    cases hdirs
    exact h.write hd i b block ha
  | work i o =>
    simp only [dirsMachine, label] at hdirs
    cases hwq : s.dirs.wq i with
    | nil => simp [hwq] at hdirs
    | cons q wq =>
      obtain ⟨addr, w⟩ := q
      simp only [hwq, Option.map_eq_some_iff] at hdirs
      obtain ⟨r, -, rfl⟩ := hdirs
      exact h.work hd hwq ha r.1

theorem inv_of_reach (h : (disksMachine hash maxEntries fuel path N).Reach Healthy s) :
    s.Inv path := by
  induction h with
  | init hs =>
    obtain ⟨hobject, hwq, -, hopened⟩ := hs
    constructor
    · simp [hwq]
    · simp [hopened]
    · simp [hopened]
    · simp [hobject, initObjectData]
  | step hs ha hstep ih =>
    exact ih.step (SnapshotDirs.inv_of_reachable (dirs_reachable hs)) ha hstep

/-! ## Every epoch is restorable -/

/-- An epoch that has its directory for itself, with writes that its file can hold. -/
structure Loggable (path : ι → CStr) (fuel : ℕ) (s : Disks ι N) (x : Opening ι) : Prop where
  opened : x ∈ s.dirs.opened
  alone : ∀ y ∈ s.dirs.opened, y.addr ≠ x.addr → ¬ y.Collides path x
  scans : (s.since x.dev x.addr).length < fuel
  fits : (s.since x.dev x.addr).length * (sizeofHdr + singlefilefsBlockSize) ≤ maxLfsFilesize

/-- No work of the epoch is queued. -/
def Drained (s : Disks ι N) (x : Opening ι) : Prop := ∀ q ∈ s.dirs.wq x.dev, q.1 ≠ x.addr

section Epoch
variable {x : Opening ι}

omit [DecidableEq ι] in
/-- The works that an epoch has executed, and some of those that are queued, succeed in its
file. -/
theorem Loggable.succeedingRun (hx : s.Loggable path fuel x) (h : s.Inv path)
    (ys zs : List WorkRun) (hys : ∀ y ∈ ys, y.1.Succeeds) (hzs : ∀ z ∈ zs, z.1.Succeeds)
    (hpending : s.dirs.pending x = (ys ++ zs).map Prod.snd) :
    SucceedingRun (x.dir path) (s.dirs.ran x.addr ++ ys) ∧
      (s.dirs.ran x.addr ++ ys).length < fuel := by
  have hworks : (s.dirs.ran x.addr ++ (ys ++ zs)).map Prod.snd =
      submissions (devName path x.dev) (firstMountDate x.tv) (s.begun x.dev x.addr)
        (s.since x.dev x.addr) := by
    rw [List.map_append, ← hpending]
    exact h.handed x hx.opened
  have hcount := congrArg List.length hworks
  have hscans := hx.scans
  rw [submissions, List.length_map, List.length_map, beforeImages_length] at hcount
  have hall : SucceedingRun (x.dir path) (s.dirs.ran x.addr ++ (ys ++ zs)) := by
    apply succeedingRun_submissions hworks ?_ hx.fits
    intro run hrun
    rcases List.mem_append.mp hrun with hrun | hrun
    · exact h.succeeded x hx.opened run hrun
    · exact (List.mem_append.mp hrun).elim (hys run) (hzs run)
  refine ⟨⟨fun run hrun => hall.dir_eq run ?_, fun run hrun => hall.succeeds run ?_,
    fun run hrun => hall.transfers run ?_, le_trans ?_ hall.fits⟩, ?_⟩
  · rw [← List.append_assoc]
    exact List.mem_append_left _ hrun
  · rw [← List.append_assoc]
    exact List.mem_append_left _ hrun
  · rw [← List.append_assoc]
    exact List.mem_append_left _ hrun
  · have hsplit : (s.dirs.ran x.addr ++ (ys ++ zs)).map Prod.snd =
        (s.dirs.ran x.addr ++ ys).map Prod.snd ++ zs.map Prod.snd := by simp
    rw [hsplit]
    exact encodeLog_firstRecords_le _ _
  · rw [← List.append_assoc, List.length_append] at hcount
    omega

omit [DecidableEq ι] in
theorem Drained.pending_eq_nil (hdrained : s.Drained x) : s.dirs.pending x = [] := by
  rw [pending, List.map_eq_nil_iff, List.filter_eq_nil_iff]
  intro q hq
  simpa using hdrained q hq

variable (h : (disksMachine hash maxEntries fuel path N).Reach Healthy s)
  (hx : s.Loggable path fuel x)
include h hx

theorem isolated : s.dirs.Isolated hash maxEntries fuel path x := by
  apply (SnapshotDirs.inv_of_reachable (dirs_reachable h)).isolated x hx.opened
  intro y hy haddr hdir
  exact hx.alone y hy haddr ((Opening.dir_eq_iff path y x).mp hdir)

/-- The work at the head of the queue comes to its end. -/
theorem work_returns {o : WorkOutcomes} (ho : o.Succeeds) {w : MakeSnapshotWork}
    {wq : List (ℕ × MakeSnapshotWork)} (hwq : s.dirs.wq x.dev = (x.addr, w) :: wq) :
    ∃ s', (disksMachine hash maxEntries fuel path N).step s (.work x.dev o) = some s' := by
  have hinv := SnapshotDirs.inv_of_reachable (dirs_reachable h)
  obtain ⟨t, hran, hcached, hpath, hfile⟩ := isolated h hx
  have hrest : ∀ z ∈ (wq.filter fun q => q.1 = x.addr).map fun q => (WorkOutcomes.allDone, q.2),
      z.1.Succeeds := by
    intro z hz
    obtain ⟨q, -, rfl⟩ := List.mem_map.mp hz
    exact WorkOutcomes.allDone_succeeds
  obtain ⟨hrun, hshort⟩ := hx.succeedingRun (inv_of_reach h) [(o, w)] _
    (by simpa using ho) hrest (by simp [pending, hwq, Function.comp_def])
  obtain ⟨u, hu, -⟩ := hrun.run_logged maxEntries (WorkState.fresh_freshEpoch hash _) hshort.le
  rw [Machine.run_concat, hran, Option.bind_some] at hu
  have hdir : w.dir = x.dir path := hrun.dir_eq (o, w) (by simp)
  simp only [epochMachine, hdir, if_true, Option.map_eq_some_iff] at hu
  obtain ⟨⟨u, e⟩, hmake, rfl⟩ := hu
  have hown : ∀ d, t.pathSnapdir = some d → d = w.dir := by
    intro d hd
    rw [hdir]
    rw [hpath] at hd
    exact (hinv.handles x hx.opened).path_eq d hd
  obtain ⟨u', hmake', -⟩ := makeSnapshot_alike (u := s.dirs.workState x.addr) hcached.symm
    hpath.symm (by rw [hdir]; exact hfile.symm) hown hmake
  refine ⟨{ s with dirs := s.dirs.worked x.dev x.addr w wq o u' }, ?_⟩
  simp only [disksMachine, dirsMachine, label, hwq, hmake']
  rfl

/-- The file of a drained epoch holds the first before-image of every block. -/
theorem content_eq (hN : N x.dev * singlefilefsBlockSize < 2 ^ 63) (hdrained : s.Drained x) :
    s.content path x = encodeLog (blockRecords (devName path x.dev) (firstMountDate x.tv)
      (firstBy Prod.fst (beforeImages (s.begun x.dev x.addr) (s.since x.dev x.addr)))) ∧
    (encodeLog (blockRecords (devName path x.dev) (firstMountDate x.tv)
      (firstBy Prod.fst (beforeImages (s.begun x.dev x.addr)
        (s.since x.dev x.addr))))).length ≤ maxLfsFilesize ∧
    (firstBy Prod.fst (beforeImages (s.begun x.dev x.addr) (s.since x.dev x.addr))).length <
      fuel := by
  obtain ⟨t, hran, -, -, hfile⟩ := isolated h hx
  have hinv := inv_of_reach h
  have hnil := hdrained.pending_eq_nil
  have hhanded := hinv.handed x hx.opened
  rw [hnil, List.append_nil] at hhanded
  obtain ⟨hrun, hshort⟩ := hx.succeedingRun hinv [] [] (by simp) (by simp) hnil
  rw [List.append_nil] at hrun hshort
  obtain ⟨u, hu, hlogged⟩ :=
    hrun.run_logged maxEntries (WorkState.fresh_freshEpoch hash _) hshort.le
  obtain rfl : t = u := Option.some.inj (hran.symm.trans hu)
  have hrecords := firstRecords_submissions (devName path x.dev) (firstMountDate x.tv) hN
    (s.begun x.dev x.addr) (s.since x.dev x.addr)
  have hcontent := hlogged.content_eq
  have hfits := hrun.fits
  have hle := firstRecords_length_le ((s.dirs.ran x.addr).map Prod.snd)
  rw [List.length_map] at hle
  rw [hhanded, hrecords] at hcontent hfits hle
  rw [List.length_map] at hle
  refine ⟨?_, hfits, hle.trans_lt hshort⟩
  rw [content, ← hfile]
  exact hcontent

/-- Restoring the file of a drained epoch, after any attempts, takes the device from the end
of the epoch to its start. -/
theorem doRestore_epoch (hN : N x.dev * singlefilefsBlockSize < 2 ^ 63) (hdrained : s.Drained x)
    {opts : RestoreOpts} (hopts : opts.All) (kind : DeviceKind) (stdin : Bytes)
    (attempts : List RestoreAttempt) :
    ∃ t, doRestore opts (fun _ => .allDone) fuel (s.content path x)
        (.start kind (attempts.foldl (RestoreAttempt.after kind (s.content path x))
          (flatten (s.ended x.dev x.addr))) stdin) = some (t, true) ∧
      t.dev.data = flatten (s.begun x.dev x.addr) := by
  obtain ⟨hcontent, hfits, hcount⟩ := content_eq h hx hN hdrained
  rw [hcontent]
  have hoverwritten : HoldsOutside (firstBy Prod.fst
      (beforeImages (s.begun x.dev x.addr) (s.since x.dev x.addr))) (s.begun x.dev x.addr)
      (flatten (s.ended x.dev x.addr)) := by
    refine ⟨_, rfl, fun b hb => applyWrites_of_not_mem ?_⟩
    rwa [exists_mem_firstBy, exists_mem_beforeImages] at hb
  exact doRestore_holdsOutside hN hopts (firstBy_beforeImages _ _)
    (attempts_holdsOutside hN hfits kind attempts hoverwritten) kind stdin hfits hcount

end Epoch

end Disks

/-- With any devices, mounts, umounts, writes and works in any order, the works of an epoch
come to their ends, and when none is left the restore of its file takes the device from its
state at the last write of the epoch to that at the first mount. -/
theorem epochs_restorable {hash : UInt64 → ℕ} {maxEntries fuel : ℕ} {path : ι → CStr}
    {s : Disks ι N} (h : (disksMachine hash maxEntries fuel path N).Reach Healthy s)
    {x : Opening ι} (hN : N x.dev * singlefilefsBlockSize < 2 ^ 63)
    (hx : s.Loggable path fuel x) :
    (∀ o w wq, o.Succeeds → s.dirs.wq x.dev = (x.addr, w) :: wq →
      ∃ s', (disksMachine hash maxEntries fuel path N).step s (.work x.dev o) = some s') ∧
    (∀ e, (s.dirs.object x.dev).e = some e → e.addr = x.addr →
      s.image x.dev = s.ended x.dev x.addr) ∧
    (s.Drained x → ∀ opts : RestoreOpts, opts.All → ∀ kind stdin,
      ∃ t, doRestore opts (fun _ => .allDone) fuel (s.content path x)
        (.start kind (flatten (s.ended x.dev x.addr)) stdin) = some (t, true) ∧
        t.dev.data = flatten (s.begun x.dev x.addr)) := by
  refine ⟨fun o w wq ho hwq => Disks.work_returns h hx ho hwq, fun e he haddr => ?_, ?_⟩
  · rw [← haddr]
    exact (Disks.inv_of_reach h).current x.dev e he
  · intro hdrained opts hopts kind stdin
    exact Disks.doRestore_epoch h hx hN hdrained hopts kind stdin []

/-- A block of one byte value. -/
def filledBlock (v : UInt8) : Block singlefilefsBlockSize :=
  ⟨List.replicate singlefilefsBlockSize v, List.length_replicate⟩

/-- Two images of one block. -/
def imgDisks : Disks Bool fun _ => 1 :=
  ⟨imgDirs, fun _ _ => filledBlock 0, fun _ _ _ => filledBlock 0, fun _ _ => []⟩

/-- Both are mounted and written to, and their works change places. -/
def imgHistory : List (DisksAct Bool fun _ => 1) :=
  [.mount false true ⟨8, by decide⟩, .mount true true ⟨9, by decide⟩,
    .write false 0 (filledBlock 1) .allDone, .write true 0 (filledBlock 2) .allDone,
    .work true .allDone, .write false 0 (filledBlock 3) .allDone, .umount false true,
    .work false .allDone, .work false .allDone]

theorem imgHistory_healthy (s : Disks Bool fun _ => 1) (as : List (DisksAct Bool fun _ => 1))
    (has : ∀ a ∈ as, a ∈ imgHistory) :
    (disksMachine (fun _ => 0) 4 4 imgPath fun _ => 1).Meets Healthy s as := by
  apply Machine.meets_of_invariant (I := fun _ => True) (p := fun a => a ∈ imgHistory)
    ?_ (fun _ _ _ _ _ _ => trivial) trivial has
  intro t a _ ha
  have hall : ∀ a ∈ imgHistory, Healthy t a := by
    simp [imgHistory, Healthy, WorkOutcomes.allDone_succeeds, SubmitOutcomes.Succeeds]
  exact hall a ha

theorem epochs_restorable_img :
    ∃ s x, (disksMachine (fun _ => 0) 4 4 imgPath fun _ => 1).run imgDisks imgHistory = some s ∧
      x ∈ s.dirs.opened ∧ x.dev = false ∧
      ∃ t, doRestore ⟨true, 0, false⟩ (fun _ => .allDone) 4 (s.content imgPath x)
        (.start .block (flatten (s.ended x.dev x.addr)) []) = some (t, true) ∧
        t.dev.data = flatten (s.begun x.dev x.addr) := by
  have hrun := Machine.run_eq_getD (disksMachine (fun _ => 0) 4 4 imgPath fun _ => 1) imgDisks
    imgHistory (by decide +kernel)
  generalize hs : ((disksMachine (fun _ => 0) 4 4 imgPath fun _ => 1).run imgDisks
    imgHistory).getD imgDisks = s at hrun
  have hopened : s.dirs.opened.map (fun x => (x.dev, x.addr, x.dir imgPath)) =
      [(false, 0, "img-1970-01-01_00:00:08".toList),
        (true, 1, "img-1970-01-01_00:00:09".toList)] := by
    rw [← hs]
    decide +kernel
  have hwq : s.dirs.wq false = [] := by
    rw [← hs]
    decide +kernel
  have hsince : (s.since false 0).length = 2 := by
    rw [← hs]
    decide +kernel
  have hinit : (disksMachine (fun _ => 0) 4 4 imgPath fun _ => 1).init imgDisks :=
    imgDirs_init (fun _ => 0) 4 4
  have hreach := Machine.Reach.run (.init hinit) (imgHistory_healthy _ _ fun _ ha => ha) hrun
  obtain ⟨x, hx, hfields⟩ := List.mem_map.mp (hopened.symm ▸ List.mem_cons_self)
  obtain ⟨hdev, haddr, hdir⟩ : x.dev = false ∧ x.addr = 0 ∧
      x.dir imgPath = "img-1970-01-01_00:00:08".toList := by simpa using hfields
  have halone : ∀ y ∈ s.dirs.opened, y.addr ≠ x.addr → ¬ y.Collides imgPath x := by
    intro y hy hne hcollides
    have hsame := (Opening.dir_eq_iff imgPath y x).mpr hcollides
    have hmem := List.mem_map_of_mem (f := fun x => (x.dev, x.addr, x.dir imgPath)) hy
    rw [hopened, List.mem_cons, List.mem_singleton] at hmem
    rcases hmem with heq | heq
    · exact hne ((Prod.mk.inj (Prod.mk.inj heq).2).1.trans haddr.symm)
    · have hother := (Prod.mk.inj (Prod.mk.inj heq).2).2
      rw [hsame, hdir] at hother
      exact absurd hother (by decide)
  have hlog : s.Loggable imgPath 4 x :=
    ⟨hx, halone, by rw [hdev, haddr, hsince]; decide, by rw [hdev, haddr, hsince]; decide⟩
  have hdrained : s.Drained x := by
    rw [Disks.Drained, hdev, hwq]
    simp
  exact ⟨s, x, hrun, hx, hdev, (epochs_restorable hreach (by decide) hlog).2.2 hdrained _
    ⟨rfl, rfl⟩ .block []⟩

end BlkdevSnapshot

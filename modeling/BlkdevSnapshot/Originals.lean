import BlkdevSnapshot.EndToEnd
import BlkdevSnapshot.FailedWrites
import BlkdevSnapshot.RestoreTorn

/-!
# Whose content a restore puts back

The writes of an epoch together with their submissions and works, any step of
which may fail. The state keeps the image that the epoch began with, the blocks
written since then and the records written completely, which no code reads.
-/
namespace BlkdevSnapshot

/-- What the allocations of a submission and `queue_work` return. -/
structure SubmitOutcomes where
  xkpblocksNode : Bool
  msw : Bool
  mswBlock : Bool
  queueWork : Bool
  deriving DecidableEq, Repr

/-- `queue_snapshot_work` in an open epoch: the result and the work queue. -/
def queueSnapshotWork {α : Type*} (o : SubmitOutcomes) (wq : List α) (msw : α) : Bool × List α :=
  if !o.msw then (false, wq)
  else if !o.mswBlock then (false, wq)
  else if !o.queueWork then (false, wq)
  else (true, wq ++ [msw])

/-- The probes of one block write: `vfs_write_entry_handler` needs a node for the
thread, and `write_dirty_buffer_pre_handler` drops the result of the queueing. -/
def submitBlock {α : Type*} (o : SubmitOutcomes) (wq : List α) (msw : α) : List α :=
  if o.xkpblocksNode then (queueSnapshotWork o wq msw).2 else wq

theorem submitBlock_eq {α : Type*} (o : SubmitOutcomes) (wq : List α) (msw : α) :
    submitBlock o wq msw = wq ∨ submitBlock o wq msw = wq ++ [msw] := by
  unfold submitBlock queueSnapshotWork
  cases o.xkpblocksNode <;> cases o.msw <;> cases o.mswBlock <;> cases o.queueWork <;> simp

/-- A device during one epoch. A queued work carries whether it was submitted by
the first write to its block. -/
structure DeviceEpoch (N : ℕ) where
  work : WorkState
  image : Image N
  wq : List (MakeSnapshotWork × Bool)
  initial : Image N
  touched : List (Fin N)
  recorded : List Record

/-- A block write, or the execution of the work at the head of the queue. -/
inductive EpochAct (N : ℕ) where
  | write (i : Fin N) (new : Block singlefilefsBlockSize) (o : SubmitOutcomes)
  | work (o : WorkOutcomes)

/-- Block writes and works of one epoch, in any order. -/
def deviceMachine (hash : UInt64 → ℕ) (maxEntries fuel : ℕ) (devname mountdate : CStr) (N : ℕ) :
    Machine (DeviceEpoch N) (EpochAct N) where
  init s := FreshEpoch hash (subdirname devname mountdate) s.work ∧ s.image = s.initial ∧
    s.wq = [] ∧ s.touched = [] ∧ s.recorded = []
  step
    | s, .write i new o => some { s with
        image := Function.update s.image i new
        touched := i :: s.touched
        wq := submitBlock o s.wq (beforeImageWork devname mountdate (i, s.image i),
          decide (i ∉ s.touched)) }
    | s, .work o =>
      match s.wq with
      | [] => none
      | (w, _) :: wq => (makeSnapshot hash maxEntries fuel o w s.work).map fun r => { s with
          work := r.1
          wq := wq
          recorded := if r.2 = .written then s.recorded ++ [w.record] else s.recorded }

/-- The first write of a record gets nothing into the file. -/
def WriteOutcomes.TakesNothing (o : WriteOutcomes) (file : Bytes) (w : MakeSnapshotWork) : Prop :=
  (kernelWrite o.mandatoryHdr file w.fileHdr.toBytes).2.getD 0 = 0

instance (o : WriteOutcomes) (file : Bytes) (w : MakeSnapshotWork) :
    Decidable (o.TakesNothing file w) :=
  inferInstanceAs (Decidable (_ = _))

theorem WriteOutcomes.TakesNothing.file_eq {o : WriteOutcomes} {file : Bytes}
    {w : MakeSnapshotWork} (h : o.TakesNothing file w) :
    (writeSnapblock o file w.wargs).1 = file ∧ (writeSnapblock o file w.wargs).2 = false := by
  have hcut : (kernelWrite o.mandatoryHdr file w.fileHdr.toBytes).2 ≠ some sizeofHdr := by
    intro hfull
    simp [TakesNothing, hfull, sizeofHdr] at h
  simp [writeSnapblock, writePart, MakeSnapshotWork.wargs, kernelWrite_nothing h, hcut]

namespace DeviceEpoch
variable {N : ℕ}

/-- Restoring everything over a device of the same size ends, and whatever it
writes is content that a block had when the epoch began, at that block. -/
def RestoresOriginals (s : DeviceEpoch N) (file : Bytes) : Prop :=
  ∀ (opts : RestoreOpts) (outs : ℕ → IterOutcomes) (kind : DeviceKind) (data stdin : Bytes),
    opts.All → data.length = N * singlefilefsBlockSize →
    (file.length + singlefilefsBlockSize ≤ maxLfsFilesize ∨ ∀ i, outs i = .allDone) →
    ∃ fuel₀, ∀ fuel, fuel₀ ≤ fuel → ∃ t ended,
      doRestore opts outs fuel file (.start kind data stdin) = some (t, ended) ∧
      ∀ off bytes, .write off bytes ∈ t.log →
        ∃ i : Fin N, off = i * singlefilefsBlockSize ∧ bytes <+: (s.initial i).val

/-- A step keeps clear of the ways in which later content or a torn record gets
in front of an original: a work that gets bytes into the file finds only complete
records there, and one that gets a whole record in was submitted by the first
write to its block. -/
def KeepsOriginals (hash : UInt64 → ℕ) (fuel : ℕ) (dir : CStr) (s : DeviceEpoch N) :
    EpochAct N → Prop
  | .write _ _ _ => True
  | .work o => ∀ q ∈ s.wq.head?, reachesWrite hash fuel o q.1 s.work = true →
      o.write.TakesNothing (s.work.content dir) q.1 ∨
      (s.work.content dir = encodeLog s.recorded ∧
        (o.write.Whole (s.work.content dir) q.1 → q.2 = true))

instance (hash : UInt64 → ℕ) (fuel : ℕ) (dir : CStr) (s : DeviceEpoch N) (a : EpochAct N) :
    Decidable (s.KeepsOriginals hash fuel dir a) := by
  cases a with
  | write i new o => exact isTrue trivial
  | work o => unfold KeepsOriginals; infer_instance

/-- The file is a log of originals with at most one torn record behind them. -/
structure Intact (hash : UInt64 → ℕ) (devname mountdate : CStr) (s : DeviceEpoch N) : Prop where
  ok : s.work.Ok hash (subdirname devname mountdate)
  bounded : (s.work.content (subdirname devname mountdate)).length ≤ maxLfsFilesize
  untouched : ∀ i, i ∉ s.touched → s.image i = s.initial i
  queued : ∀ q ∈ s.wq, ∃ e : Fin N × Block singlefilefsBlockSize,
    q.1 = beforeImageWork devname mountdate e ∧ (q.2 = true → e.2 = s.initial e.1)
  originals : ∀ r ∈ s.recorded, ∃ i,
    r = (beforeImageWork devname mountdate (i, s.initial i)).record
  log : ∃ tail, s.work.content (subdirname devname mountdate) = encodeLog s.recorded ++ tail ∧
    TornTail singlefilefsBlockSize tail

theorem Intact.restoresOriginals {hash : UInt64 → ℕ} {devname mountdate : CStr}
    {s : DeviceEpoch N} (hN : N * singlefilefsBlockSize < 2 ^ 63)
    (h : s.Intact hash devname mountdate) :
    s.RestoresOriginals (s.work.content (subdirname devname mountdate)) := by
  obtain ⟨tail, hlog, htail⟩ := h.log
  have hbounded := h.bounded
  rw [hlog] at hbounded ⊢
  intro opts outs kind data stdin hopts hdata hroom
  have hsize : data.length ≤ maxLfsFilesize := by
    rw [hdata]
    simp only [maxLfsFilesize]
    omega
  have hdev : ∀ r ∈ s.recorded, r.OnDevice data.length := by
    intro r hr
    obtain ⟨i, rfl⟩ := h.originals r hr
    rw [hdata]
    exact beforeImageWork_onDevice devname mountdate _ hN
  obtain ⟨fuel₀, hrestore⟩ :=
    doRestore_writesFrom hopts outs hbounded htail hroom kind stdin hsize hdev
  refine ⟨fuel₀, fun fuel hfuel => ?_⟩
  obtain ⟨t, ended, hrun, hwrites⟩ := hrestore fuel hfuel
  refine ⟨t, ended, hrun, fun off bytes hmem => ?_⟩
  obtain ⟨r, hr, hoff, hbytes⟩ := hwrites off bytes hmem
  obtain ⟨i, rfl⟩ := h.originals r hr
  refine ⟨i, ?_, hbytes⟩
  rw [hoff, beforeImageWork_payload_length]
  show (UInt64.ofNat i).toNat * _ = _
  rw [toNat_ofNat_blockNr hN]

theorem Intact.write {hash : UInt64 → ℕ} {devname mountdate : CStr} {s : DeviceEpoch N}
    (h : s.Intact hash devname mountdate) (i : Fin N) (new : Block singlefilefsBlockSize)
    (o : SubmitOutcomes) : Intact hash devname mountdate { s with
      image := Function.update s.image i new
      touched := i :: s.touched
      wq := submitBlock o s.wq (beforeImageWork devname mountdate (i, s.image i),
        decide (i ∉ s.touched)) } := by
  refine ⟨h.ok, h.bounded, fun j hj => ?_, fun q hq => ?_, h.originals, h.log⟩
  · simp only [List.mem_cons, not_or] at hj
    show Function.update s.image i new j = s.initial j
    rw [Function.update_of_ne hj.1, h.untouched j hj.2]
  · simp only at hq
    rcases submitBlock_eq o s.wq (beforeImageWork devname mountdate (i, s.image i),
      decide (i ∉ s.touched)) with hwq | hwq
    · rw [hwq] at hq
      exact h.queued q hq
    · rw [hwq, List.mem_append, List.mem_singleton] at hq
      rcases hq with hq | rfl
      · exact h.queued q hq
      · refine ⟨(i, s.image i), rfl, fun hfirst => h.untouched i ?_⟩
        simpa using hfirst

/-- A work that leaves the file alone. -/
theorem Intact.keep {hash : UInt64 → ℕ} {devname mountdate : CStr} {s : DeviceEpoch N}
    {t : WorkState} {wq : List (MakeSnapshotWork × Bool)} (h : s.Intact hash devname mountdate)
    (hok : t.Ok hash (subdirname devname mountdate)) (hwq : ∀ q ∈ wq, q ∈ s.wq)
    (hfile : t.content (subdirname devname mountdate) =
      s.work.content (subdirname devname mountdate)) :
    Intact hash devname mountdate { s with work := t, wq := wq } :=
  ⟨hok, by rw [hfile]; exact h.bounded, h.untouched, fun q hq => h.queued q (hwq q hq),
    h.originals, by rw [hfile]; exact h.log⟩

/-- The execution of the work at the head of the queue. -/
theorem Intact.execute {hash : UInt64 → ℕ} {maxEntries fuel : ℕ} {devname mountdate : CStr}
    {s : DeviceEpoch N} {o : WorkOutcomes} {q : MakeSnapshotWork × Bool}
    {wq : List (MakeSnapshotWork × Bool)} {t : WorkState} {e : WorkEnd}
    (h : s.Intact hash devname mountdate) (hwq : s.wq = q :: wq)
    (hact : s.KeepsOriginals hash fuel (subdirname devname mountdate) (.work o))
    (hmake : makeSnapshot hash maxEntries fuel o q.1 s.work = some (t, e)) :
    Intact hash devname mountdate { s with
      work := t
      wq := wq
      recorded := if e = .written then s.recorded ++ [q.1.record] else s.recorded } := by
  obtain ⟨⟨i, c⟩, hq, hfirst⟩ := h.queued q (by simp [hwq])
  have hdir : q.1.dir = subdirname devname mountdate := by rw [hq]; rfl
  have hrest : ∀ p ∈ wq, p ∈ s.wq := fun p hp => by rw [hwq]; exact List.mem_cons_of_mem _ hp
  have hguard := hact q (by simp [hwq])
  have hok := h.ok
  rw [← hdir] at hok
  obtain ⟨hok', -, heff⟩ := makeSnapshot_effect hok hmake
  rw [hdir] at hok' heff
  have happ := writeSnapblock_appends o.write (s.work.content (subdirname devname mountdate))
    q.1.wargs
  generalize hf' : t.content (subdirname devname mountdate) = file' at heff
  generalize t.cached = cached' at heff
  cases heff with
  | lruFailed => exact h.keep hok' hrest hf'
  | hit hk => exact h.keep hok' hrest hf'
  | dirFailed hk => exact h.keep hok' hrest hf'
  | fileFailed hk => exact h.keep hok' hrest hf'
  | found hk hl => exact h.keep hok' hrest hf'
  | written hk hl hw =>
    rw [hw] at happ
    have hwhole := (writeSnapblock_eq_true_iff _ _ _).mp hw
    rcases hguard (reachesWrite_of_exit hmake (.inl rfl)) with hnone | ⟨hlog, hflag⟩
    · rw [hnone.file_eq.2] at hw
      cases hw
    · have horig : q.1.record = (beforeImageWork devname mountdate (i, s.initial i)).record := by
        rw [hq, show c = s.initial i from hfirst (hflag hwhole)]
      refine ⟨hok', by rw [hf']; exact happ.bounded h.bounded, h.untouched,
        fun p hp => h.queued p (hrest p hp), fun r hr => ?_, [], ?_, .inl rfl⟩
      · simp only [if_true, List.mem_append, List.mem_singleton] at hr
        rcases hr with hr | rfl
        · exact h.originals r hr
        · exact ⟨i, horig⟩
      · rw [hf', happ.eq_append, hlog, q.1.wargs_bytes]
        simp
  | writeFailed hk hl hw =>
    rw [hw] at happ
    rcases hguard (reachesWrite_of_exit hmake (.inr rfl)) with hnone | ⟨hlog, -⟩
    · exact h.keep hok' hrest (hf'.trans hnone.file_eq.1)
    · obtain ⟨k, hk, htake, hfull⟩ := happ.content
      have hlt : k < q.1.record.encode.length := by
        refine lt_of_le_of_ne hk fun heq => ?_
        simpa using hfull.mpr heq
      refine ⟨hok', by rw [hf']; exact happ.bounded h.bounded, h.untouched,
        fun p hp => h.queued p (hrest p hp), h.originals, q.1.record.encode.take k, ?_, .inr ?_⟩
      · rw [hf', htake, hlog]
        rfl
      · refine ⟨q.1.record, k, rfl, rfl, ?_, hlt, rfl⟩
        rw [hq]
        exact c.property

theorem Intact.step {hash : UInt64 → ℕ} {maxEntries fuel : ℕ} {devname mountdate : CStr}
    {s s' : DeviceEpoch N} {a : EpochAct N} (h : s.Intact hash devname mountdate)
    (hact : s.KeepsOriginals hash fuel (subdirname devname mountdate) a)
    (hstep : (deviceMachine hash maxEntries fuel devname mountdate N).step s a = some s') :
    s'.Intact hash devname mountdate := by
  cases a with
  | write i new o =>
    obtain rfl := Option.some.inj hstep
    exact h.write i new o
  | work o =>
    cases hwq : s.wq with
    | nil => simp [deviceMachine, hwq] at hstep
    | cons q wq =>
      simp only [deviceMachine, hwq, Option.map_eq_some_iff] at hstep
      obtain ⟨⟨t, e⟩, hmake, rfl⟩ := hstep
      exact h.execute hwq hact hmake

end DeviceEpoch

/-- In every run in which bytes are appended behind complete records only, and only
the first write to a block gets its content recorded, a restore writes original
content only. -/
theorem restoresOriginals_of_keepsOriginals (hash : UInt64 → ℕ) (maxEntries fuel : ℕ)
    (devname mountdate : CStr) {N : ℕ} (hN : N * singlefilefsBlockSize < 2 ^ 63)
    (s : DeviceEpoch N) (hs : (deviceMachine hash maxEntries fuel devname mountdate N).Reach
      (fun s a => s.KeepsOriginals hash fuel (subdirname devname mountdate) a) s) :
    s.RestoresOriginals (s.work.content (subdirname devname mountdate)) := by
  have hinv : s.Intact hash devname mountdate := by
    refine hs.invariant (fun s h => ?_) fun s a s' h ha hstep => h.step ha hstep
    obtain ⟨hfresh, himage, hwq, htouched, hrecorded⟩ := h
    have hempty : s.work.content (subdirname devname mountdate) = [] := by
      simp [WorkState.content, hfresh.absent]
    exact ⟨hfresh.ok, by simp [hempty], fun i _ => by rw [himage], by simp [hwq],
      by simp [hrecorded], [], by simp [hempty, hrecorded], .inl rfl⟩
  exact hinv.restoresOriginals hN

/-- A block that is written twice, submitted twice and recorded once. -/
theorem restoresOriginals_rewritten :
    let block (x : UInt8) : Block singlefilefsBlockSize :=
      ⟨List.replicate 4096 x, List.length_replicate⟩
    let done : SubmitOutcomes := ⟨true, true, true, true⟩
    let dir := subdirname "/dev/sda".toList "-2025-02-03_04:05:06".toList
    ∃ s, (deviceMachine (fun _ => 0) 1 2 "/dev/sda".toList "-2025-02-03_04:05:06".toList 1).run
        ⟨.fresh, fun _ => block 0, [], fun _ => block 0, [], []⟩
        [.write 0 (block 1) done, .write 0 (block 2) done, .work .allDone, .work .allDone] =
          some s ∧
      s.recorded.length = 1 ∧ s.RestoresOriginals (s.work.content dir) := by
  intro block done dir
  have hrun := (deviceMachine (fun _ => 0) 1 2 "/dev/sda".toList "-2025-02-03_04:05:06".toList
    1).run_eq_getD ⟨.fresh, fun _ => block 0, [], fun _ => block 0, [], []⟩
    [.write 0 (block 1) done, .write 0 (block 2) done, .work .allDone, .work .allDone]
    (by decide +kernel)
  refine ⟨_, hrun, by decide +kernel, ?_⟩
  apply restoresOriginals_of_keepsOriginals (fun _ => 0) 1 2 _ _ (by decide)
  exact .run (.init ⟨WorkState.fresh_freshEpoch _ _, rfl, rfl, rfl, rfl⟩) (by decide +kernel) hrun

/-- The first byte that a write of the tool puts on the device. -/
def RestoreEvent.firstByte : RestoreEvent → Option UInt8
  | .write _ bytes => bytes.head?
  | .header _ _ | .prompt _ _ => none

/-- The submission of the first write to a block fails and that of the second one
succeeds; then the content of the first write is recorded and restored. -/
theorem not_restoresOriginals :
    let dir := subdirname "/dev/sda".toList "-2025-02-03_04:05:06".toList
    ¬ ∀ s, (deviceMachine (fun _ => 0) 1 1 "/dev/sda".toList "-2025-02-03_04:05:06".toList
      1).Reachable s → s.RestoresOriginals (s.work.content dir) := by
  intro dir h
  let block (x : UInt8) : Block singlefilefsBlockSize :=
    ⟨List.replicate 4096 x, List.length_replicate⟩
  let M := deviceMachine (fun _ => 0) 1 1 "/dev/sda".toList "-2025-02-03_04:05:06".toList 1
  let s₀ : DeviceEpoch 1 := ⟨.fresh, fun _ => block 0, [], fun _ => block 0, [], []⟩
  let acts : List (EpochAct 1) := [.write 0 (block 1) ⟨true, false, true, true⟩,
    .write 0 (block 2) ⟨true, true, true, true⟩, .work .allDone]
  let s := (M.run s₀ acts).getD s₀
  have hinit : M.init s₀ := ⟨WorkState.fresh_freshEpoch _ _, rfl, rfl, rfl, rfl⟩
  have hreach : M.Reachable s :=
    Machine.reachable_of_run hinit _ (M.run_eq_getD s₀ acts (by decide +kernel))
  obtain ⟨fuel₀, hrestore⟩ := h s hreach ⟨true, 0, false⟩ (fun _ => .allDone) .regular (block 2).val
    [] ⟨rfl, rfl⟩ (by decide +kernel) (.inr fun _ => rfl)
  obtain ⟨t, ended, hrun, hwrites⟩ := hrestore (fuel₀ + 2) (by omega)
  have hstop : (restoreLoop ⟨true, 0, false⟩ (fun _ => .allDone) (s.work.content dir) 2 0
      (.start .regular (block 2).val [])).2 = .leave := by decide +kernel
  have hbad : (restoreLoop ⟨true, 0, false⟩ (fun _ => .allDone) (s.work.content dir) 2 0
      (.start .regular (block 2).val [])).1.log.any fun e => e.firstByte == some 1 := by
    decide +kernel
  rw [doRestore_of_stops _ _ (by omega : 2 ≤ fuel₀ + 2) (by rw [hstop]; decide)] at hrun
  generalize restoreLoop ⟨true, 0, false⟩ (fun _ => .allDone) (s.work.content dir) 2 0
    (.start .regular (block 2).val []) = loop at hrun hbad
  obtain ⟨rfl, -⟩ := Prod.mk.inj (Option.some.inj hrun)
  obtain ⟨e, hmem, he⟩ := List.any_eq_true.mp hbad
  cases e with
  | header off h => cases he
  | prompt b ans => cases he
  | write off bytes =>
    obtain ⟨i, -, rest, hrest⟩ := hwrites off bytes hmem
    have hone : bytes.head? = some 1 := beq_iff_eq.mp he
    have hhead := congrArg List.head? hrest
    rw [List.head?_append, hone] at hhead
    have hzero : ((s.initial i).val).head? = some 0 := by
      have hall : ∀ i : Fin 1, ((s.initial i).val).head? = some 0 := by decide +kernel
      exact hall i
    rw [hzero] at hhead
    cases hhead

end BlkdevSnapshot

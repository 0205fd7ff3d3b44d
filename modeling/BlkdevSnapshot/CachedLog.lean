import BlkdevSnapshot.WorkStep
import BlkdevSnapshot.FirstWrite

/-!
# The cached log is the first-write-wins log

Runs of snapshot works of one epoch in which every operation succeeds. The
invariant ties three things: the file is the log of first submissions, every
cached block was submitted before, and hence every cached block has a record.
-/
namespace BlkdevSnapshot
open LruNg RecencyList FirstWrite

/-- All allocations but that of the cache node, and all file operations, succeed. -/
structure WorkOutcomes.Succeeds (o : WorkOutcomes) : Prop where
  lruAlloc : o.lruAlloc = true
  dirHealthy : o.dirHealthy = true
  subdirnameAlloc : o.subdirnameAlloc = true
  initPath : o.initPath = true
  pathLookup : o.pathLookup = true
  create : o.create = true
  dentryOpen : o.dentryOpen = true
  headerRead : ∀ i, o.headerRead i = true
  mandatoryHdr : o.write.mandatoryHdr = .done
  payload : o.write.payload = .done

/-- Outcomes of a healthy system. -/
def WorkOutcomes.allDone : WorkOutcomes :=
  ⟨true, true, true, true, true, true, true, fun _ => true, ⟨.done, .done, .done⟩, true⟩

theorem WorkOutcomes.allDone_succeeds : WorkOutcomes.allDone.Succeeds :=
  ⟨rfl, rfl, rfl, rfl, rfl, rfl, rfl, fun _ => rfl, rfl, rfl⟩

/-- The state before the first work of the first epoch. -/
def WorkState.fresh : WorkState := ⟨none, none, fun _ => none⟩

theorem WorkState.fresh_freshEpoch (hash : UInt64 → ℕ) (dir : CStr) :
    FreshEpoch hash dir WorkState.fresh :=
  ⟨⟨by simp [fresh], by simp [fresh]⟩, rfl, rfl⟩

/-- `make_snapshot` with the cache left out: every work scans the file. -/
def makeSnapshotUncached (fuel : ℕ) (o : WorkOutcomes) (w : MakeSnapshotWork) (s : WorkState) :
    Option WorkState :=
  match ensurePathSnapdirOk o s.pathSnapdir w.originalDevName w.firstMountDate with
  | none => some { s with pathSnapdir := none }
  | some dir =>
    let setup := ensureSnapblocksFileOk o (s.snapblocks dir)
    let s := { s with
      pathSnapdir := some dir
      snapblocks := Function.update s.snapblocks dir setup.2 }
    match setup.1 with
    | .failed => some s
    | .errPtr => none
    | .opened content =>
      match fileLookup fuel o.headerRead w.blockNr content with
      | none => none
      | some true => some s
      | some false => some { s with
          snapblocks := Function.update s.snapblocks dir
            (some (writeSnapblock o.write content w.wargs).1) }

/-- The works of one epoch when there is no cache. -/
def uncachedMachine (fuel : ℕ) (dir : CStr) : Machine WorkState WorkRun where
  init s := s.pathSnapdir = none ∧ s.snapblocks dir = none
  step s x := if x.2.dir = dir then makeSnapshotUncached fuel x.1 x.2 s else none

/-- The records of the first submission of every block, in order of submission. -/
def firstRecords (ws : List MakeSnapshotWork) : List Record :=
  (firstBy MakeSnapshotWork.blockNr ws).map MakeSnapshotWork.record

theorem exists_mem_firstRecords (ws : List MakeSnapshotWork) (b : UInt64) :
    (∃ r ∈ firstRecords ws, r.blknr = b) ↔ ∃ w ∈ ws, w.blockNr = b := by
  rw [← exists_mem_firstBy MakeSnapshotWork.blockNr ws b]
  simp [firstRecords]

theorem firstRecords_concat (ws : List MakeSnapshotWork) (w : MakeSnapshotWork) :
    firstRecords (ws ++ [w]) =
      if ∃ v ∈ ws, v.blockNr = w.blockNr then firstRecords ws
      else firstRecords ws ++ [w.record] := by
  rw [firstRecords, firstBy_concat]
  split
  · rfl
  · simp [firstRecords]

theorem firstRecords_length_le (ws : List MakeSnapshotWork) :
    (firstRecords ws).length ≤ ws.length := by
  induction ws using List.reverseRecOn with
  | nil => simp [firstRecords, firstBy]
  | append_singleton ws w ih =>
    rw [firstRecords_concat]
    split <;> simp <;> omega

/-- Submitting more works never shortens the log. -/
theorem encodeLog_firstRecords_le (ws vs : List MakeSnapshotWork) :
    (encodeLog (firstRecords ws)).length ≤ (encodeLog (firstRecords (ws ++ vs))).length := by
  induction vs using List.reverseRecOn with
  | nil => simp
  | append_singleton vs v ih =>
    rw [← List.append_assoc, firstRecords_concat]
    split
    · exact ih
    · rw [encodeLog_append, List.length_append]
      omega

/-- A write that the medium takes and the limits admit appends the whole record. -/
theorem writeSnapblock_succeeds {o : WorkOutcomes} (ho : o.Succeeds) {file : Bytes}
    {w : MakeSnapshotWork} (hrw : w.block.length ≤ maxRwCount)
    (hfit : file.length + w.record.encode.length ≤ maxLfsFilesize) :
    (writeSnapblock o.write file w.wargs).2 = true := by
  have hlen : w.record.encode.length = sizeofHdr + w.block.length := by
    simp [MakeSnapshotWork.record]
  rw [hlen] at hfit
  have hsize : w.fileHdr.toBytes.length = sizeofHdr := w.fileHdr.toBytes_length
  have hhdr : kernelWrite .done file w.fileHdr.toBytes =
      (file ++ w.fileHdr.toBytes, some w.fileHdr.toBytes.length) :=
    kernelWrite_done (by rw [hsize]; decide) (by rw [hsize]; omega)
  have hpay : kernelWrite .done (file ++ w.fileHdr.toBytes) w.block =
      (file ++ w.fileHdr.toBytes ++ w.block, some w.block.length) :=
    kernelWrite_done hrw (by rw [List.length_append, hsize]; omega)
  simp [writeSnapblock, writePart, MakeSnapshotWork.wargs, ho.mandatoryHdr, ho.payload, hhdr, hpay]

theorem initPathSnapdir_succeeds {o : WorkOutcomes} (ho : o.Succeeds) (w : MakeSnapshotWork) :
    initPathSnapdir o w.originalDevName w.firstMountDate = some w.dir := by
  simp [initPathSnapdir, ho.subdirnameAlloc, ho.initPath, MakeSnapshotWork.dir]

theorem ensurePathSnapdirOk_succeeds {o : WorkOutcomes} (ho : o.Succeeds) (w : MakeSnapshotWork)
    {path : Option CStr} (hp : ∀ d, path = some d → d = w.dir) :
    ensurePathSnapdirOk o path w.originalDevName w.firstMountDate = some w.dir := by
  cases path with
  | none => exact initPathSnapdir_succeeds ho w
  | some d => simp [ensurePathSnapdirOk, ho.dirHealthy, hp d rfl]

theorem ensureSnapblocksFileOk_succeeds {o : WorkOutcomes} (ho : o.Succeeds)
    (file : Option Bytes) :
    ensureSnapblocksFileOk o file = (.opened (file.getD []), some (file.getD [])) := by
  cases file <;> simp [ensureSnapblocksFileOk, createSnapblocksFile, ho.pathLookup, ho.create,
    ho.dentryOpen]

/-- How a work ends whose calls in front of the write succeed. -/
theorem makeSnapshot_ends (hash : UInt64 → ℕ) (maxEntries fuel : ℕ) {o : WorkOutcomes}
    (ho : o.Succeeds) {w : MakeSnapshotWork} {s : WorkState} (hs : s.Ok hash w.dir) :
    let lookup := fileLookup fuel o.headerRead w.blockNr (s.content w.dir)
    (∃ s', makeSnapshot hash maxEntries fuel o w s = some (s', .hit)) ∨
    (lookup = none ∧ makeSnapshot hash maxEntries fuel o w s = none) ∨
    (lookup = some true ∧ ∃ s', makeSnapshot hash maxEntries fuel o w s = some (s', .found)) ∨
    (lookup = some false ∧ ∃ s', makeSnapshot hash maxEntries fuel o w s =
      some (s', if (writeSnapblock o.write (s.content w.dir) w.wargs).2 then .written
        else .writeFailed)) := by
  obtain ⟨lru, hlru⟩ : ∃ lru, ensureCachedBlocksLruOk o.lruAlloc s.cachedBlocks = some lru := by
    cases hc : s.cachedBlocks <;> simp [ensureCachedBlocksLruOk, ho.lruAlloc]
  have hdir := ensurePathSnapdirOk_succeeds ho w hs.path_eq
  have hfile := ensureSnapblocksFileOk_succeeds ho (s.snapblocks w.dir)
  unfold WorkState.content makeSnapshot
  simp only
  cases hhit : (lruNgLookup hash lru w.blockNr).1 with
  | true =>
    simp only [hlru, hhit, if_true]
    exact .inl ⟨_, rfl⟩
  | false =>
    simp only [hlru, hhit, Bool.false_eq_true, if_false, hdir, hfile, snapshotInto]
    cases fileLookup fuel o.headerRead w.blockNr ((s.snapblocks w.dir).getD []) with
    | none => exact .inr (.inl ⟨rfl, rfl⟩)
    | some found =>
      cases found with
      | true => exact .inr (.inr (.inl ⟨rfl, _, rfl⟩))
      | false =>
        refine .inr (.inr (.inr ⟨rfl, ?_⟩))
        cases (writeSnapblock o.write ((s.snapblocks w.dir).getD []) w.wargs).2 with
        | true => exact ⟨_, rfl⟩
        | false => exact ⟨_, rfl⟩

/-- With succeeding operations a work returns as soon as its scan does, by one of
three exits. -/
theorem makeSnapshot_succeeds (hash : UInt64 → ℕ) (maxEntries : ℕ) {fuel : ℕ} {o : WorkOutcomes}
    (ho : o.Succeeds) {w : MakeSnapshotWork} {s : WorkState} (hs : s.Ok hash w.dir)
    {found : Bool} (hl : fileLookup fuel o.headerRead w.blockNr (s.content w.dir) = some found)
    (hw : found = false → (writeSnapblock o.write (s.content w.dir) w.wargs).2 = true) :
    ∃ s' e, makeSnapshot hash maxEntries fuel o w s = some (s', e) ∧
      (e = .hit ∨ e = .found ∨ e = .written) := by
  rcases makeSnapshot_ends hash maxEntries fuel ho hs with
    ⟨s', h⟩ | ⟨hnone, -⟩ | ⟨-, s', h⟩ | ⟨hlost, s', h⟩
  · exact ⟨s', _, h, .inl rfl⟩
  · rw [hl] at hnone
    cases hnone
  · exact ⟨s', _, h, .inr (.inl rfl)⟩
  · rw [hl, Option.some.injEq] at hlost
    rw [hw hlost, if_pos rfl] at h
    exact ⟨s', _, h, .inr (.inr rfl)⟩

/-- What holds after the works `ws` of an epoch were executed. -/
structure Logged (hash : UInt64 → ℕ) (dir : CStr) (ws : List MakeSnapshotWork) (s : WorkState) :
    Prop where
  ok : s.Ok hash dir
  content_eq : s.content dir = encodeLog (firstRecords ws)
  submitted : ∀ b ∈ s.cached, ∃ w ∈ ws, w.blockNr = b

/-- The exits of a succeeding work extend the log by exactly the new block. -/
theorem Logged.effect {hash : UInt64 → ℕ} {maxEntries fuel : ℕ} {ws : List MakeSnapshotWork}
    {o : WorkOutcomes} {w : MakeSnapshotWork} {s s' : WorkState} {e : WorkEnd}
    (h : Logged hash w.dir ws s) (ho : o.Succeeds) (hfuel : ws.length < fuel)
    (hfit : (s.content w.dir).length ≤ maxLfsFilesize) (hok : s'.Ok hash w.dir)
    (he : e = .hit ∨ e = .found ∨ e = .written)
    (heff : WorkEffect maxEntries fuel o w (s.content w.dir) s.cached e (s'.content w.dir)
      s'.cached) :
    Logged hash w.dir (ws ++ [w]) s' := by
  have hlog := h.content_eq
  have hscan : fileLookup fuel o.headerRead w.blockNr (s.content w.dir) =
      some (decide (∃ v ∈ ws, v.blockNr = w.blockNr)) := by
    have hlen := firstRecords_length_le ws
    rw [hlog, fileLookup_log _ _ ho.headerRead (by rw [← hlog]; exact hfit) (by omega)]
    simp only [exists_mem_firstRecords]
  have hold (b : UInt64) (hb : b ∈ s.cached) : ∃ v ∈ ws ++ [w], v.blockNr = b := by
    obtain ⟨v, hv, hvb⟩ := h.submitted b hb
    exact ⟨v, List.mem_append_left _ hv, hvb⟩
  have hself : ∃ v ∈ ws ++ [w], v.blockNr = w.blockNr := ⟨w, by simp, rfl⟩
  have hpush (b : UInt64) (hb : b ∈ if o.nodeAlloc then push maxEntries s.cached w.blockNr
      else s.cached) : ∃ v ∈ ws ++ [w], v.blockNr = b := by
    split at hb
    · rcases mem_of_mem_push hb with hb | rfl
      · exact hold b hb
      · exact hself
    · exact hold b hb
  generalize hf' : s'.content w.dir = file' at heff
  generalize hc' : s'.cached = cached' at heff
  cases heff with
  | lruFailed => simp at he
  | dirFailed => simp at he
  | fileFailed => simp at he
  | writeFailed => simp at he
  | hit hk =>
    refine ⟨hok, ?_, ?_⟩
    · rw [hf', hlog, firstRecords_concat, if_pos (h.submitted _ hk)]
    · intro b hb
      rw [hc', mem_touch hk] at hb
      exact hold b hb
  | found hk hl =>
    have hseen : ∃ v ∈ ws, v.blockNr = w.blockNr := by
      rw [hscan] at hl
      simpa using hl
    refine ⟨hok, ?_, ?_⟩
    · rw [hf', hlog, firstRecords_concat, if_pos hseen]
    · intro b hb
      rw [hc'] at hb
      exact hpush b hb
  | written hk hl hw =>
    have hnew : ¬ ∃ v ∈ ws, v.blockNr = w.blockNr := by
      rw [hscan] at hl
      simpa using hl
    have happ := writeSnapblock_appends o.write (s.content w.dir) w.wargs
    rw [hw] at happ
    refine ⟨hok, ?_, ?_⟩
    · rw [hf', happ.eq_append, hlog, firstRecords_concat, if_neg hnew, w.wargs_bytes]
      simp
    · intro b hb
      rw [hc'] at hb
      exact hold b hb

/-- Operations that succeed: in particular every `kernel_write` transfers all its
bytes, which takes buffers within `MAX_RW_COUNT` and a file within its size limit. -/
structure SucceedingRun (dir : CStr) (xs : List WorkRun) : Prop where
  dir_eq : ∀ x ∈ xs, x.2.dir = dir
  succeeds : ∀ x ∈ xs, x.1.Succeeds
  transfers : ∀ x ∈ xs, x.2.block.length ≤ maxRwCount
  fits : (encodeLog (firstRecords (xs.map Prod.snd))).length ≤ maxLfsFilesize

/-- The scan of a work over the log so far, and its write when the scan fails. -/
theorem scan_and_write {ws : List MakeSnapshotWork} {o : WorkOutcomes} (ho : o.Succeeds)
    {w : MakeSnapshotWork} {fuel : ℕ} (hfuel : ws.length < fuel)
    (hrw : w.block.length ≤ maxRwCount)
    (hfit : (encodeLog (firstRecords (ws ++ [w]))).length ≤ maxLfsFilesize) :
    fileLookup fuel o.headerRead w.blockNr (encodeLog (firstRecords ws)) =
      some (decide (∃ v ∈ ws, v.blockNr = w.blockNr)) ∧
    ((¬ ∃ v ∈ ws, v.blockNr = w.blockNr) →
      (writeSnapblock o.write (encodeLog (firstRecords ws)) w.wargs).2 = true) := by
  have hle := encodeLog_firstRecords_le ws [w]
  have hlen := firstRecords_length_le ws
  constructor
  · rw [fileLookup_log _ _ ho.headerRead (by omega) (by omega)]
    simp only [exists_mem_firstRecords]
  · intro hnew
    refine writeSnapblock_succeeds ho hrw ?_
    rw [firstRecords_concat, if_neg hnew, encodeLog_append, List.length_append] at hfit
    simpa using hfit

/-- One succeeding work of the epoch returns and extends the log as it should. -/
theorem Logged.step {hash : UInt64 → ℕ} (maxEntries fuel : ℕ) {ws : List MakeSnapshotWork}
    {o : WorkOutcomes} {w : MakeSnapshotWork} {s : WorkState} (h : Logged hash w.dir ws s)
    (ho : o.Succeeds) (hfuel : ws.length < fuel) (hrw : w.block.length ≤ maxRwCount)
    (hfit : (encodeLog (firstRecords (ws ++ [w]))).length ≤ maxLfsFilesize) :
    ∃ s' e, makeSnapshot hash maxEntries fuel o w s = some (s', e) ∧
      Logged hash w.dir (ws ++ [w]) s' := by
  obtain ⟨hscan, hwrite⟩ := scan_and_write ho hfuel hrw hfit
  rw [← h.content_eq] at hscan hwrite
  obtain ⟨s', e, hstep, he⟩ := makeSnapshot_succeeds hash maxEntries ho h.ok hscan
    fun hf => hwrite (by simpa using hf)
  obtain ⟨hok, -, heff⟩ := makeSnapshot_effect h.ok hstep
  have hle := encodeLog_firstRecords_le ws [w]
  exact ⟨s', e, hstep,
    h.effect ho hfuel (by rw [h.content_eq]; omega) hok he heff⟩

/-- What holds after works were executed without a cache. -/
structure LoggedUncached (dir : CStr) (ws : List MakeSnapshotWork) (s : WorkState) : Prop where
  path_eq : ∀ d, s.pathSnapdir = some d → d = dir
  content_eq : s.content dir = encodeLog (firstRecords ws)

theorem LoggedUncached.step (fuel : ℕ) {ws : List MakeSnapshotWork} {o : WorkOutcomes}
    {w : MakeSnapshotWork} {s : WorkState} (h : LoggedUncached w.dir ws s) (ho : o.Succeeds)
    (hfuel : ws.length < fuel) (hrw : w.block.length ≤ maxRwCount)
    (hfit : (encodeLog (firstRecords (ws ++ [w]))).length ≤ maxLfsFilesize) :
    ∃ s', makeSnapshotUncached fuel o w s = some s' ∧ LoggedUncached w.dir (ws ++ [w]) s' := by
  obtain ⟨hscan, hwrite⟩ := scan_and_write ho hfuel hrw hfit
  have hcontent : (s.snapblocks w.dir).getD [] = encodeLog (firstRecords ws) := h.content_eq
  have hlog := firstRecords_concat ws w
  simp only [makeSnapshotUncached, ensurePathSnapdirOk_succeeds ho w h.path_eq,
    ensureSnapblocksFileOk_succeeds ho, hcontent, hscan]
  by_cases hseen : ∃ v ∈ ws, v.blockNr = w.blockNr
  · rw [if_pos hseen] at hlog
    simp only [hseen, decide_true]
    exact ⟨_, rfl, by simp, by simp [WorkState.content, hlog]⟩
  · rw [if_neg hseen] at hlog
    have happ := writeSnapblock_appends o.write (encodeLog (firstRecords ws)) w.wargs
    rw [hwrite hseen] at happ
    simp only [hseen, decide_false]
    refine ⟨_, rfl, by simp, ?_⟩
    simp [WorkState.content, hlog, happ.eq_append, w.wargs_bytes]

theorem FreshEpoch.logged {hash : UInt64 → ℕ} {dir : CStr} {s : WorkState}
    (h : FreshEpoch hash dir s) : Logged hash dir [] s where
  ok := h.ok
  content_eq := by simp [WorkState.content, h.absent, firstRecords, firstBy]
  submitted := by simp [h.cached_nil]

theorem FreshEpoch.loggedUncached {hash : UInt64 → ℕ} {dir : CStr} {s : WorkState}
    (h : FreshEpoch hash dir s) : LoggedUncached dir [] s where
  path_eq := h.ok.path_eq
  content_eq := by simp [WorkState.content, h.absent, firstRecords, firstBy]

namespace SucceedingRun
variable {dir : CStr} {xs : List WorkRun}

/-- What a succeeding run says about one of its works and the works before it. -/
theorem split (h : SucceedingRun dir xs) {as rest : List WorkRun} {x : WorkRun}
    (hxs : xs = as ++ x :: rest) :
    x.2.dir = dir ∧ x.1.Succeeds ∧ x.2.block.length ≤ maxRwCount ∧
      (encodeLog (firstRecords (as.map Prod.snd ++ [x.2]))).length ≤ maxLfsFilesize ∧
      as.length < xs.length := by
  have hmem : x ∈ xs := by simp [hxs]
  have hle := encodeLog_firstRecords_le (as.map Prod.snd ++ [x.2]) (rest.map Prod.snd)
  have hall : as.map Prod.snd ++ [x.2] ++ rest.map Prod.snd = xs.map Prod.snd := by simp [hxs]
  rw [hall] at hle
  exact ⟨h.dir_eq x hmem, h.succeeds x hmem, h.transfers x hmem, hle.trans h.fits, by simp [hxs]⟩

/-- What each of the succeeding works keeps of the works before it holds after all of them. -/
theorem run_of_step (h : SucceedingRun dir xs) {M : Machine WorkState WorkRun}
    {I : List MakeSnapshotWork → WorkState → Prop} {s : WorkState} (hinit : I [] s)
    (hstep : ∀ ws x s, I ws s → x.2.dir = dir → x.1.Succeeds → ws.length < xs.length →
      x.2.block.length ≤ maxRwCount →
      (encodeLog (firstRecords (ws ++ [x.2]))).length ≤ maxLfsFilesize →
      ∃ s', M.step s x = some s' ∧ I (ws ++ [x.2]) s') :
    ∃ s', M.run s xs = some s' ∧ I (xs.map Prod.snd) s' := by
  refine Machine.run_progress (I := fun as s => I (as.map Prod.snd) s)
    (fun as x rest s hxs hs => ?_) hinit
  obtain ⟨hdir, hok, hrw, hfit, hlt⟩ := h.split hxs
  obtain ⟨s', hs', hI⟩ := hstep _ x s hs hdir hok (by simpa using hlt) hrw hfit
  exact ⟨s', hs', by simpa using hI⟩

/-- Succeeding works run to the end and leave the log of their first submissions. -/
theorem run_logged (h : SucceedingRun dir xs) {hash : UInt64 → ℕ} (maxEntries : ℕ) {fuel : ℕ}
    {s : WorkState} (hs : FreshEpoch hash dir s) (hfuel : xs.length ≤ fuel) :
    ∃ s', (epochMachine hash maxEntries fuel dir).run s xs = some s' ∧
      Logged hash dir (xs.map Prod.snd) s' := by
  refine h.run_of_step hs.logged fun ws x s hlog hdir hok hlt hrw hfit => ?_
  subst hdir
  obtain ⟨s', e, hstep, hlog'⟩ := hlog.step maxEntries fuel hok (hlt.trans_le hfuel) hrw hfit
  exact ⟨s', by simp [epochMachine, hstep], hlog'⟩

theorem runUncached_logged (h : SucceedingRun dir xs) {hash : UInt64 → ℕ} {fuel : ℕ}
    {s : WorkState} (hs : FreshEpoch hash dir s) (hfuel : xs.length ≤ fuel) :
    ∃ s', (uncachedMachine fuel dir).run s xs = some s' ∧
      LoggedUncached dir (xs.map Prod.snd) s' := by
  refine h.run_of_step hs.loggedUncached fun ws x s hlog hdir hok hlt hrw hfit => ?_
  subst hdir
  obtain ⟨s', hstep, hlog'⟩ := hlog.step fuel hok (hlt.trans_le hfuel) hrw hfit
  exact ⟨s', by simp [uncachedMachine, hstep], hlog'⟩

end SucceedingRun

/-- For every capacity of the cache and every outcome of its node allocations the
snapblocks bytes are the records of the first submissions, in order, and these
are the bytes that works without a cache write. -/
theorem snapblocks_eq_first_writes (hash : UInt64 → ℕ) (maxEntries : ℕ) (dir : CStr)
    (xs : List WorkRun) (s : WorkState) (hs : FreshEpoch hash dir s) (hrun : SucceedingRun dir xs) :
    ∃ fuel₀, ∀ fuel, fuel₀ ≤ fuel → ∃ s' s'',
      (epochMachine hash maxEntries fuel dir).run s xs = some s' ∧
      s'.content dir = encodeLog (firstRecords (xs.map Prod.snd)) ∧
      (uncachedMachine fuel dir).run s xs = some s'' ∧ s''.content dir = s'.content dir := by
  refine ⟨xs.length, fun fuel hfuel => ?_⟩
  obtain ⟨s', hcached, hlog⟩ := hrun.run_logged maxEntries hs hfuel
  obtain ⟨s'', huncached, hlog'⟩ := hrun.runUncached_logged hs hfuel
  exact ⟨s', s'', hcached, hlog.content_eq, huncached,
    hlog'.content_eq.trans hlog.content_eq.symm⟩

/-- A block that is submitted twice, around another one, with a cache of one entry. -/
theorem snapblocks_eq_first_writes_resubmitted :
    let work (b : UInt64) (x : UInt8) : WorkRun :=
      (.allDone, ⟨b, [x, x], "/dev/sda".toList, "-2025-02-03_04:05:06".toList, by simp⟩)
    let dir := (work 7 1).2.dir
    ∃ fuel₀, ∀ fuel, fuel₀ ≤ fuel → ∃ s' s'',
      (epochMachine (fun _ => 0) 1 fuel dir).run .fresh [work 7 1, work 9 2, work 7 3] = some s' ∧
      s'.content dir = encodeLog [(work 7 1).2.record, (work 9 2).2.record] ∧
      (uncachedMachine fuel dir).run .fresh [work 7 1, work 9 2, work 7 3] = some s'' ∧
      s''.content dir = s'.content dir := by
  intro work dir
  have hrun : SucceedingRun dir [work 7 1, work 9 2, work 7 3] := by
    refine ⟨?_, ?_, ?_, ?_⟩
    · simp [work, dir, MakeSnapshotWork.dir]
    · simp [work, WorkOutcomes.allDone_succeeds]
    · simp [work, maxRwCount]
    · simp [work, firstRecords, firstBy, maxLfsFilesize, sizeofHdr, MakeSnapshotWork.record]
  exact snapblocks_eq_first_writes (fun _ => 0) 1 dir _ _ (WorkState.fresh_freshEpoch _ _) hrun

end BlkdevSnapshot

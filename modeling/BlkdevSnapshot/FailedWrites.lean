import BlkdevSnapshot.CachedLog
import BlkdevSnapshot.RestoreScan

/-!
# Works whose writes fail

Every `kernel_write` of a record may write a prefix of its buffer or fail. The
two invariants of an epoch that this touches are stated over arbitrary runs:
a cached block has a complete record, and a complete record can be reached by
both readers. Each holds as long as the steps stay clear of one branch.
-/
namespace BlkdevSnapshot
open LruNg RecencyList

/-- The tests of `make_snapshot` by which a work comes to `write_snapblock`. -/
def reachesWrite (hash : UInt64 → ℕ) (fuel : ℕ) (o : WorkOutcomes) (w : MakeSnapshotWork)
    (s : WorkState) : Bool :=
  match ensureCachedBlocksLruOk o.lruAlloc s.cachedBlocks with
  | none => false
  | some lru =>
    !(lruNgLookup hash lru w.blockNr).1 &&
    match ensurePathSnapdirOk o s.pathSnapdir w.originalDevName w.firstMountDate with
    | none => false
    | some dir =>
      match (ensureSnapblocksFileOk o (s.snapblocks dir)).1 with
      | .opened content => fileLookup fuel o.headerRead w.blockNr content == some false
      | .failed => false
      | .errPtr => false

/-- Both writes of a record behind `file` take all their bytes. -/
structure WriteOutcomes.Whole (o : WriteOutcomes) (file : Bytes) (w : MakeSnapshotWork) :
    Prop where
  mandatoryHdr : (kernelWrite o.mandatoryHdr file w.fileHdr.toBytes).2 =
    some w.fileHdr.toBytes.length
  payload : (kernelWrite o.payload (kernelWrite o.mandatoryHdr file w.fileHdr.toBytes).1
    w.block).2 = some w.block.length

theorem writeSnapblock_eq_true_iff (o : WriteOutcomes) (file : Bytes) (w : MakeSnapshotWork) :
    (writeSnapblock o file w.wargs).2 = true ↔ o.Whole file w := by
  unfold writeSnapblock writePart MakeSnapshotWork.wargs
  constructor
  · intro h
    by_cases hhdr : (kernelWrite o.mandatoryHdr file w.fileHdr.toBytes).2 =
        some w.fileHdr.toBytes.length
    · exact ⟨hhdr, by simpa [hhdr] using h⟩
    · rw [w.fileHdr.toBytes_length] at hhdr
      simp [hhdr] at h
  · intro h
    simp [h.mandatoryHdr, h.payload]

instance (o : WriteOutcomes) (file : Bytes) (w : MakeSnapshotWork) : Decidable (o.Whole file w) :=
  decidable_of_iff ((writeSnapblock o file w.wargs).2 = true) (writeSnapblock_eq_true_iff o file w)

variable {hash : UInt64 → ℕ} {maxEntries fuel : ℕ}

/-- The exits behind `write_snapblock` are taken only by works that pass its tests. -/
theorem reachesWrite_of_exit {o : WorkOutcomes} {w : MakeSnapshotWork} {s s' : WorkState}
    {e : WorkEnd} (h : makeSnapshot hash maxEntries fuel o w s = some (s', e))
    (he : e = .written ∨ e = .writeFailed) : reachesWrite hash fuel o w s = true := by
  unfold makeSnapshot at h
  unfold reachesWrite
  cases hlru : ensureCachedBlocksLruOk o.lruAlloc s.cachedBlocks with
  | none =>
    simp only [hlru, Option.some.injEq, Prod.mk.injEq] at h
    obtain ⟨-, rfl⟩ := h
    simp at he
  | some lru =>
    simp only [hlru] at h
    cases hhit : (lruNgLookup hash lru w.blockNr).1 with
    | true =>
      simp only [hhit, if_true, Option.some.injEq, Prod.mk.injEq] at h
      obtain ⟨-, rfl⟩ := h
      simp at he
    | false =>
      simp only [hhit, Bool.false_eq_true, if_false] at h
      cases hdir : ensurePathSnapdirOk o s.pathSnapdir w.originalDevName w.firstMountDate with
      | none =>
        simp only [hdir, Option.some.injEq, Prod.mk.injEq] at h
        obtain ⟨-, rfl⟩ := h
        simp at he
      | some dir =>
        simp only [hdir] at h
        cases hfile : (ensureSnapblocksFileOk o (s.snapblocks dir)).1 with
        | failed =>
          simp only [hfile, Option.some.injEq, Prod.mk.injEq] at h
          obtain ⟨-, rfl⟩ := h
          simp at he
        | errPtr => simp [hfile] at h
        | opened content =>
          simp only [hfile, snapshotInto] at h
          cases hl : fileLookup fuel o.headerRead w.blockNr content with
          | none => simp [hl] at h
          | some found =>
            cases found with
            | true =>
              simp only [hl, Option.some.injEq, Prod.mk.injEq] at h
              obtain ⟨-, rfl⟩ := h
              simp at he
            | false => simp [hhit, hfile, hl]

/-- The file holds a complete record of the block, behind complete records only. -/
def Recorded (file : Bytes) (b : UInt64) : Prop :=
  ∃ rs tail, file = encodeLog rs ++ tail ∧ ∃ r ∈ rs, r.blknr = b

/-- What holds while no write has failed: the file is a log of complete records,
and the cached blocks are among them. -/
structure CachedRecorded (hash : UInt64 → ℕ) (dir : CStr) (s : WorkState) : Prop where
  ok : s.Ok hash dir
  bounded : (s.content dir).length ≤ maxLfsFilesize
  log : ∃ rs, s.content dir = encodeLog rs ∧ ∀ b ∈ s.cached, ∃ r ∈ rs, r.blknr = b

theorem CachedRecorded.effect {s s' : WorkState} {o : WorkOutcomes} {w : MakeSnapshotWork}
    {e : WorkEnd} (h : CachedRecorded hash w.dir s) (hok : s'.Ok hash w.dir)
    (hwhole : e = .written ∨ e = .writeFailed → o.write.Whole (s.content w.dir) w)
    (heff : WorkEffect maxEntries fuel o w (s.content w.dir) s.cached e (s'.content w.dir)
      s'.cached) : CachedRecorded hash w.dir s' := by
  obtain ⟨rs, hlog, hcached⟩ := h.log
  have hpush (hw : ∃ r ∈ rs, r.blknr = w.blockNr) (b : UInt64)
      (hb : b ∈ if o.nodeAlloc then push maxEntries s.cached w.blockNr else s.cached) :
      ∃ r ∈ rs, r.blknr = b := by
    split at hb
    · rcases mem_of_mem_push hb with hb | rfl
      · exact hcached b hb
      · exact hw
    · exact hcached b hb
  have hbounded := h.bounded
  generalize hf' : s'.content w.dir = file' at heff
  generalize hc' : s'.cached = cached' at heff
  cases heff with
  | lruFailed => exact ⟨hok, by rw [hf']; exact hbounded, rs, by rw [hf', hlog], by rwa [hc']⟩
  | dirFailed => exact ⟨hok, by rw [hf']; exact hbounded, rs, by rw [hf', hlog], by rwa [hc']⟩
  | fileFailed => exact ⟨hok, by rw [hf']; exact hbounded, rs, by rw [hf', hlog], by rwa [hc']⟩
  | hit hk =>
    refine ⟨hok, by rw [hf']; exact hbounded, rs, by rw [hf', hlog], fun b hb => ?_⟩
    rw [hc', mem_touch hk] at hb
    exact hcached b hb
  | found hk hl =>
    rw [hlog] at hl hbounded
    refine ⟨hok, by rw [hf', hlog]; exact hbounded, rs, by rw [hf', hlog], ?_⟩
    rw [hc']
    exact hpush (fileLookup_log_sound _ _ hbounded hl)
  | written hk hl hw =>
    have happ := writeSnapblock_appends o.write (s.content w.dir) w.wargs
    rw [hw] at happ
    refine ⟨hok, by rw [hf']; exact happ.bounded hbounded, rs ++ [w.record], ?_, ?_⟩
    · rw [hf', happ.eq_append, hlog, w.wargs_bytes]
      simp
    · intro b hb
      rw [hc'] at hb
      obtain ⟨r, hr, hrb⟩ := hcached b hb
      exact ⟨r, List.mem_append_left _ hr, hrb⟩
  | writeFailed hk hl hw =>
    rw [(writeSnapblock_eq_true_iff _ _ _).mpr (hwhole (.inr rfl))] at hw
    cases hw

/-- In every run in which each work that comes to `write_snapblock` gets its whole
record into the file, a cached block has a complete record. -/
theorem cached_recorded (hash : UInt64 → ℕ) (maxEntries fuel : ℕ) (dir : CStr) (s : WorkState)
    (hs : (epochMachine hash maxEntries fuel dir).Reach (fun s x =>
      reachesWrite hash fuel x.1 x.2 s = true → x.1.write.Whole (s.content dir) x.2) s) :
    ∀ b ∈ s.cached, Recorded (s.content dir) b := by
  have hinv : CachedRecorded hash dir s := by
    refine hs.invariant (fun s h => ?_) fun s x s' h hx hstep => ?_
    · have hempty : s.content dir = encodeLog [] := by simp [WorkState.content, h.absent]
      exact ⟨h.ok, by simp [hempty], [], hempty, by simp [h.cached_nil]⟩
    · simp only [epochMachine] at hstep
      split at hstep
      · rename_i hdir
        subst hdir
        obtain ⟨⟨s'', e⟩, hmake, rfl⟩ := Option.map_eq_some_iff.mp hstep
        obtain ⟨hok, -, heff⟩ := makeSnapshot_effect h.ok hmake
        exact h.effect hok (fun he => hx (reachesWrite_of_exit hmake he)) heff
      · cases hstep
  obtain ⟨rs, hlog, hcached⟩ := hinv.log
  intro b hb
  exact ⟨rs, [], by rw [hlog, List.append_nil], hcached b hb⟩

/-- A block that is written and then found in the file, so that it is cached. -/
theorem cached_recorded_found :
    let w : MakeSnapshotWork :=
      ⟨7, [1, 2], "/dev/sda".toList, "-2025-02-03_04:05:06".toList, by decide⟩
    ∃ s, (epochMachine (fun _ => 0) 1 2 w.dir).run .fresh [(.allDone, w), (.allDone, w)] = some s ∧
      s.cached = [7] ∧ ∀ b ∈ s.cached, Recorded (s.content w.dir) b := by
  intro w
  have hrun := (epochMachine (fun _ => 0) 1 2 w.dir).run_eq_getD .fresh
    [(.allDone, w), (.allDone, w)] (by decide +kernel)
  refine ⟨_, hrun, by decide +kernel, ?_⟩
  apply cached_recorded (fun _ => 0) 1 2 w.dir
  exact .run (.init (WorkState.fresh_freshEpoch _ _)) (by decide +kernel) hrun

/-- A write that fails puts its block into the cache, and the file stays empty. -/
theorem not_cached_recorded :
    let w : MakeSnapshotWork := ⟨7, List.replicate 4096 1, "/dev/sda".toList,
      "-2025-02-03_04:05:06".toList, by decide +kernel⟩
    ¬ ∀ s, (epochMachine (fun _ => 0) 1 1 w.dir).Reachable s →
      ∀ b ∈ s.cached, Recorded (s.content w.dir) b := by
  intro w h
  let x : WorkRun := ({ WorkOutcomes.allDone with write := ⟨.error, .done, .done⟩ }, w)
  let M := epochMachine (fun _ => 0) 1 1 w.dir
  have hreach := Machine.reachable_of_run (WorkState.fresh_freshEpoch _ _) _
    (M.run_eq_getD .fresh [x] (by decide +kernel))
  have hempty : ((M.run .fresh [x]).getD .fresh).content w.dir = [] := by decide +kernel
  obtain ⟨rs, tail, hfile, r, hr, -⟩ := h _ hreach 7 (by decide +kernel)
  rw [hempty] at hfile
  have hnil : r.encode = [] :=
    List.flatMap_eq_nil_iff.mp (List.append_eq_nil_iff.mp hfile.symm).1 r hr
  have hle := r.sizeofHdr_le_encode
  simp [hnil, sizeofHdr] at hle

/-- The state of an epoch with the records that were written completely, in order,
and the file offset at which each of them was appended. -/
structure WrittenState where
  work : WorkState
  written : List (ℕ × Record)

/-- The works of one epoch, with the history of complete writes. -/
def writtenMachine (hash : UInt64 → ℕ) (maxEntries fuel : ℕ) (dir : CStr) :
    Machine WrittenState WorkRun where
  init s := FreshEpoch hash dir s.work ∧ s.written = []
  step s x :=
    if x.2.dir = dir then
      (makeSnapshot hash maxEntries fuel x.1 x.2 s.work).map fun r =>
        ⟨r.1, if r.2 = .written then s.written ++ [((s.work.content dir).length, x.2.record)]
          else s.written⟩
    else none

namespace WrittenState

/-- The records that were written completely. -/
def records (s : WrittenState) : List Record := s.written.map Prod.snd

/-- Every completely written record is found by `file_lookup`, and the walk of
`do_restore` over a device that holds the blocks reads its header where it is. -/
def ReadersReach (s : WrittenState) (file : Bytes) : Prop :=
  ∀ e ∈ s.written,
    (∀ headerRead : ℕ → Bool, (∀ i, headerRead i = true) →
      ∃ fuel₀, ∀ fuel, fuel₀ ≤ fuel → fileLookup fuel headerRead e.2.blknr file = some true) ∧
    ∀ (opts : RestoreOpts) (kind : DeviceKind) (data stdin : Bytes), opts.All →
      data.length ≤ maxLfsFilesize → (∀ r ∈ s.records, r.OnDevice data.length) →
      ∃ n, .header e.1 e.2.hdr ∈
        (restoreLoop opts (fun _ => .allDone) file n 0 (.start kind data stdin)).1.log

/-- The file begins with the complete records, at the offsets of the history. -/
structure Tracked (hash : UInt64 → ℕ) (dir : CStr) (s : WrittenState) : Prop where
  ok : s.work.Ok hash dir
  bounded : (s.work.content dir).length ≤ maxLfsFilesize
  log : ∃ tail, s.work.content dir = encodeLog s.records ++ tail
  offset : ∀ as e bs, s.written = as ++ e :: bs → e.1 = (encodeLog (as.map Prod.snd)).length
  raw : ∀ r ∈ s.records, r.payldType = snapblockPayloadTypeRaw ∧ r.payload.length ≤ maxRwCount

theorem Tracked.readersReach {hash : UInt64 → ℕ} {dir : CStr} {s : WrittenState}
    (h : s.Tracked hash dir) : s.ReadersReach (s.work.content dir) := by
  obtain ⟨tail, hlog⟩ := h.log
  have hbounded := h.bounded
  rw [hlog] at hbounded ⊢
  intro e he
  constructor
  · intro headerRead hread
    refine ⟨s.records.length, fun fuel hfuel => ?_⟩
    exact fileLookup_found _ _ hread hbounded ⟨e.2, List.mem_map_of_mem he, rfl⟩ hfuel
  · intro opts kind data stdin hopts hsize hdev
    obtain ⟨as, bs, hsplit⟩ := List.append_of_mem he
    have hrs : s.records = as.map Prod.snd ++ e.2 :: bs.map Prod.snd := by
      simp [records, hsplit]
    rw [h.offset as e bs hsplit]
    exact ⟨_, restoreLoop_visits hopts hbounded h.raw kind stdin hsize hdev hrs⟩

/-- A work that adds no complete record leaves the history as it is and can only
put bytes behind it. -/
theorem Tracked.extend {hash : UInt64 → ℕ} {dir : CStr} {s : WrittenState} {t : WorkState}
    {more : Bytes} (h : s.Tracked hash dir) (hok : t.Ok hash dir)
    (hbounded : (t.content dir).length ≤ maxLfsFilesize)
    (hmore : t.content dir = s.work.content dir ++ more) : Tracked hash dir ⟨t, s.written⟩ := by
  obtain ⟨tail, hlog⟩ := h.log
  exact ⟨hok, hbounded, ⟨tail ++ more, by rw [hmore, hlog, List.append_assoc]; rfl⟩, h.offset,
    h.raw⟩

/-- A complete record behind nothing but complete records joins the history. -/
theorem Tracked.concat {hash : UInt64 → ℕ} {w : MakeSnapshotWork} {s : WrittenState}
    {t : WorkState} (h : s.Tracked hash w.dir) (hok : t.Ok hash w.dir)
    (hbounded : (t.content w.dir).length ≤ maxLfsFilesize)
    (hlog : s.work.content w.dir = encodeLog s.records)
    (happ : t.content w.dir = s.work.content w.dir ++ w.record.encode)
    (hrw : w.block.length ≤ maxRwCount) :
    Tracked hash w.dir ⟨t, s.written ++ [((s.work.content w.dir).length, w.record)]⟩ := by
  refine ⟨hok, hbounded, ⟨[], ?_⟩, ?_, ?_⟩
  · simp [records, happ, hlog]
  · intro as e bs hsplit
    rcases List.eq_nil_or_concat bs with rfl | ⟨bs', x, rfl⟩
    · obtain ⟨rfl, he⟩ := List.append_inj' hsplit rfl
      obtain rfl : (_, _) = e := by simpa using he
      simp [hlog, records]
    · rw [List.concat_eq_append, ← List.cons_append, ← List.append_assoc] at hsplit
      exact h.offset as e bs' (List.append_inj' hsplit rfl).1
  · intro r hr
    simp only [records, List.map_append, List.mem_append, List.map_cons, List.map_nil,
      List.mem_singleton] at hr
    rcases hr with hr | rfl
    · exact h.raw r hr
    · exact ⟨rfl, hrw⟩

/-- One work keeps the history, if a record that it writes completely comes behind
complete records only. -/
theorem Tracked.step {hash : UInt64 → ℕ} {maxEntries fuel : ℕ} {dir : CStr} {s s' : WrittenState}
    {x : WorkRun} (h : s.Tracked hash dir)
    (hx : reachesWrite hash fuel x.1 x.2 s.work = true →
      x.1.write.Whole (s.work.content dir) x.2 → s.work.content dir = encodeLog s.records)
    (hstep : (writtenMachine hash maxEntries fuel dir).step s x = some s') :
    s'.Tracked hash dir := by
  simp only [writtenMachine] at hstep
  split at hstep
  swap
  · cases hstep
  rename_i hdir
  subst hdir
  obtain ⟨⟨t, e⟩, hmake, rfl⟩ := Option.map_eq_some_iff.mp hstep
  obtain ⟨hok, -, heff⟩ := makeSnapshot_effect h.ok hmake
  have hsame (hf : t.content x.2.dir = s.work.content x.2.dir) :
      Tracked hash x.2.dir ⟨t, s.written⟩ :=
    h.extend hok (by rw [hf]; exact h.bounded) (by rw [hf, List.append_nil])
  generalize hf' : t.content x.2.dir = file' at heff
  generalize t.cached = cached' at heff
  cases heff with
  | lruFailed => exact hsame hf'
  | hit hk => exact hsame hf'
  | dirFailed hk => exact hsame hf'
  | fileFailed hk => exact hsame hf'
  | found hk hl => exact hsame hf'
  | written hk hl hw =>
    have hwhole := (writeSnapblock_eq_true_iff _ _ _).mp hw
    have happ := writeSnapblock_appends x.1.write (s.work.content x.2.dir) x.2.wargs
    rw [hw] at happ
    have hlog := hx (reachesWrite_of_exit hmake (.inl rfl)) hwhole
    exact h.concat hok (by rw [hf']; exact happ.bounded h.bounded) hlog
      (by rw [hf', happ.eq_append, x.2.wargs_bytes]) (kernelWrite_full_le hwhole.payload)
  | writeFailed hk hl hw =>
    have happ := writeSnapblock_appends x.1.write (s.work.content x.2.dir) x.2.wargs
    obtain ⟨k, -, htake, -⟩ := happ.content
    exact h.extend hok (by rw [hf']; exact happ.bounded h.bounded) (hf'.trans htake)

end WrittenState

/-- In every run in which a record is written completely only behind complete
records, both readers reach all completely written records. -/
theorem written_readersReach (hash : UInt64 → ℕ) (maxEntries fuel : ℕ) (dir : CStr)
    (s : WrittenState) (hs : (writtenMachine hash maxEntries fuel dir).Reach (fun s x =>
      reachesWrite hash fuel x.1 x.2 s.work = true → x.1.write.Whole (s.work.content dir) x.2 →
        s.work.content dir = encodeLog s.records) s) :
    s.ReadersReach (s.work.content dir) := by
  have hinv : s.Tracked hash dir := by
    refine hs.invariant (fun s h => ?_) fun s x s' h hx hstep => h.step hx hstep
    have hempty : s.work.content dir = [] := by simp [WorkState.content, h.1.absent]
    exact ⟨h.1.ok, by simp [hempty], ⟨[], by simp [hempty, WrittenState.records, h.2]⟩,
      by simp [h.2], by simp [WrittenState.records, h.2]⟩
  exact hinv.readersReach

/-- A complete record and a torn one behind it. -/
theorem written_readersReach_torn :
    let w (b : UInt64) : MakeSnapshotWork :=
      ⟨b, [1, 2], "/dev/sda".toList, "-2025-02-03_04:05:06".toList, by simp⟩
    let torn : WorkOutcomes := { WorkOutcomes.allDone with write := ⟨.done, .done, .short 1⟩ }
    ∃ s, (writtenMachine (fun _ => 0) 1 3 (w 7).dir).run ⟨.fresh, []⟩
        [(.allDone, w 7), (torn, w 8)] = some s ∧
      s.records = [(w 7).record] ∧ s.ReadersReach (s.work.content (w 7).dir) := by
  intro w torn
  have hrun := (writtenMachine (fun _ => 0) 1 3 (w 7).dir).run_eq_getD ⟨.fresh, []⟩
    [(.allDone, w 7), (torn, w 8)] (by decide +kernel)
  refine ⟨_, hrun, by decide +kernel, ?_⟩
  apply written_readersReach (fun _ => 0) 1 3 (w 7).dir
  exact .run (.init ⟨WorkState.fresh_freshEpoch _ _, rfl⟩) (by decide +kernel) hrun

/-- One byte of a header in front of a complete record hides it from both readers. -/
theorem not_written_readersReach :
    let w (b : UInt64) : MakeSnapshotWork := ⟨b, List.replicate 4096 1, "/dev/sda".toList,
      "-2025-02-03_04:05:06".toList, by decide +kernel⟩
    ¬ ∀ s, (writtenMachine (fun _ => 0) 1 1 (w 7).dir).Reachable s →
      s.ReadersReach (s.work.content (w 7).dir) := by
  intro w h
  let torn : WorkOutcomes := { WorkOutcomes.allDone with write := ⟨.short 1, .done, .done⟩ }
  let M := writtenMachine (fun _ => 0) 1 1 (w 7).dir
  let s := (M.run ⟨.fresh, []⟩ [(torn, w 7), (.allDone, w 8)]).getD ⟨.fresh, []⟩
  have hinit : M.init ⟨.fresh, []⟩ := ⟨WorkState.fresh_freshEpoch _ _, rfl⟩
  have hreach : M.Reachable s := Machine.reachable_of_run hinit _
    (M.run_eq_getD ⟨.fresh, []⟩ [(torn, w 7), (.allDone, w 8)] (by decide +kernel))
  obtain ⟨e, he, -⟩ : ∃ e ∈ s.written, e.2.blknr = 8 := by decide +kernel
  obtain ⟨fuel₀, hfound⟩ := (h s hreach e he).1 (fun _ => true) fun _ => rfl
  have hread : readSnapblockMandatoryHeader true (s.work.content (w 7).dir) 0 = none := by
    decide +kernel
  have hlost := hfound (fuel₀ + 1) (Nat.le_succ _)
  simp [fileLookup, fileLookupFrom, hread] at hlost

end BlkdevSnapshot

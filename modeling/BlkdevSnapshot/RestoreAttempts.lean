import BlkdevSnapshot.ReadersAgree
import BlkdevSnapshot.RestoreTorn
import BlkdevSnapshot.SingleFileProbes

/-!
# A restore behind earlier attempts

A run of the tool may be killed, refused or answered with no, select one block or come
upon errors in the middle of a write. What it leaves of the device differs from what it
found only in logged blocks, so a complete run after any number of such attempts still
gives the initial image.
-/
namespace BlkdevSnapshot
open FirstWrite

/-- A run of the tool with any options, answers and errors, which gets through a number of
iterations. -/
structure RestoreAttempt where
  opts : RestoreOpts
  stdin : Bytes
  outs : ℕ → IterOutcomes
  iterations : ℕ

/-- The bytes of the device after a run on the file `snaps`. -/
def RestoreAttempt.after (kind : DeviceKind) (snaps data : Bytes) (a : RestoreAttempt) : Bytes :=
  (restoreLoop a.opts a.outs snaps a.iterations 0 (.start kind data a.stdin)).1.dev.data

/-- What becomes of the device is that a part of the payload was written at the block. -/
def Record.Patches (r : Record) (d d' : Device) : Prop :=
  ∃ k, d'.data = overwrite d.data (r.blknr.toNat * r.payload.length) (r.payload.take k)

theorem Record.Patches.refl (r : Record) (d : Device) : r.Patches d d :=
  ⟨0, by rw [List.take_zero, overwrite_nil]⟩

/-! ## One iteration -/

section Iteration
variable {r : Record} {pre post : Bytes} {s : RestoreState}

theorem restorePayload_patches (o : IterOutcomes) (hon : r.OnDevice s.dev.data.length)
    (hsize : s.dev.data.length ≤ maxLfsFilesize) :
    r.Patches s.dev (restorePayload o r s).1.dev ∧
      (restorePayload o r s).1.snapsPos = s.snapsPos := by
  obtain ⟨k, -, -, hdata, -⟩ := Device.write_prefix
    (d := { s.dev with pos := r.blknr.toNat * r.payload.length }) o.devWrite r.payload
  refine ⟨⟨k, ?_⟩, rfl⟩
  simp only [restorePayload, RestoreState.emit, hon.lseekSet hsize]
  exact hdata

/-- Behind the header of a record its payload is at most written in part, and the next
iteration starts behind the record. -/
theorem restoreByType_patches (o : IterOutcomes) (hpos : s.snapsPos = pre.length + sizeofHdr)
    (hlen : (pre ++ (r.encode ++ post)).length ≤ maxLfsFilesize)
    (hon : r.OnDevice s.dev.data.length) (hsize : s.dev.data.length ≤ maxLfsFilesize) :
    r.Patches s.dev (restoreByType o (pre ++ (r.encode ++ post)) r.hdr s).1.dev ∧
      ((restoreByType o (pre ++ (r.encode ++ post)) r.hdr s).2 = .next →
        (restoreByType o (pre ++ (r.encode ++ post)) r.hdr s).1.snapsPos =
          pre.length + r.encode.length) := by
  rw [restoreByType]
  split
  · rw [doRestoreRawblocks_record o r hpos hlen]
    cases o.malloc with
    | false => exact ⟨.refl r _, fun _ => rfl⟩
    | true =>
      simp only [if_true]
      cases o.payloadRead.count (min r.payload.length maxRwCount) with
      | none => exact ⟨.refl r _, fun _ => rfl⟩
      | some k =>
        by_cases hfull : k = r.payload.length
        · simp only [hfull, if_true]
          obtain ⟨hpatch, hnext⟩ := restorePayload_patches
            (s := { s with snapsPos := pre.length + r.encode.length }) o hon hsize
          exact ⟨hpatch, fun _ => hnext⟩
        · simp only [hfull, if_false]
          refine ⟨.refl r _, fun hflow => ?_⟩
          cases hflow
  · rw [seekNexthdr_record r hpos hlen]
    exact ⟨.refl r _, fun _ => rfl⟩

/-- An iteration with any options at a record whose block lies on the device. -/
theorem restoreIter_patches (opts : RestoreOpts) (o : IterOutcomes)
    (hpos : s.snapsPos = pre.length) (hlen : (pre ++ (r.encode ++ post)).length ≤ maxLfsFilesize)
    (hon : r.OnDevice s.dev.data.length) (hsize : s.dev.data.length ≤ maxLfsFilesize) :
    r.Patches s.dev (restoreIter opts o (pre ++ (r.encode ++ post)) s).1.dev ∧
      ((restoreIter opts o (pre ++ (r.encode ++ post)) s).2 = .next →
        (restoreIter opts o (pre ++ (r.encode ++ post)) s).1.snapsPos =
          pre.length + r.encode.length) := by
  rw [restoreIter_record opts o r hpos]
  split
  · let u : RestoreState :=
      { s with snapsPos := pre.length + sizeofHdr }.emit (.header pre.length r.hdr)
    have hdev : (askUser opts r.hdr u).2.dev = s.dev := askUser_dev r.hdr
    have hupos : (askUser opts r.hdr u).2.snapsPos = pre.length + sizeofHdr :=
      askUser_snapsPos r.hdr
    have htype := restoreByType_patches (s := (askUser opts r.hdr u).2) o hupos hlen
      (by rw [hdev]; exact hon) (by rw [hdev]; exact hsize)
    rw [hdev] at htype
    show r.Patches s.dev (restoreRecord opts o _ r.hdr u).1.dev ∧ _
    rw [restoreRecord_eq]
    split
    · rw [seekNexthdr_record r rfl hlen]
      exact ⟨.refl r _, fun _ => rfl⟩
    · split
      · rw [seekNexthdr_record r hupos hlen]
        exact ⟨⟨0, by rw [List.take_zero, overwrite_nil]; exact congrArg Device.data hdev⟩,
          fun _ => rfl⟩
      · split
        · refine ⟨htype.1, fun hflow => ?_⟩
          cases hflow
        · exact htype
  · refine ⟨.refl r _, fun hflow => ?_⟩
    cases hflow

end Iteration

/-- What iterations from the start of a record keep, a run of any number of them keeps. -/
theorem restoreLoop_invariant (opts : RestoreOpts) (outs : ℕ → IterOutcomes) {snaps : Bytes}
    {Q A : RestoreState → Prop}
    (hstep : ∀ i s, Q s → A s → Q (restoreIter opts (outs i) snaps s).1 ∧
      ((restoreIter opts (outs i) snaps s).2 = .next → A (restoreIter opts (outs i) snaps s).1))
    (n i : ℕ) {s : RestoreState} (hQ : Q s) (hA : A s) :
    Q (restoreLoop opts outs snaps n i s).1 := by
  induction n generalizing i s with
  | zero => exact hQ
  | succ n ih =>
    obtain ⟨hQ', hnext⟩ := hstep i s hQ hA
    unfold restoreLoop
    cases hiter : restoreIter opts (outs i) snaps s with
    | mk s' flow =>
      rw [hiter] at hQ' hnext
      cases flow with
      | next => exact ih (i + 1) hQ' (hnext rfl)
      | leave => exact hQ'
      | exitFailure => exact hQ'

/-! ## Images -/

section Images
variable {N : ℕ} {devname mountdate : CStr} {log : List (Fin N × Block singlefilefsBlockSize)}
  {img : Image N}

/-- The bytes of a device that holds `img` in all blocks that are not in the log. -/
def HoldsOutside (log : List (Fin N × Block singlefilefsBlockSize)) (img : Image N)
    (data : Bytes) : Prop :=
  ∃ image : Image N, data = flatten image ∧ ∀ b, (¬ ∃ e ∈ log, e.1 = b) → image b = img b

theorem HoldsOutside.length_eq {data : Bytes} (h : HoldsOutside log img data) :
    data.length = N * singlefilefsBlockSize := by
  obtain ⟨image, rfl, -⟩ := h
  exact flatten_length image

/-- The records of block contents. -/
def blockRecords (devname mountdate : CStr) (log : List (Fin N × Block singlefilefsBlockSize)) :
    List Record :=
  log.map fun e => (beforeImageWork devname mountdate e).record

theorem HoldsOutside.patches (hN : N * singlefilefsBlockSize < 2 ^ 63)
    {e : Fin N × Block singlefilefsBlockSize} (he : e ∈ log) {d d' : Device}
    (h : HoldsOutside log img d.data)
    (hpatch : (beforeImageWork devname mountdate e).record.Patches d d') :
    HoldsOutside log img d'.data := by
  obtain ⟨image, hdata, houtside⟩ := h
  obtain ⟨k, hk⟩ := hpatch
  rw [beforeImageWork_payload_length] at hk
  have hfits : 0 + (e.2.val.take k).length ≤ singlefilefsBlockSize := by
    rw [Nat.zero_add, List.length_take, e.2.property]
    exact min_le_right _ _
  have hplace : (beforeImageWork devname mountdate e).record.blknr.toNat *
      singlefilefsBlockSize = e.1 * singlefilefsBlockSize + 0 := by
    rw [Nat.add_zero]
    exact congrArg (· * singlefilefsBlockSize) (toNat_ofNat_blockNr hN e.1)
  refine ⟨Function.update image e.1 ((image e.1).patch 0 (e.2.val.take k)), ?_, fun b hb => ?_⟩
  · rw [hk, hdata, hplace, flatten_patch image e.1 hfits]
    rfl
  · have hne : b ≠ e.1 := fun heq => hb ⟨e, he, heq.symm⟩
    rw [Function.update_of_ne hne]
    exact houtside b hb

/-- An attempt changes only logged blocks. -/
theorem RestoreAttempt.after_holdsOutside (hN : N * singlefilefsBlockSize < 2 ^ 63)
    (hlen : (encodeLog (blockRecords devname mountdate log)).length ≤ maxLfsFilesize)
    (kind : DeviceKind) (a : RestoreAttempt) {data : Bytes} (h : HoldsOutside log img data) :
    HoldsOutside log img
      (a.after kind (encodeLog (blockRecords devname mountdate log)) data) := by
  let A : RestoreState → Prop := AtRecord (blockRecords devname mountdate log) []
  let Q : RestoreState → Prop := fun s => HoldsOutside log img s.dev.data
  have hstart : A (.start kind data a.stdin) := .inl ⟨[], _, rfl, rfl⟩
  have hleaves (s : RestoreState) (i : ℕ) (hQ : Q s)
      (hshort : (encodeLog (blockRecords devname mountdate log)).length <
        s.snapsPos + sizeofHdr) :
      Q (restoreIter a.opts (a.outs i) (encodeLog (blockRecords devname mountdate log)) s).1 ∧
      ((restoreIter a.opts (a.outs i) (encodeLog (blockRecords devname mountdate log)) s).2 =
        .next → A (restoreIter a.opts (a.outs i)
          (encodeLog (blockRecords devname mountdate log)) s).1) := by
    obtain ⟨pos, heof⟩ := restoreIter_eof a.opts (a.outs i) hshort
    rw [heof]
    refine ⟨hQ, fun hflow => ?_⟩
    cases hflow
  apply restoreLoop_invariant a.opts a.outs (Q := Q) (A := A) ?_ a.iterations 0 h hstart
  intro i s hQ hA
  rcases hA with ⟨as, bs, hsplit, hpos⟩ | hpast
  · cases bs with
    | nil =>
      apply hleaves s i hQ
      rw [hsplit, hpos, List.append_nil]
      simp [sizeofHdr]
    | cons r bs =>
      have hmem : r ∈ blockRecords devname mountdate log := by simp [hsplit]
      obtain ⟨e, he, rfl⟩ := List.mem_map.mp hmem
      have hfile : encodeLog (blockRecords devname mountdate log) =
          encodeLog as ++ ((beforeImageWork devname mountdate e).record.encode ++
            encodeLog bs) := by
        simp [hsplit]
      have hon := beforeImageWork_onDevice devname mountdate e hN
      rw [← hQ.length_eq] at hon
      have hsize : s.dev.data.length ≤ maxLfsFilesize := by
        rw [hQ.length_eq]
        simp only [maxLfsFilesize]
        omega
      rw [hfile] at hlen ⊢
      obtain ⟨hpatch, hnext⟩ := restoreIter_patches a.opts (a.outs i) hpos hlen hon hsize
      refine ⟨HoldsOutside.patches hN he hQ hpatch, fun hflow =>
        .inl ⟨as ++ [(beforeImageWork devname mountdate e).record], bs, ?_, ?_⟩⟩
      · rw [hsplit, List.append_assoc, List.singleton_append]
      · rw [hnext hflow]
        simp
  · apply hleaves s i hQ
    rw [List.append_nil] at hpast
    simp only [sizeofHdr]
    omega

theorem attempts_holdsOutside (hN : N * singlefilefsBlockSize < 2 ^ 63)
    (hlen : (encodeLog (blockRecords devname mountdate log)).length ≤ maxLfsFilesize)
    (kind : DeviceKind) (attempts : List RestoreAttempt) {data : Bytes}
    (h : HoldsOutside log img data) :
    HoldsOutside log img (attempts.foldl
      (RestoreAttempt.after kind (encodeLog (blockRecords devname mountdate log))) data) := by
  induction attempts generalizing data with
  | nil => exact h
  | cons a attempts ih => exact ih (a.after_holdsOutside hN hlen kind h)

/-- A complete restore of a log gives the image that the log is of, over every device that
has this image outside of the log. -/
theorem doRestore_holdsOutside (hN : N * singlefilefsBlockSize < 2 ^ 63) {opts : RestoreOpts}
    (hopts : opts.All) (hlog : ∀ e ∈ log, e.2 = img e.1) {data : Bytes}
    (h : HoldsOutside log img data) (kind : DeviceKind) (stdin : Bytes)
    (hlen : (encodeLog (blockRecords devname mountdate log)).length ≤ maxLfsFilesize)
    {fuel : ℕ} (hfuel : log.length < fuel) :
    ∃ t, doRestore opts (fun _ => .allDone) fuel (encodeLog (blockRecords devname mountdate log))
        (.start kind data stdin) = some (t, true) ∧ t.dev.data = flatten img := by
  obtain ⟨image, rfl, houtside⟩ := h
  obtain ⟨t, hrestore, hdata⟩ :=
    doRestore_blocks devname mountdate hN hopts log image kind stdin hlen hfuel
  rw [applyWrites_eq hlog houtside] at hdata
  exact ⟨t, hrestore, hdata⟩

end Images

/-- Whatever earlier runs of the tool on the file of an epoch have done to the device, a
complete run gives back the image that the epoch started from. -/
theorem restore_after_attempts (hash : UInt64 → ℕ) (maxEntries : ℕ) (devname mountdate : CStr)
    {N : ℕ} (hN : N * singlefilefsBlockSize < 2 ^ 63) (img : Image N)
    (ws : List (Fin N × Block singlefilefsBlockSize)) (xs : List WorkRun)
    (hxs : xs.map Prod.snd = submissions devname mountdate img ws) (s : WorkState)
    (hs : FreshEpoch hash (subdirname devname mountdate) s)
    (hrun : SucceedingRun (subdirname devname mountdate) xs) (opts : RestoreOpts)
    (hopts : opts.All) (kind : DeviceKind) (stdin : Bytes) (fuel : ℕ) (hfuel : xs.length < fuel)
    (attempts : List RestoreAttempt) :
    ∃ s' t, (epochMachine hash maxEntries fuel (subdirname devname mountdate)).run s xs = some s' ∧
      doRestore opts (fun _ => .allDone) fuel (s'.content (subdirname devname mountdate))
        (.start kind (attempts.foldl
          (RestoreAttempt.after kind (s'.content (subdirname devname mountdate)))
          (flatten (applyWrites img ws))) stdin) = some (t, true) ∧
      t.dev.data = flatten img := by
  have hrecords := firstRecords_submissions devname mountdate hN img ws
  have hfits := hrun.fits
  rw [hxs, hrecords] at hfits
  have hcount : (firstBy Prod.fst (beforeImages img ws)).length ≤ xs.length := by
    have hle := firstRecords_length_le (xs.map Prod.snd)
    rw [List.length_map] at hle
    rwa [hxs, hrecords, List.length_map] at hle
  obtain ⟨s', hwrite, hlogged⟩ := hrun.run_logged maxEntries hs hfuel.le
  have hcontent := hlogged.content_eq
  rw [hxs, hrecords] at hcontent
  have hoverwritten : HoldsOutside (firstBy Prod.fst (beforeImages img ws)) img
      (flatten (applyWrites img ws)) := by
    refine ⟨_, rfl, fun b hb => applyWrites_of_not_mem ?_⟩
    rwa [exists_mem_firstBy, exists_mem_beforeImages] at hb
  have hattempts := attempts_holdsOutside hN hfits kind attempts hoverwritten
  obtain ⟨t, hrestore, hdata⟩ := doRestore_holdsOutside hN hopts (firstBy_beforeImages img ws)
    hattempts kind stdin hfits (hcount.trans_lt hfuel)
  refine ⟨s', t, hwrite, ?_, hdata⟩
  rw [hcontent]
  exact hrestore

/-- A run that is killed in the middle of a write, then one with `-n 1` and a no. -/
theorem restore_after_attempts_torn :
    let zero : Block singlefilefsBlockSize := ⟨List.replicate 4096 0, List.length_replicate⟩
    let one : Block singlefilefsBlockSize := ⟨List.replicate 4096 1, List.length_replicate⟩
    let img : Image 2 := fun _ => zero
    let ws : List (Fin 2 × Block singlefilefsBlockSize) := [(0, one), (1, one), (0, zero)]
    let xs : List WorkRun :=
      (submissions "/dev/sda".toList "-2025-02-03_04:05:06".toList img ws).map
      fun w => (.allDone, w)
    let dir := subdirname "/dev/sda".toList "-2025-02-03_04:05:06".toList
    let torn : RestoreAttempt := ⟨⟨true, 0, false⟩, [], fun _ => ⟨.done, true, .done, .short 9⟩, 1⟩
    let refused : RestoreAttempt := ⟨⟨false, 1, true⟩, [110, 111, 10], fun _ => .allDone, 2⟩
    ∃ s' t, (epochMachine (fun _ => 0) 1 4 dir).run .fresh xs = some s' ∧
      doRestore ⟨true, 0, false⟩ (fun _ => .allDone) 4 (s'.content dir)
        (.start .block ([torn, refused].foldl (RestoreAttempt.after .block (s'.content dir))
          (flatten (applyWrites img ws))) []) = some (t, true) ∧
      t.dev.data = flatten img := by
  intro zero one img ws xs dir torn refused
  have hworks : xs.map Prod.snd =
      submissions "/dev/sda".toList "-2025-02-03_04:05:06".toList img ws := by
    simp [xs]
  have hrun : SucceedingRun dir xs := succeedingRun_submissions hworks
    (by simp [xs, WorkOutcomes.allDone_succeeds]) (by simp only [ws]; decide)
  have hcount : xs.length < 4 := by
    rw [List.length_map, submissions, List.length_map, beforeImages_length]
    decide
  exact restore_after_attempts (fun _ => 0) 1 "/dev/sda".toList "-2025-02-03_04:05:06".toList
    (by decide) img ws xs hworks .fresh (WorkState.fresh_freshEpoch _ _) hrun _ ⟨rfl, rfl⟩ .block
    [] 4 hcount [torn, refused]

end BlkdevSnapshot

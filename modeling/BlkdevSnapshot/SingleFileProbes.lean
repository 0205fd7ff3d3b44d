import BlkdevSnapshot.MakeSingleFileFs

/-!
# Restoring what the probes saw of the file system

The system calls on a mounted single-file file system while the probes are active, the
blocks that they hand over, and the restore of these blocks over the device. A handler that
gets NULL from `sb_bread` faults, so there is no more to say of such a run.
-/
namespace BlkdevSnapshot
open FirstWrite

/-- The submission of the content of a block. -/
def submissionOf (bdev : UInt32) {N : ℕ} (e : Fin N × CapturedBlock) : Submission :=
  ⟨bdev, UInt64.ofNat e.1, e.2⟩

theorem CapturedBlock.length_lt (block : CapturedBlock) : block.1.length < 2 ^ 32 := by
  rw [block.2]
  decide

/-- The work that a submission is queued as. -/
def Submission.work (devname mountdate : CStr) (submission : Submission) : MakeSnapshotWork where
  blockNr := submission.blocknr
  block := submission.block.1
  originalDevName := devname
  firstMountDate := mountdate
  block_lt := CapturedBlock.length_lt submission.block

/-- The probes of one write to the file, with the new node of the thread. -/
def probedWrite (bdev : UInt32) {N : ℕ} (fs : OneFile N) (io : WriteIo) (off : UInt64)
    (buf : Bytes) (node : CapturedBlock) : Option (List Submission) :=
  let r := fs.write bdev io off buf
  if r.2.1 = .hang ∨ r.2.1 = .error eio then none
  else some ((hitSubmissions node [] r.2.2).map Prod.fst)

/-- The probes of one system call. Outside of `vfs_write` the thread has no node. -/
def probedCall (bdev : UInt32) {N : ℕ} (v : Vfs (OneFile N)) (node : CapturedBlock) :
    FileCall ReadIo WriteIo → Option (List Submission)
  | .write fd buf io =>
    match v.files fd with
    | none => some []
    | some pos =>
      if Vfs.AreaRefused pos buf.length ∨ v.locked then some []
      else probedWrite bdev v.file io pos (buf.take maxRwCount) node
  | _ => some []

/-- What the system calls of a run hand over, each with the node that it would get. -/
def probedRun (bdev : UInt32) {N : ℕ} (v : Vfs (OneFile N)) :
    List (FileCall ReadIo WriteIo × CapturedBlock) → Option (List Submission)
  | [] => some []
  | (call, node) :: calls =>
    (probedCall bdev v node call).bind fun subs =>
      (probedRun bdev ((OneFile.store bdev N).machine.serve v call).1 calls).map (subs ++ ·)

/-- A call whose buffer has its pages in memory. -/
def FileCall.Resident : FileCall ReadIo WriteIo → Prop
  | .write _ _ io => io.faults = []
  | _ => True

/-! ## One write -/

section Write
variable {N : ℕ} {bdev : UInt32}

/-- A block that is read and written right afterwards. -/
theorem hitSubmissions_block (image image' : Image N) (b : Fin N) (node : CapturedBlock)
    (reads : List BufferHead) (ops : List (BufferOp BufferHead)) :
    (hitSubmissions node reads (.bread (bufferOf bdev image b) ::
      .writeDirtyBuffer (bufferOf bdev image' b) :: ops)).map Prod.fst =
      submissionOf bdev (b, image b) ::
        (hitSubmissions (image b) (reads ++ [bufferOf bdev image b]) ops).map Prod.fst := by
  have hblock : node.memcpy (bufferOf bdev image b) = image b :=
    Subtype.ext (node.memcpy_full rfl)
  have hhit : writeDirtyBufferPreHandler (image b) (bufferOf bdev image' b) =
      .submit ⟨bdev, UInt64.ofNat b, image b⟩ := by
    simp [writeDirtyBufferPreHandler, bufferOf, wholeBlock]
  simp only [hitSubmissions, hblock, hhit, List.map_cons]
  rfl

/-- `ops` write the blocks of `ws` and hand over what these held before. -/
def HandsOver (bdev : UInt32) (image image' : Image N) (ops : List (BufferOp BufferHead)) : Prop :=
  ∃ ws : List (Fin N × CapturedBlock), image' = applyWrites image ws ∧
    ∀ node, (hitSubmissions node [] ops).map Prod.fst =
      (beforeImages image ws).map (submissionOf bdev)

theorem HandsOver.growTo {fs : OneFile N} {io : WriteIo} {image : Image N} {sb b : Fin N}
    {new : CapturedBlock} (himage : image = Function.update fs.image b new) (off : UInt64) (n : ℕ) :
    let ops : List (BufferOp BufferHead) := [.bread (bufferOf bdev fs.image sb)] ++
      [.bread (bufferOf bdev fs.image b)] ++ [.writeDirtyBuffer (bufferOf bdev image b)]
    let r := OneFile.growTo bdev { fs with image := image } io off n ops
    HandsOver bdev fs.image r.1.image r.2.2 := by
  intro ops r
  have hone (rest : List (BufferOp BufferHead)) (node : CapturedBlock) :
      (hitSubmissions node [] (ops ++ rest)).map Prod.fst =
        submissionOf bdev (b, fs.image b) :: (hitSubmissions (fs.image b)
          [bufferOf bdev fs.image sb, bufferOf bdev fs.image b] rest).map Prod.fst :=
    hitSubmissions_block fs.image image b _ [bufferOf bdev fs.image sb] rest
  have hsingle : HandsOver bdev fs.image image ops := by
    refine ⟨[(b, new)], himage, fun node => ?_⟩
    have h := hone [] node
    rw [List.append_nil] at h
    rw [h]
    rfl
  simp only [r, OneFile.growTo]
  split
  · cases hino : sbBread N io.inodeBread singlefilefsInodesBlockNumber with
    | none => exact hsingle
    | some ino =>
      refine ⟨[(b, new), (ino, setInodeFileSize (image ino) off)], ?_, fun node => ?_⟩
      · simp only [himage]
        rfl
      · rw [hone, hitSubmissions_block]
        simp only [beforeImages, List.map_cons, himage]
        rfl
  · exact hsingle

theorem HandsOver.nothing {image : Image N} {ops : List (BufferOp BufferHead)}
    (h : ∀ node, hitSubmissions node [] ops = []) : HandsOver bdev image image ops :=
  ⟨[], rfl, fun node => by rw [h]; rfl⟩

/-- Whatever a write does, it hands over the old content of the blocks that it changes. -/
theorem OneFile.write_handsOver (bdev : UInt32) (fs : OneFile N) {io : WriteIo}
    (hio : io.faults = []) (off : UInt64) (buf : Bytes) :
    HandsOver bdev fs.image (fs.write bdev io off buf).1.image (fs.write bdev io off buf).2.2 := by
  unfold OneFile.write
  split
  · exact .nothing fun _ => rfl
  · rename_i sb hsb
    simp only
    split
    · exact .nothing fun _ => rfl
    · split
      · exact .nothing fun _ => rfl
      · split
        · exact .nothing fun _ => rfl
        · rw [hio, List.map_nil, List.append_nil]
          exact HandsOver.growTo rfl _ _

end Write

/-! ## Runs -/

section Runs
variable {N : ℕ} {bdev : UInt32}

theorem applyWrites_append {κ ν : Type*} [DecidableEq κ] (σ : κ → ν) (ws ws' : List (κ × ν)) :
    applyWrites σ (ws ++ ws') = applyWrites (applyWrites σ ws) ws' :=
  List.foldl_append

theorem beforeImages_append {κ ν : Type*} [DecidableEq κ] (σ : κ → ν) (ws ws' : List (κ × ν)) :
    beforeImages σ (ws ++ ws') = beforeImages σ ws ++ beforeImages (applyWrites σ ws) ws' := by
  induction ws generalizing σ with
  | nil => rfl
  | cons w ws ih =>
    simp only [List.cons_append, beforeImages]
    rw [ih]
    rfl

/-- The calls that write nothing leave the image alone. -/
theorem OneFile.store_openFile_image (v : Vfs (OneFile N)) (fd : ℕ) (io : LookupIo) :
    (v.openFile (OneFile.store bdev N) fd io).1.file.image = v.file.image := by
  have hlookup : (v.file.lookup io).1.image = v.file.image := by
    unfold OneFile.lookup
    split
    · rfl
    · split <;> rfl
  unfold Vfs.openFile
  simp only
  split
  · rfl
  · rfl
  · generalize hx : (OneFile.store bdev N).lookup v.file io = x
    have hfst : x.1.image = v.file.image := by rw [← hx]; exact hlookup
    obtain ⟨file, e⟩ := x
    cases e <;> exact hfst

theorem Vfs.close_file {φ : Type*} (v : Vfs φ) (fd : ℕ) : (v.close fd).1.file = v.file := by
  unfold Vfs.close
  split <;> rfl

theorem Vfs.lseek_file {φ ρ ω : Type*} (B : FileStore φ ρ ω) (v : Vfs φ) (fd : ℕ) (off : UInt64)
    (whence : ℕ) : (v.lseek B fd off whence).1.file = v.file := by
  unfold Vfs.lseek
  split
  · rfl
  · split_ifs
    · rfl
    · rfl
    · split <;> rfl

theorem Vfs.read_file {φ ρ ω : Type*} (B : FileStore φ ρ ω) (v : Vfs φ) (fd : ℕ) (len : UInt64)
    (accessOk : Bool) (io : ρ) : (v.read B fd len accessOk io).1.file = v.file := by
  unfold Vfs.read
  split
  · rfl
  · split_ifs
    · rfl
    · rfl
    · rfl
    · split <;> rfl

/-- The file behind a `write` that the VFS hands on. -/
theorem Vfs.write_file {φ ρ ω : Type*} (B : FileStore φ ρ ω) {v : Vfs φ} {fd : ℕ} {pos : UInt64}
    (hpos : v.files fd = some pos) {buf : Bytes}
    (hcall : ¬ (Vfs.AreaRefused pos buf.length ∨ v.locked)) (io : ω) :
    (v.write B fd buf io).1.file = (B.write v.file io pos (buf.take maxRwCount)).1 := by
  rw [not_or] at hcall
  simp only [Vfs.write, hpos, if_neg hcall.1, if_neg hcall.2]
  generalize B.write v.file io pos (buf.take maxRwCount) = x
  obtain ⟨file, e⟩ := x
  cases e <;> rfl

/-- A `write` that does not get to the file system leaves the file alone. -/
theorem Vfs.write_refused {φ ρ ω : Type*} (B : FileStore φ ρ ω) (v : Vfs φ) (fd : ℕ)
    (buf : Bytes) (h : ∀ pos ∈ v.files fd, Vfs.AreaRefused pos buf.length ∨ v.locked) (io : ω) :
    (v.write B fd buf io).1 = v := by
  unfold Vfs.write
  cases hpos : v.files fd with
  | none => rfl
  | some pos =>
    simp only
    split_ifs with harea hlocked
    · rfl
    · rfl
    · exact absurd (h pos hpos) (not_or.mpr ⟨harea, hlocked⟩)

/-- What the probes hand over during a call. -/
theorem probedCall_handsOver {v : Vfs (OneFile N)} {call : FileCall ReadIo WriteIo}
    (hcall : call.Resident) {node : CapturedBlock} {subs : List Submission}
    (h : probedCall bdev v node call = some subs) :
    ∃ ws : List (Fin N × CapturedBlock),
      ((OneFile.store bdev N).machine.serve v call).1.file.image = applyWrites v.file.image ws ∧
      subs = (beforeImages v.file.image ws).map (submissionOf bdev) := by
  have hquiet (himage : ((OneFile.store bdev N).machine.serve v call).1.file.image = v.file.image)
      (hsubs : probedCall bdev v node call = some []) :
      ∃ ws : List (Fin N × CapturedBlock),
        ((OneFile.store bdev N).machine.serve v call).1.file.image = applyWrites v.file.image ws ∧
        subs = (beforeImages v.file.image ws).map (submissionOf bdev) := by
    obtain rfl : subs = [] := Option.some.inj (h.symm.trans hsubs)
    exact ⟨[], himage, rfl⟩
  cases call with
  | openFile fd io => exact hquiet (OneFile.store_openFile_image v fd io) rfl
  | close fd => exact hquiet (congrArg OneFile.image (v.close_file fd)) rfl
  | lseek fd off whence =>
    exact hquiet (congrArg OneFile.image (v.lseek_file (OneFile.store bdev N) fd off whence)) rfl
  | read fd len accessOk io =>
    exact hquiet (congrArg OneFile.image (v.read_file (OneFile.store bdev N) fd len accessOk io))
      rfl
  | write fd buf io =>
    cases hpos : v.files fd with
    | none =>
      have hrefused := Vfs.write_refused (OneFile.store bdev N) v fd buf
        (by simp [hpos]) io
      exact hquiet (congrArg (fun v => v.file.image) hrefused) (by simp [probedCall, hpos])
    | some pos =>
      by_cases hstop : Vfs.AreaRefused pos buf.length ∨ v.locked
      · have hrefused := Vfs.write_refused (OneFile.store bdev N) v fd buf
          (by simpa [hpos] using hstop) io
        exact hquiet (congrArg (fun v => v.file.image) hrefused) (by simp [probedCall, hpos, hstop])
      · simp only [probedCall, hpos, if_neg hstop, probedWrite] at h
        split at h
        · cases h
        · obtain rfl := Option.some.inj h
          obtain ⟨ws, himage, hsubs⟩ := OneFile.write_handsOver bdev v.file hcall pos
            (buf.take maxRwCount)
          refine ⟨ws, ?_, hsubs node⟩
          show (v.write (OneFile.store bdev N) fd buf io).1.file.image = _
          rw [Vfs.write_file _ hpos hstop]
          exact himage

/-- A run of calls changes some blocks, and the probes hand over what these held before. -/
theorem probedRun_handsOver {v : Vfs (OneFile N)}
    {calls : List (FileCall ReadIo WriteIo × CapturedBlock)} (hcalls : ∀ c ∈ calls, c.1.Resident)
    {subs : List Submission} (h : probedRun bdev v calls = some subs) :
    ∃ ws : List (Fin N × CapturedBlock),
      ((OneFile.store bdev N).machine.after v (calls.map Prod.fst)).file.image =
        applyWrites v.file.image ws ∧
      subs = (beforeImages v.file.image ws).map (submissionOf bdev) := by
  induction calls generalizing v subs with
  | nil =>
    obtain rfl := Option.some.inj h
    exact ⟨[], rfl, rfl⟩
  | cons c calls ih =>
    obtain ⟨call, node⟩ := c
    obtain ⟨hcall, hrest⟩ := List.forall_mem_cons.mp hcalls
    obtain ⟨first, hfirst, hthen⟩ := Option.bind_eq_some_iff.mp h
    obtain ⟨later, hlater, rfl⟩ := Option.map_eq_some_iff.mp hthen
    obtain ⟨ws, himage, hsubs⟩ := probedCall_handsOver hcall hfirst
    obtain ⟨ws', himage', hsubs'⟩ := ih hrest hlater
    refine ⟨ws ++ ws', ?_, ?_⟩
    · rw [applyWrites_append, ← himage]
      exact himage'
    · rw [beforeImages_append, List.map_append, ← himage, ← hsubs, ← hsubs']

end Runs

/-! ## The restore -/

theorem work_submissionOf (bdev : UInt32) (devname mountdate : CStr) {N : ℕ}
    (e : Fin N × CapturedBlock) :
    (submissionOf bdev e).work devname mountdate = beforeImageWork devname mountdate e := rfl

/-- Works for the submissions of some writes end, and the restore of their file undoes the
writes. -/
theorem restores_submissions (hash : UInt64 → ℕ) (maxEntries : ℕ) {devname mountdate : CStr} {N : ℕ}
    (hN : N * singlefilefsBlockSize < 2 ^ 63) (img : Image N)
    (ws : List (Fin N × Block singlefilefsBlockSize)) {xs : List WorkRun}
    (hxs : xs.map Prod.snd = submissions devname mountdate img ws) {s : WorkState}
    (hs : FreshEpoch hash (subdirname devname mountdate) s)
    (hrun : SucceedingRun (subdirname devname mountdate) xs) {opts : RestoreOpts}
    (hopts : opts.All) (kind : DeviceKind) (stdin : Bytes) {fuel : ℕ} (hfuel : xs.length < fuel) :
    ∃ s' t, (epochMachine hash maxEntries fuel (subdirname devname mountdate)).run s xs = some s' ∧
      doRestore opts (fun _ => .allDone) fuel (s'.content (subdirname devname mountdate))
        (.start kind (flatten (applyWrites img ws)) stdin) = some (t, true) ∧
      t.dev.data = flatten img := by
  have hlog := firstRecords_submissions devname mountdate hN img ws
  have hfits := hrun.fits
  rw [hxs, hlog] at hfits
  have hcount : (firstBy Prod.fst (beforeImages img ws)).length ≤ xs.length := by
    have hle := firstRecords_length_le (xs.map Prod.snd)
    rw [List.length_map] at hle
    rwa [hxs, hlog, List.length_map] at hle
  obtain ⟨s', hwrite, hlogged⟩ := hrun.run_logged maxEntries hs hfuel.le
  have hcontent := hlogged.content_eq
  rw [hxs, hlog] at hcontent
  obtain ⟨t, hrestore, hdata⟩ := doRestore_blocks devname mountdate hN hopts _
    (applyWrites img ws) kind stdin hfits (hcount.trans_lt hfuel)
  rw [applyWrites_undo] at hdata
  rw [← hcontent] at hrestore
  exact ⟨s', t, hwrite, hrestore, hdata⟩

/-- Any system calls on a mounted device with active probes, the works for all that they hand
over, and a full restore: the device is again as it was, whatever a new node contains and
whatever the copies from user memory leave out. -/
theorem restore_after_calls (hash : UInt64 → ℕ) (maxEntries : ℕ) (bdev : UInt32)
    (devname mountdate : CStr) {N : ℕ} (hN : N * singlefilefsBlockSize < 2 ^ 63)
    (v : Vfs (OneFile N)) (calls : List (FileCall ReadIo WriteIo × CapturedBlock))
    (hcalls : ∀ c ∈ calls, c.1.Resident) (subs : List Submission)
    (hsubs : probedRun bdev v calls = some subs) (xs : List WorkRun)
    (hxs : xs.map Prod.snd = subs.map (Submission.work devname mountdate)) (s : WorkState)
    (hs : FreshEpoch hash (subdirname devname mountdate) s)
    (hrun : SucceedingRun (subdirname devname mountdate) xs) (opts : RestoreOpts)
    (hopts : opts.All) (kind : DeviceKind) (stdin : Bytes) (fuel : ℕ) (hfuel : xs.length < fuel) :
    ∃ s' t, (epochMachine hash maxEntries fuel (subdirname devname mountdate)).run s xs = some s' ∧
      doRestore opts (fun _ => .allDone) fuel (s'.content (subdirname devname mountdate))
        (.start kind (flatten ((OneFile.store bdev N).machine.after v
          (calls.map Prod.fst)).file.image) stdin) = some (t, true) ∧
      t.dev.data = flatten v.file.image := by
  obtain ⟨ws, himage, hbefore⟩ := probedRun_handsOver hcalls hsubs
  have hworks : xs.map Prod.snd = submissions devname mountdate v.file.image ws := by
    rw [hxs, hbefore, List.map_map, submissions]
    exact List.map_congr_left fun e _ => work_submissionOf bdev devname mountdate e
  rw [himage]
  exact restores_submissions hash maxEntries hN v.file.image ws hworks hs hrun hopts kind stdin
    hfuel

/-- A file that is opened, written to twice and made longer. -/
theorem restore_after_calls_grown :
    let v : Vfs (OneFile 3) := ⟨⟨newDevice, 33⟩, .absent, false, fun _ => none⟩
    let io : WriteIo := ⟨true, true, true, 0, []⟩
    let node := zeroBlock singlefilefsBlockSize
    let calls : List (FileCall ReadIo WriteIo × CapturedBlock) :=
      [(.openFile 3 ⟨true, true⟩, node), (.write 3 [1, 2, 3] io, node), (.lseek 3 33 seekSet, node),
        (.write 3 [4, 5] io, node)]
    let subs := (probedRun 0x700000 v calls).getD []
    let xs : List WorkRun := subs.map fun submission =>
      (.allDone, submission.work "/dev/sda".toList "-2025-02-03_04:05:06".toList)
    let dir := subdirname "/dev/sda".toList "-2025-02-03_04:05:06".toList
    subs.length = 3 ∧
    ∃ s' t, (epochMachine (fun _ => 0) 1 4 dir).run .fresh xs = some s' ∧
      doRestore ⟨true, 0, false⟩ (fun _ => .allDone) 4 (s'.content dir)
        (.start .block (flatten ((OneFile.store 0x700000 3).machine.after v
          (calls.map Prod.fst)).file.image) []) = some (t, true) ∧
      t.dev.data = flatten newDevice := by
  intro v io node calls subs xs dir
  have hsome : (probedRun 0x700000 v calls).isSome = true := by decide +kernel
  have hsubs : probedRun 0x700000 v calls = some subs := by
    obtain ⟨subs', hsubs'⟩ := Option.isSome_iff_exists.mp hsome
    simp only [subs, hsubs', Option.getD_some]
  have hcalls : ∀ c ∈ calls, c.1.Resident := by
    intro c hc
    simp only [calls, List.mem_cons, List.not_mem_nil, or_false] at hc
    rcases hc with rfl | rfl | rfl | rfl
    · exact trivial
    · exact rfl
    · exact trivial
    · exact rfl
  have hlen : subs.length = 3 := by decide +kernel
  have hworks : xs.map Prod.snd =
      subs.map (Submission.work "/dev/sda".toList "-2025-02-03_04:05:06".toList) := by
    simp [xs]
  obtain ⟨ws, -, hbefore⟩ := probedRun_handsOver hcalls hsubs
  have hxs : xs.map Prod.snd =
      submissions "/dev/sda".toList "-2025-02-03_04:05:06".toList v.file.image ws := by
    rw [hworks, hbefore, List.map_map, submissions]
    rfl
  have hrun : SucceedingRun dir xs := succeedingRun_submissions hxs
    (by simp [xs, WorkOutcomes.allDone_succeeds]) (by
      have hcount := congrArg List.length hbefore
      rw [List.length_map, beforeImages_length, hlen] at hcount
      rw [← hcount]
      decide)
  refine ⟨hlen, restore_after_calls (fun _ => 0) 1 0x700000 _ _ (by decide) v calls hcalls subs
    hsubs xs hworks .fresh (WorkState.fresh_freshEpoch _ _) hrun _ ⟨rfl, rfl⟩ .block [] 4 ?_⟩
  rw [List.length_map, hlen]
  decide

end BlkdevSnapshot

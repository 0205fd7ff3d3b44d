import BlkdevSnapshot.CachedLog
import BlkdevSnapshot.CapturedBlock
import BlkdevSnapshot.RestoreScan

/-!
# From the first write of an epoch to the restored image

A device of 4096-byte blocks, the writes of one epoch with the before-images
that they hand to `make_snapshot`, and the restore of the resulting file over
the final image. The first-write law says what is in the file and the walk of
the restore tool replays it.
-/
namespace BlkdevSnapshot
open FirstWrite

/-- The image of a device of `N` file-system blocks. -/
abbrev Image (N : ℕ) := Fin N → Block singlefilefsBlockSize

/-- The work for a block and the content that it is about to lose. -/
def beforeImageWork (devname mountdate : CStr) {N : ℕ}
    (e : Fin N × Block singlefilefsBlockSize) : MakeSnapshotWork where
  blockNr := UInt64.ofNat e.1
  block := e.2.val
  originalDevName := devname
  firstMountDate := mountdate
  block_lt := by rw [e.2.property]; decide

/-- What the writes of an epoch hand to `make_snapshot`, in order. -/
def submissions (devname mountdate : CStr) {N : ℕ} (img : Image N)
    (ws : List (Fin N × Block singlefilefsBlockSize)) : List MakeSnapshotWork :=
  (beforeImages img ws).map (beforeImageWork devname mountdate)

/-- A device whose size is a file offset has block numbers of 64 bits. -/
theorem toNat_ofNat_blockNr {N : ℕ} (hN : N * singlefilefsBlockSize < 2 ^ 63) (i : Fin N) :
    (UInt64.ofNat i).toNat = i := by
  have hi := i.isLt
  simp only [singlefilefsBlockSize] at hN
  rw [UInt64.toNat_ofNat', Nat.mod_eq_of_lt (by omega)]

/-- The log of the submissions holds the first before-image of every block. -/
theorem firstRecords_submissions (devname mountdate : CStr) {N : ℕ}
    (hN : N * singlefilefsBlockSize < 2 ^ 63) (img : Image N)
    (ws : List (Fin N × Block singlefilefsBlockSize)) :
    firstRecords (submissions devname mountdate img ws) =
      (firstBy Prod.fst (beforeImages img ws)).map
        fun e => (beforeImageWork devname mountdate e).record := by
  have hkey (x y : Fin N × Block singlefilefsBlockSize) :
      (beforeImageWork devname mountdate x).blockNr =
        (beforeImageWork devname mountdate y).blockNr ↔ x.1 = y.1 := by
    constructor
    · intro h
      have h' := congrArg UInt64.toNat h
      simp only [beforeImageWork] at h'
      rw [toNat_ofNat_blockNr hN, toNat_ofNat_blockNr hN] at h'
      exact Fin.ext h'
    · intro h
      simp only [beforeImageWork, h]
  rw [firstRecords, submissions, firstBy_map _ Prod.fst _ hkey, List.map_map]
  rfl

/-- Healthy works of an epoch succeed as long as all before-images fit in the file. -/
theorem succeedingRun_submissions {devname mountdate : CStr} {N : ℕ} {img : Image N}
    {ws : List (Fin N × Block singlefilefsBlockSize)} {xs : List WorkRun}
    (hxs : xs.map Prod.snd = submissions devname mountdate img ws)
    (hok : ∀ x ∈ xs, x.1.Succeeds)
    (hfit : ws.length * (sizeofHdr + singlefilefsBlockSize) ≤ maxLfsFilesize) :
    SucceedingRun (subdirname devname mountdate) xs := by
  have hwork : ∀ w ∈ xs.map Prod.snd, ∃ e : Fin N × Block singlefilefsBlockSize,
      w = beforeImageWork devname mountdate e := by
    intro w hw
    rw [hxs, submissions] at hw
    obtain ⟨e, -, he⟩ := List.mem_map.mp hw
    exact ⟨e, he.symm⟩
  have hcount : (xs.map Prod.snd).length = ws.length := by
    rw [hxs, submissions, List.length_map, beforeImages_length]
  refine ⟨fun x hx => ?_, hok, fun x hx => ?_, ?_⟩
  · obtain ⟨e, he⟩ := hwork x.2 (List.mem_map_of_mem hx)
    rw [he]
    rfl
  · obtain ⟨e, he⟩ := hwork x.2 (List.mem_map_of_mem hx)
    rw [he]
    show e.2.val.length ≤ maxRwCount
    rw [e.2.property]
    decide
  · rw [encodeLog_length_of_forall]
    · apply le_trans (Nat.mul_le_mul_right _ ?_) hfit
      rw [← hcount]
      exact firstRecords_length_le _
    · intro r hr
      obtain ⟨w, hw, rfl⟩ := List.mem_map.mp hr
      obtain ⟨e, rfl⟩ := hwork w (mem_of_mem_firstBy hw)
      rw [Record.encode_length, MakeSnapshotWork.record_payload]
      show sizeofHdr + 0 + e.2.val.length = _
      rw [e.2.property, Nat.add_zero]

section Restore
variable (devname mountdate : CStr) {N : ℕ} (e : Fin N × Block singlefilefsBlockSize)

lemma beforeImageWork_payload_length :
    (beforeImageWork devname mountdate e).record.payload.length = singlefilefsBlockSize :=
  e.2.property

lemma beforeImageWork_onDevice (hN : N * singlefilefsBlockSize < 2 ^ 63) :
    (beforeImageWork devname mountdate e).record.OnDevice (N * singlefilefsBlockSize) := by
  unfold Record.OnDevice
  rw [beforeImageWork_payload_length]
  apply Nat.mul_le_mul_right
  show (UInt64.ofNat e.1).toNat + 1 ≤ N
  rw [toNat_ofNat_blockNr hN]
  exact e.1.isLt

/-- One healthy iteration at the record of a block writes that block. -/
theorem restoreIter_block (hN : N * singlefilefsBlockSize < 2 ^ 63) {opts : RestoreOpts}
    (hopts : opts.All) {pre post : Bytes} {s : RestoreState} {img : Image N}
    (hpos : s.snapsPos = pre.length) (hs : s.dev.data = flatten img)
    (hlen : (pre ++ ((beforeImageWork devname mountdate e).record.encode ++ post)).length ≤
      maxLfsFilesize) :
    ∃ s', restoreIter opts .allDone
        (pre ++ ((beforeImageWork devname mountdate e).record.encode ++ post)) s = (s', .next) ∧
      s'.snapsPos = pre.length + (beforeImageWork devname mountdate e).record.encode.length ∧
      s'.dev.data = flatten (Function.update img e.1 e.2) := by
  have hsize := beforeImageWork_payload_length devname mountdate e
  have hdata : s.dev.data.length = N * singlefilefsBlockSize := by rw [hs, flatten_length]
  have hmax : s.dev.data.length ≤ maxLfsFilesize := by
    rw [hdata]
    simp only [maxLfsFilesize]
    omega
  have hrw : (beforeImageWork devname mountdate e).record.payload.length ≤ maxRwCount := by
    rw [hsize]
    decide
  have hon := beforeImageWork_onDevice devname mountdate e hN
  rw [← hdata] at hon
  rw [restoreIter_done hopts _ hpos hlen rfl hrw]
  refine ⟨_, restorePayload_done hon hmax hrw, rfl, ?_⟩
  show overwrite s.dev.data ((UInt64.ofNat e.1).toNat * _) e.2.val = _
  rw [hsize, toNat_ofNat_blockNr hN, hs, overwrite_flatten]

/-- The restore of a log of block records replays its writes over the image. -/
theorem doRestore_blocks (hN : N * singlefilefsBlockSize < 2 ^ 63) {opts : RestoreOpts}
    (hopts : opts.All) (log : List (Fin N × Block singlefilefsBlockSize)) (img : Image N)
    (kind : DeviceKind) (stdin : Bytes)
    (hlen : (encodeLog (log.map fun e => (beforeImageWork devname mountdate e).record)).length ≤
      maxLfsFilesize) {fuel : ℕ} (hfuel : log.length < fuel) :
    ∃ s', doRestore opts (fun _ => .allDone) fuel
        (encodeLog (log.map fun e => (beforeImageWork devname mountdate e).record))
        (.start kind (flatten img) stdin) = some (s', true) ∧
      s'.dev.data = flatten (applyWrites img log) := by
  set rs := log.map fun e => (beforeImageWork devname mountdate e).record with hrs
  let P : List Record → RestoreState → Prop := fun as s =>
    s.dev.data = flatten (applyWrites img (log.take as.length))
  have hstart : P [] (.start kind (flatten img) stdin) := rfl
  have hstep : ∀ as r bs (i : ℕ) (s : RestoreState), rs = as ++ r :: bs →
      s.snapsPos = (encodeLog as).length → P as s →
      ∃ s', restoreIter opts .allDone (encodeLog rs ++ []) s = (s', .next) ∧
        s'.snapsPos = (encodeLog (as ++ [r])).length ∧ P (as ++ [r]) s' := by
    intro as r bs i s hsplit hpos hP
    have hn : as.length < log.length := by
      have hle := congrArg List.length hsplit
      simp only [hrs, List.length_map, List.length_append, List.length_cons] at hle
      omega
    have hr : r = (beforeImageWork devname mountdate log[as.length]).record := by
      have hget : rs[as.length]? = some r := by rw [hsplit]; simp
      simpa [hrs, hn] using hget.symm
    have hfile : encodeLog rs ++ [] = encodeLog as ++ (r.encode ++ encodeLog bs) := by
      rw [hsplit]
      simp
    have hfit : (encodeLog as ++ (r.encode ++ encodeLog bs)).length ≤ maxLfsFilesize := by
      rw [← hfile, List.append_nil]
      exact hlen
    rw [hr] at hfit
    rw [hfile, hr]
    obtain ⟨s', hiter, hnext, hdata⟩ :=
      restoreIter_block devname mountdate log[as.length] hN hopts hpos hP hfit
    refine ⟨s', hiter, by simp [hnext], ?_⟩
    show s'.dev.data = flatten (applyWrites img (log.take (as ++ [_]).length))
    rw [hdata, List.length_append, List.length_singleton, List.take_succ_eq_append_getElem hn,
      applyWrites_concat]
  obtain ⟨s', hloop, hpos, hdata⟩ := restoreLoop_walk opts (fun _ => .allDone) hstep rfl hstart
  rw [List.append_nil] at hloop
  have hshort : (encodeLog rs).length < s'.snapsPos + sizeofHdr := by
    rw [hpos]
    simp [sizeofHdr]
  obtain ⟨pos, heof⟩ := restoreIter_eof opts .allDone hshort
  have hend : restoreLoop opts (fun _ => .allDone) (encodeLog rs) (rs.length + 1) 0
      (.start kind (flatten img) stdin) = ({ s' with snapsPos := pos }, .leave) := by
    rw [restoreLoop_add opts _ hloop]
    simp [restoreLoop, heof]
  refine ⟨{ s' with snapsPos := pos }, ?_, ?_⟩
  · have henough : rs.length + 1 ≤ fuel := by
      simp only [hrs, List.length_map]
      omega
    rw [doRestore_of_stops opts _ henough (by simp [hend]), hend]
    rfl
  · have hall : log.take rs.length = log := by simp [hrs]
    show s'.dev.data = _
    rw [hdata, hall]

end Restore

/-- Restoring the snapblocks file of an epoch over the final image of the device
gives back the image that the epoch started from. -/
theorem doRestore_snapblocks_initial_image (hash : UInt64 → ℕ) (maxEntries : ℕ)
    (devname mountdate : CStr) {N : ℕ} (hN : N * singlefilefsBlockSize < 2 ^ 63) (img : Image N)
    (ws : List (Fin N × Block singlefilefsBlockSize)) (xs : List WorkRun)
    (hxs : xs.map Prod.snd = submissions devname mountdate img ws) (s : WorkState)
    (hs : FreshEpoch hash (subdirname devname mountdate) s)
    (hrun : SucceedingRun (subdirname devname mountdate) xs) (opts : RestoreOpts)
    (hopts : opts.All) (kind : DeviceKind) (stdin : Bytes) :
    ∃ fuel₀, ∀ fuel, fuel₀ ≤ fuel → ∃ s' t,
      (epochMachine hash maxEntries fuel (subdirname devname mountdate)).run s xs = some s' ∧
      doRestore opts (fun _ => .allDone) fuel (s'.content (subdirname devname mountdate))
        (.start kind (flatten (applyWrites img ws)) stdin) = some (t, true) ∧
      t.dev.data = flatten img := by
  refine ⟨xs.length + (firstBy Prod.fst (beforeImages img ws)).length + 1, fun fuel hfuel => ?_⟩
  have hlog := firstRecords_submissions devname mountdate hN img ws
  have hfits := hrun.fits
  rw [hxs, hlog] at hfits
  have henough : (firstBy Prod.fst (beforeImages img ws)).length < fuel := by omega
  obtain ⟨s', hwrite, hlogged⟩ := hrun.run_logged maxEntries hs (by omega : xs.length ≤ fuel)
  have hcontent := hlogged.content_eq
  rw [hxs, hlog] at hcontent
  obtain ⟨t, hrestore, hdata⟩ := doRestore_blocks devname mountdate hN hopts _
    (applyWrites img ws) kind stdin hfits henough
  rw [applyWrites_undo] at hdata
  rw [← hcontent] at hrestore
  exact ⟨s', t, hwrite, hrestore, hdata⟩

/-- Two writes of one block and one of another, with a cache of one entry. -/
theorem doRestore_snapblocks_initial_image_rewritten :
    let zero : Block singlefilefsBlockSize := ⟨List.replicate 4096 0, List.length_replicate⟩
    let one : Block singlefilefsBlockSize := ⟨List.replicate 4096 1, List.length_replicate⟩
    let img : Image 2 := fun _ => zero
    let ws : List (Fin 2 × Block singlefilefsBlockSize) := [(0, one), (1, one), (0, zero)]
    let xs : List WorkRun :=
      (submissions "/dev/sda".toList "-2025-02-03_04:05:06".toList img ws).map
      fun w => (.allDone, w)
    let dir := subdirname "/dev/sda".toList "-2025-02-03_04:05:06".toList
    ∃ fuel₀, ∀ fuel, fuel₀ ≤ fuel → ∃ s' t,
      (epochMachine (fun _ => 0) 1 fuel dir).run .fresh xs = some s' ∧
      doRestore ⟨true, 0, false⟩ (fun _ => .allDone) fuel (s'.content dir)
        (.start .block (flatten (applyWrites img ws)) []) = some (t, true) ∧
      t.dev.data = flatten img := by
  intro zero one img ws xs dir
  have hworks : xs.map Prod.snd =
      submissions "/dev/sda".toList "-2025-02-03_04:05:06".toList img ws := by
    simp [xs]
  have hrun : SucceedingRun dir xs := succeedingRun_submissions hworks
    (by simp [xs, WorkOutcomes.allDone_succeeds]) (by simp only [ws]; decide)
  exact doRestore_snapblocks_initial_image (fun _ => 0) 1 "/dev/sda".toList
    "-2025-02-03_04:05:06".toList (by decide) img ws xs hworks .fresh
    (WorkState.fresh_freshEpoch _ _) hrun _ ⟨rfl, rfl⟩ .block []

end BlkdevSnapshot

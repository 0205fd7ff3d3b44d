import BlkdevSnapshot.BlockImage
import BlkdevSnapshot.RestoreInPlace

/-!
# Blocks with several records

A block may have more than one record. With `-n` the tool stops at the first of them,
in restore-all mode each one overwrites the block that the one before it has put there.
The device after a run is the replay of the writes in its log, so both modes come down
to which records of the block are replayed.
-/
namespace BlkdevSnapshot

/-- The bytes of a device after writes at the given offsets. -/
def overwriteAll (data : Bytes) (ws : List (ℕ × Bytes)) : Bytes :=
  ws.foldl (fun d w => overwrite d w.1 w.2) data

/-- The payloads of the records of a block, the earliest first. -/
def payloadsOf (b : UInt64) (rs : List Record) : List Bytes :=
  (rs.filter (·.blknr = b)).map Record.payload

@[simp] theorem overwriteAll_append (data : Bytes) (ws ws' : List (ℕ × Bytes)) :
    overwriteAll data (ws ++ ws') = overwriteAll (overwriteAll data ws) ws' :=
  List.foldl_append

@[simp] theorem overwriteAll_singleton (data : Bytes) (w : ℕ × Bytes) :
    overwriteAll data [w] = overwrite data w.1 w.2 := rfl

section Replay
variable {opts : RestoreOpts} {data : Bytes} {s t : RestoreState}

/-- The device holds what the writes in the log have made of its first content. -/
def Replayed (data : Bytes) (s : RestoreState) : Prop :=
  s.dev.data = overwriteAll data (writesDone s.log)

theorem Replayed.of_same (h : Replayed data s) (hdev : t.dev.data = s.dev.data)
    (hlog : writesDone t.log = writesDone s.log) : Replayed data t := by
  rw [Replayed, hdev, hlog]
  exact h

theorem Replayed.doRestoreRawblocks (h : Replayed data s) (o : IterOutcomes) (snaps : Bytes)
    (hdr : SnapblockFileHdr) :
    Replayed data (BlkdevSnapshot.doRestoreRawblocks o snaps hdr s).1 := by
  unfold BlkdevSnapshot.doRestoreRawblocks
  simp only
  split
  · exact h.of_same rfl rfl
  · split
    · exact h.of_same rfl rfl
    · rename_i buf hread
      split
      · exact h.of_same rfl rfl
      · let d := s.dev.lseekSet (hdr.blknr * hdr.payldsiz)
        have hsame : d.data = s.dev.data := by
          simp only [d, Device.lseekSet]
          split <;> rfl
        obtain ⟨k, -, hcount, hdata, -⟩ := Device.write_prefix (d := d) o.devWrite buf
        simp only [Replayed, RestoreState.emit, RestoreState.seekSnaps, writesDone,
          List.filterMap_append, List.filterMap_cons, List.filterMap_nil, overwriteAll_append,
          overwriteAll_singleton]
        rw [hcount, hdata, hsame, h]
        rfl

theorem Replayed.restoreRecord (h : Replayed data s) (o : IterOutcomes) (snaps : Bytes)
    (hdr : SnapblockFileHdr) :
    Replayed data (BlkdevSnapshot.restoreRecord opts o snaps hdr s).1 := by
  have hasked : Replayed data (askUser opts hdr s).2 :=
    h.of_same (congrArg Device.data (askUser_dev hdr)) (writesDone_askUser hdr)
  have htype : Replayed data (restoreByType o snaps hdr (askUser opts hdr s).2).1 := by
    unfold restoreByType
    split
    · exact hasked.doRestoreRawblocks o snaps hdr
    · exact hasked.of_same rfl rfl
  rw [restoreRecord_eq]
  split
  · exact h.of_same rfl rfl
  · split
    · exact hasked.of_same rfl rfl
    · split
      · exact htype
      · exact htype

/-- Whatever the calls of an iteration do, the log tells what has become of the device. -/
theorem Replayed.restoreIter (h : Replayed data s) (opts : RestoreOpts) (o : IterOutcomes)
    (snaps : Bytes) :
    Replayed data (BlkdevSnapshot.restoreIter opts o snaps s).1 := by
  unfold BlkdevSnapshot.restoreIter
  split
  · exact h
  · simp only
    split
    · exact h.of_same rfl rfl
    · apply Replayed.restoreRecord
      exact h.of_same rfl (by simp [RestoreState.emit, writesDone])

theorem Replayed.restoreLoop (h : Replayed data s) (opts : RestoreOpts)
    (outs : ℕ → IterOutcomes) (snaps : Bytes) (n i : ℕ) :
    Replayed data (BlkdevSnapshot.restoreLoop opts outs snaps n i s).1 := by
  induction n generalizing i s with
  | zero => exact h
  | succ n ih =>
    have hiter := h.restoreIter opts (outs i) snaps
    rw [BlkdevSnapshot.restoreLoop]
    split
    · rename_i s' heq
      rw [heq] at hiter
      exact ih hiter (i + 1)
    · rename_i s' heq
      rw [heq] at hiter
      exact hiter
    · rename_i s' heq
      rw [heq] at hiter
      exact hiter

end Replay

/-- The write that restores a record. -/
def Record.write (r : Record) : ℕ × Bytes := (r.blknr.toNat * r.payload.length, r.payload)

section Writes
variable {rs : List Record} {n : ℕ} {b : UInt64}

/-- Without asking, restore-all writes every raw record. -/
theorem dueWrites_all (hraw : ∀ r ∈ rs, r.payldType = snapblockPayloadTypeRaw) (x : UInt64)
    (stdin : Bytes) (i : ℕ) :
    dueWrites (fun _ => .allDone) i (walked ⟨true, x, false⟩ rs stdin) = rs.map Record.write := by
  induction rs generalizing i with
  | nil => rfl
  | cons r rs ih =>
    have hdue : IterOutcomes.allDone.Restores r := ⟨hraw r List.mem_cons_self, rfl, rfl⟩
    have hrest := ih (fun q hq => hraw q (List.mem_cons_of_mem _ hq)) (i + 1)
    simpa [walked, attempts, dueWrites, dueWrite, hdue, Record.write] using hrest

/-- Without asking, `-n` writes the first record of its block. -/
theorem dueWrites_single (hraw : ∀ r ∈ rs, r.payldType = snapblockPayloadTypeRaw) (b : UInt64)
    (stdin : Bytes) (i : ℕ) :
    dueWrites (fun _ => .allDone) i (walked ⟨false, b, false⟩ rs stdin) =
      (rs.find? (·.blknr = b)).toList.map Record.write := by
  induction rs generalizing i with
  | nil => rfl
  | cons r rs ih =>
    have hdue : IterOutcomes.allDone.Restores r := ⟨hraw r List.mem_cons_self, rfl, rfl⟩
    have hrest := ih (fun q hq => hraw q (List.mem_cons_of_mem _ hq)) (i + 1)
    by_cases hb : r.blknr = b
    · simp [walked, attempts, dueWrites, dueWrite, hdue, hb, Record.write]
    · have hb' : b ≠ r.blknr := Ne.symm hb
      simpa [walked, attempts, dueWrites, dueWrite, hb, hb'] using hrest

theorem payloadsOf_concat (b : UInt64) (rs : List Record) (r : Record) :
    payloadsOf b (rs ++ [r]) =
      if r.blknr = b then payloadsOf b rs ++ [r.payload] else payloadsOf b rs := by
  by_cases hb : r.blknr = b <;> simp [payloadsOf, hb]

/-- Restore-all leaves the payload of the last record in a block. -/
theorem blockAt_overwriteAll (hsize : ∀ r ∈ rs, r.payload.length = n) (data : Bytes) {p : Bytes}
    (hlast : (payloadsOf b rs).getLast? = some p) :
    blockAt n (overwriteAll data (rs.map Record.write)) b.toNat = p ∧
      (b.toNat + 1) * n ≤ (overwriteAll data (rs.map Record.write)).length := by
  induction rs using List.reverseRecOn with
  | nil => simp [payloadsOf] at hlast
  | append_singleton rs r ih =>
    have hr : r.payload.length = n := hsize r (by simp)
    have hstep : overwriteAll data ((rs ++ [r]).map Record.write) =
        overwrite (overwriteAll data (rs.map Record.write)) (r.blknr.toNat * n) r.payload := by
      rw [List.map_append, overwriteAll_append]
      simp [Record.write, hr]
    rw [hstep]
    rw [payloadsOf_concat] at hlast
    by_cases hb : r.blknr = b
    · rw [if_pos hb, List.getLast?_concat, Option.some.injEq] at hlast
      rw [hb]
      exact ⟨(blockAt_overwrite_self hr).trans hlast, succ_mul_le_overwrite_length hr⟩
    · rw [if_neg hb] at hlast
      obtain ⟨hblock, hin⟩ := ih (fun q hq => hsize q (by simp [hq])) hlast
      have hne : b.toNat ≠ r.blknr.toNat := fun he => hb (UInt64.toNat.inj he).symm
      exact ⟨(blockAt_overwrite_ne hr hne hin).trans hblock,
        hin.trans (le_overwrite_length _ _ _)⟩

end Writes

/-- Restoring block `b` alone and restoring everything both give it the payload of its
earliest record, and the former changes no other block of the device. -/
structure SingleAgrees (n : ℕ) (b : UInt64) (earliest data single all : Bytes) : Prop where
  single_eq : blockAt n single b.toNat = earliest
  all_eq : blockAt n all b.toNat = earliest
  others : ∀ c, c ≠ b.toNat → (c + 1) * n ≤ data.length → blockAt n single c = blockAt n data c

/-- Both modes on a log of raw records. -/
theorem doRestore_raw {rs : List Record} (hlen : (encodeLog rs).length ≤ maxLfsFilesize)
    (opts : RestoreOpts) (kind : DeviceKind) (data stdin : Bytes)
    (hfits : ∀ r ∈ rs, r.Fits ⟨kind, data, 0⟩) {fuel : ℕ} (hfuel : rs.length < fuel) :
    ∃ t, doRestore opts (fun _ => .allDone) fuel (encodeLog rs) (.start kind data stdin) =
        some (t, true) ∧
      t.dev.data =
        overwriteAll data (dueWrites (fun _ => .allDone) 0 (walked opts rs stdin)) := by
  have hwalked (rs : List Record) (stdin : Bytes) :
      ∀ w ∈ walked opts rs stdin, w.1 ∈ rs := by
    induction rs generalizing stdin with
    | nil => simp [walked]
    | cons r rs ih =>
      intro w hw
      rw [walked, List.mem_cons] at hw
      rcases hw with rfl | hw
      · exact List.mem_cons_self
      · split at hw
        · simp at hw
        · exact List.mem_cons_of_mem _ (ih _ w hw)
  obtain ⟨t, hloop, -, hwrites⟩ := restoreLoop_walks opts (fun _ => .allDone)
    (fun _ => ⟨rfl, .inl rfl, rfl⟩) hfuel [] 0 (s := .start kind data stdin) rfl hlen
    fun k r hk _ => hfits r (hwalked rs stdin (r, true) (List.mem_of_getElem? hk))
  have hreplay : Replayed data (.start kind data stdin) := rfl
  have hend := hreplay.restoreLoop opts (fun _ => .allDone) ([] ++ encodeLog rs) fuel 0
  rw [hloop] at hend
  refine ⟨t, ?_, ?_⟩
  · rw [List.nil_append] at hloop
    rw [doRestore, hloop]
  · rw [hend, hwrites]
    rfl

/-- Both modes agree on a block exactly if the last record of the block has the payload of
the first one. -/
theorem single_agrees_iff {rs : List Record} {n : ℕ}
    (hlen : (encodeLog rs).length ≤ maxLfsFilesize)
    (hraw : ∀ r ∈ rs, r.payldType = snapblockPayloadTypeRaw ∧ r.payload.length = n)
    (kind : DeviceKind) (data stdin : Bytes) (hfits : ∀ r ∈ rs, r.Fits ⟨kind, data, 0⟩)
    {b : UInt64} {earliest : Record} (hb : rs.find? (·.blknr = b) = some earliest)
    {fuel : ℕ} (hfuel : rs.length < fuel) :
    ∃ single all,
      doRestore ⟨false, b, false⟩ (fun _ => .allDone) fuel (encodeLog rs)
        (.start kind data stdin) = some (single, true) ∧
      doRestore ⟨true, 0, false⟩ (fun _ => .allDone) fuel (encodeLog rs)
        (.start kind data stdin) = some (all, true) ∧
      (SingleAgrees n b earliest.payload data single.dev.data all.dev.data ↔
        (payloadsOf b rs).getLast? = some earliest.payload) := by
  have htype : ∀ r ∈ rs, r.payldType = snapblockPayloadTypeRaw := fun r hr => (hraw r hr).1
  have hsize : ∀ r ∈ rs, r.payload.length = n := fun r hr => (hraw r hr).2
  obtain ⟨single, hsingle, hdata⟩ :=
    doRestore_raw hlen ⟨false, b, false⟩ kind data stdin hfits hfuel
  obtain ⟨all, hall, hdata'⟩ := doRestore_raw hlen ⟨true, 0, false⟩ kind data stdin hfits hfuel
  have hblk : earliest.blknr = b := by simpa using List.find?_some hb
  have hmem : earliest ∈ rs := List.mem_of_find?_eq_some hb
  have hone : single.dev.data = overwrite data (b.toNat * n) earliest.payload := by
    rw [hdata, dueWrites_single htype, hb]
    simp [Record.write, hblk, hsize earliest hmem]
  rw [dueWrites_all htype] at hdata'
  refine ⟨single, all, hsingle, hall, ?_⟩
  have hne : payloadsOf b rs ≠ [] :=
    List.ne_nil_of_mem (List.mem_map_of_mem (List.mem_filter.mpr ⟨hmem, by simpa using hblk⟩))
  have hlast : (payloadsOf b rs).getLast? = some ((payloadsOf b rs).getLast hne) :=
    List.getLast?_eq_some_getLast hne
  have hblock := (blockAt_overwriteAll hsize data hlast).1
  constructor
  · intro h
    rw [hlast, ← hblock, ← hdata', h.all_eq]
  · intro h
    rw [hone, hdata']
    refine ⟨blockAt_overwrite_self (hsize earliest hmem), (blockAt_overwriteAll hsize data h).1,
      fun c hc hin => blockAt_overwrite_ne (hsize earliest hmem) hc hin⟩

/-- Block 0 is recorded twice. -/
def repeatedRecords (second : UInt8) : List Record := [.pair 0 1 2, .pair 0 1 second]

theorem repeatedRecords_raw (second : UInt8) : ∀ r ∈ repeatedRecords second,
    r.payldType = snapblockPayloadTypeRaw ∧ r.payload.length = 2 := by
  simp [repeatedRecords, Record.pair, Record.raw]

theorem repeatedRecords_fit (second : UInt8) :
    ∀ r ∈ repeatedRecords second, r.Fits ⟨.block, [0, 0], 0⟩ := by
  have hroom (p : Bytes) (hp : p.length = 2) : p.length ≤ maxRwCount ∧
      Device.HasRoom ⟨.block, [0, 0], 0⟩ 0 (UInt64.ofNat p.length) := by
    rw [hp]
    exact ⟨by decide, by unfold Device.HasRoom; decide⟩
  intro r hr
  simp only [repeatedRecords, List.mem_cons, List.not_mem_nil, or_false] at hr
  rcases hr with rfl | rfl
  · exact hroom [1, 2] rfl
  · exact hroom [1, second] rfl

theorem single_agrees_iff_repeated :
    ∃ single all,
      doRestore ⟨false, 0, false⟩ (fun _ => .allDone) 3 (encodeLog (repeatedRecords 2))
        (.start .block [0, 0] []) = some (single, true) ∧
      doRestore ⟨true, 0, false⟩ (fun _ => .allDone) 3 (encodeLog (repeatedRecords 2))
        (.start .block [0, 0] []) = some (all, true) ∧
      (SingleAgrees 2 0 [1, 2] [0, 0] single.dev.data all.dev.data ↔
        (payloadsOf 0 (repeatedRecords 2)).getLast? = some [1, 2]) := by
  have hfirst : (repeatedRecords 2).find? (·.blknr = 0) = some (.pair 0 1 2) := rfl
  have hfuel : (repeatedRecords 2).length < 3 := by decide
  exact single_agrees_iff (by decide) (repeatedRecords_raw 2) .block [0, 0] []
    (repeatedRecords_fit 2) hfirst hfuel

/-- A second record of the block with another payload undoes the first one. -/
theorem not_single_agrees :
    (doRestore ⟨false, 0, false⟩ (fun _ => .allDone) 3 (encodeLog (repeatedRecords 3))
      (.start .block [0, 0] [])).map (fun r => r.1.dev.data) = some [1, 2] ∧
    (doRestore ⟨true, 0, false⟩ (fun _ => .allDone) 3 (encodeLog (repeatedRecords 3))
      (.start .block [0, 0] [])).map (fun r => r.1.dev.data) = some [1, 3] ∧
    ¬ SingleAgrees 2 0 [1, 2] [0, 0] [1, 2] [1, 3] := by
  refine ⟨by decide +kernel, by decide +kernel, fun h => ?_⟩
  exact absurd h.all_eq (by decide)

end BlkdevSnapshot

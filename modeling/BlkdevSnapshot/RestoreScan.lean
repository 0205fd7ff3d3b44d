import BlkdevSnapshot.LogScan
import BlkdevSnapshot.Restore

/-!
# The restore tool on a log of records

One iteration of the loop of `do_restore` that starts at a complete record. The
file before the record is an explicit prefix, as for the kernel's scan. The
loop rules at the end turn facts about one iteration into facts about the walk.
-/
namespace BlkdevSnapshot

theorem readAt_segment (pre buf post : Bytes) :
    readAt (pre ++ buf ++ post) pre.length buf.length = buf.take maxRwCount := by
  have hmin : min (min buf.length maxRwCount) buf.length = min buf.length maxRwCount := by omega
  rw [readAt, List.append_assoc, List.drop_left, List.take_append_of_le_length (by omega)]
  rcases le_total buf.length maxRwCount with h | h
  · rw [min_eq_left h, List.take_length, List.take_of_length_le h]
  · rw [min_eq_right h]

theorem Record.payldOff_sub_sizeofHdr (r : Record) :
    (r.payldOff - UInt64.ofNat sizeofHdr).toNat = r.ext.length := by
  have h := r.payldOff_toNat
  have hfits := r.fits
  have h40 : (UInt64.ofNat sizeofHdr).toNat = sizeofHdr := rfl
  rw [UInt64.toNat_sub_of_le _ _ (by rw [UInt64.le_iff_toNat_le, h, h40]; omega), h, h40]
  omega

/-- The displacement of `seek_nexthdr`, from the end of the header. -/
theorem Record.seek_nexthdr_displacement (r : Record) :
    (r.payldOff + r.payldsiz - UInt64.ofNat sizeofHdr).toNat + sizeofHdr = r.encode.length := by
  have h := r.payldOff_add_payldsiz
  have hle := r.sizeofHdr_le_encode
  have h40 : (UInt64.ofNat sizeofHdr).toNat = sizeofHdr := rfl
  rw [UInt64.toNat_sub_of_le _ _ (by rw [UInt64.le_iff_toNat_le, h, h40]; exact hle), h, h40]
  omega

/-- The device write for a record whose payload was read. -/
def restorePayload (o : IterOutcomes) (r : Record) (s : RestoreState) :
    RestoreState × RestoreFlow :=
  let dev := s.dev.lseekSet (r.blknr * r.payldsiz)
  let w := dev.write o.devWrite r.payload
  ({ s with dev := w.1 }.emit (.write dev.pos (r.payload.take (w.2.getD 0))),
    if w.2 = some r.payload.length then .next else .exitFailure)

section Record
variable (opts : RestoreOpts) (o : IterOutcomes) {pre post : Bytes} (r : Record) {s : RestoreState}

theorem seekNexthdr_record (hpos : s.snapsPos = pre.length + sizeofHdr)
    (hlen : (pre ++ (r.encode ++ post)).length ≤ maxLfsFilesize) :
    s.seekNexthdr r.hdr = { s with snapsPos := pre.length + r.encode.length } := by
  have hd := r.seek_nexthdr_displacement
  simp only [List.length_append] at hlen
  have hseek := lseekCur_of_le s.snapsPos
    (r.payldOff + r.payldsiz - UInt64.ofNat sizeofHdr) (by omega)
  have hend : s.snapsPos + (r.payldOff + r.payldsiz - UInt64.ofNat sizeofHdr).toNat =
      pre.length + r.encode.length := by omega
  rw [hend] at hseek
  simp only [RestoreState.seekNexthdr, RestoreState.seekSnaps, Record.hdr, hseek]

/-- `__do_restore_rawblocks` just behind the header of a complete record. -/
theorem doRestoreRawblocks_record (hpos : s.snapsPos = pre.length + sizeofHdr)
    (hlen : (pre ++ (r.encode ++ post)).length ≤ maxLfsFilesize) :
    doRestoreRawblocks o (pre ++ (r.encode ++ post)) r.hdr s =
      if o.malloc then
        match o.payloadRead.count (min r.payload.length maxRwCount) with
        | none => ({ s with snapsPos := pre.length + r.encode.length }, .next)
        | some k =>
          if k = r.payload.length then
            restorePayload o r { s with snapsPos := pre.length + r.encode.length }
          else ({ s with snapsPos := pre.length + sizeofHdr + r.ext.length + k }, .exitFailure)
      else ({ s with snapsPos := pre.length + r.encode.length }, .next) := by
  have henc := r.encode_length
  simp only [List.length_append] at hlen
  have hoff := r.payldOff_sub_sizeofHdr
  have hseek := lseekCur_of_le s.snapsPos (r.payldOff - UInt64.ofNat sizeofHdr)
    (by rw [hoff]; omega)
  have hpay := lseekCur_of_le (pre.length + sizeofHdr + r.ext.length) r.payldsiz
    (by rw [r.payldsiz_toNat]; omega)
  have hend : pre.length + sizeofHdr + r.ext.length + r.payload.length =
      pre.length + r.encode.length := by omega
  have hsize : ¬ 2 ^ 63 ≤ r.payload.length := not_le.mpr r.payload_length_lt
  have hread : readAt (pre ++ (r.encode ++ post)) (pre.length + sizeofHdr + r.ext.length)
      r.payload.length = r.payload.take maxRwCount := by
    have h := readAt_segment (pre ++ (r.hdr.toBytes ++ r.ext)) r.payload post
    simpa [Record.encode, Nat.add_assoc] using h
  have htake (k : ℕ) (hk : k = r.payload.length) (hle : k ≤ min r.payload.length maxRwCount) :
      (r.payload.take maxRwCount).take k = r.payload := by
    rw [List.take_take, min_eq_left (by omega), hk, List.take_length]
  rw [hpos, hoff] at hseek
  rw [r.payldsiz_toNat, hend] at hpay
  unfold doRestoreRawblocks
  simp only [RestoreState.seekSnaps, Record.hdr, hpos, hseek, hpay, r.payldsiz_toNat, hsize,
    decide_false, Bool.or_false, Bool.not_eq_true', sysRead, hread, List.length_take]
  cases o.malloc with
  | false => simp
  | true =>
    rw [Nat.min_comm maxRwCount]
    cases hcount : o.payloadRead.count (min r.payload.length maxRwCount) with
    | none => simp
    | some k =>
      have hk := IoOutcome.count_le hcount
      have hbuf : ((r.payload.take maxRwCount).take k).length = k := by
        rw [List.length_take, List.length_take]; omega
      by_cases hfull : k = r.payload.length
      · rw [Option.map_some, htake k hfull hk]
        simp [hfull, restorePayload, Nat.add_assoc]
      · simp [hfull, hbuf]

/-- One iteration at a place that starts with a header. -/
theorem restoreIter_header (h : SnapblockFileHdr) (hmagic : h.magic = snapblockMagic)
    (hpos : s.snapsPos = pre.length) :
    restoreIter opts o (pre ++ (h.toBytes ++ post)) s =
      if o.headerRead.count sizeofHdr = some sizeofHdr then
        restoreRecord opts o (pre ++ (h.toBytes ++ post)) h
          ({ s with snapsPos := pre.length + sizeofHdr }.emit (.header pre.length h))
      else ({ s with snapsPos := pre.length + (o.headerRead.count sizeofHdr).getD 0 }, .leave) := by
  unfold restoreIter
  rw [hpos, sysRead, readAt_header, h.toBytes_length]
  cases hcount : o.headerRead.count sizeofHdr with
  | none => simp [← hpos]
  | some k =>
    have hk := IoOutcome.count_le hcount
    by_cases hfull : k = sizeofHdr
    · have htake : h.toBytes.take k = h.toBytes := by
        rw [hfull, ← h.toBytes_length, List.take_length]
      rw [Option.map_some, htake, hfull]
      simp [hmagic]
    · have hshort : (h.toBytes.take k).length = k := by
        rw [List.length_take, h.toBytes_length, min_eq_left hk]
      rw [Option.map_some, if_neg (by simpa using hfull)]
      simp [hshort, hfull]

/-- One iteration at the start of a complete record. -/
theorem restoreIter_record (hpos : s.snapsPos = pre.length) :
    restoreIter opts o (pre ++ (r.encode ++ post)) s =
      if o.headerRead.count sizeofHdr = some sizeofHdr then
        restoreRecord opts o (pre ++ (r.encode ++ post)) r.hdr
          ({ s with snapsPos := pre.length + sizeofHdr }.emit (.header pre.length r.hdr))
      else ({ s with snapsPos := pre.length + (o.headerRead.count sizeofHdr).getD 0 }, .leave) := by
  have hfile : pre ++ (r.encode ++ post) =
      pre ++ (r.hdr.toBytes ++ (r.ext ++ r.payload ++ post)) := by
    simp [Record.encode]
  rw [hfile]
  exact restoreIter_header opts o r.hdr rfl hpos

end Record

section Body
variable {opts : RestoreOpts} {s : RestoreState}

theorem askUser_fst (h : SnapblockFileHdr) :
    (askUser opts h s).1 = !(opts.ask && !isYes (fgets 10 s.stdin).1) := by
  cases ha : opts.ask <;> simp [askUser, ha]

theorem askUser_snapsPos (h : SnapblockFileHdr) : (askUser opts h s).2.snapsPos = s.snapsPos := by
  cases ha : opts.ask <;> simp [askUser, ha, RestoreState.emit]

theorem askUser_stdin (h : SnapblockFileHdr) :
    (askUser opts h s).2.stdin = if opts.ask then (fgets 10 s.stdin).2 else s.stdin := by
  cases ha : opts.ask <;> simp [askUser, ha, RestoreState.emit]

end Body

/-- The three ways through the loop body, with the answer of the user spelled out. -/
theorem restoreRecord_eq (opts : RestoreOpts) (o : IterOutcomes) (snaps : Bytes)
    (h : SnapblockFileHdr) (s : RestoreState) :
    restoreRecord opts o snaps h s =
      if !opts.restoreAll && opts.restoreOnlyBlknum != h.blknr then (s.seekNexthdr h, .next)
      else if opts.ask && !isYes (fgets 10 s.stdin).1 then
        ((askUser opts h s).2.seekNexthdr h, .next)
      else if (restoreByType o snaps h (askUser opts h s).2).2 = .next ∧ opts.restoreAll = false
      then ((restoreByType o snaps h (askUser opts h s).2).1, .leave)
      else restoreByType o snaps h (askUser opts h s).2 := by
  simp only [restoreRecord, askUser_fst, Bool.not_not]
  by_cases hsel : (!opts.restoreAll && opts.restoreOnlyBlknum != h.blknr) = true
  · rw [if_pos hsel, if_pos hsel]
  · rw [if_neg hsel, if_neg hsel]
    have hlast : (!opts.restoreAll && opts.restoreOnlyBlknum == h.blknr) = true ↔
        opts.restoreAll = false := by
      cases hall : opts.restoreAll with
      | true => simp
      | false => simpa [hall] using hsel
    simp only [hlast]

/-- Restore-all, no-ask mode. -/
structure RestoreOpts.All (opts : RestoreOpts) : Prop where
  restoreAll : opts.restoreAll = true
  ask : opts.ask = false

/-- What one iteration at a complete record does in restore-all, no-ask mode. -/
inductive RestoreEffect (o : IterOutcomes) (r : Record) (s s' : RestoreState) :
    RestoreFlow → Prop where
  | cut (hdev : s'.dev = s.dev) (hlog : s'.log = s.log) : RestoreEffect o r s s' .leave
  | passed (hpos : s'.snapsPos = s.snapsPos + r.encode.length) (hdev : s'.dev = s.dev)
      (hlog : s'.log = s.log ++ [.header s.snapsPos r.hdr]) : RestoreEffect o r s s' .next
  | torn (hdev : s'.dev = s.dev) (hlog : s'.log = s.log ++ [.header s.snapsPos r.hdr]) :
      RestoreEffect o r s s' .exitFailure
  | wrote (flow : RestoreFlow) (hpos : s'.snapsPos = s.snapsPos + r.encode.length)
      (hdev : s'.dev = ((s.dev.lseekSet (r.blknr * r.payldsiz)).write o.devWrite r.payload).1)
      (hlog : s'.log = s.log ++ [.header s.snapsPos r.hdr,
        .write (s.dev.lseekSet (r.blknr * r.payldsiz)).pos
          (r.payload.take (((s.dev.lseekSet (r.blknr * r.payldsiz)).write o.devWrite
            r.payload).2.getD 0))])
      (hflow : flow = if ((s.dev.lseekSet (r.blknr * r.payldsiz)).write o.devWrite r.payload).2 =
        some r.payload.length then .next else .exitFailure) : RestoreEffect o r s s' flow

theorem restoreRecord_all {opts : RestoreOpts} (hopts : opts.All) (o : IterOutcomes)
    (snaps : Bytes) (h : SnapblockFileHdr) (s : RestoreState) :
    restoreRecord opts o snaps h s = restoreByType o snaps h s := by
  simp [restoreRecord, askUser, hopts.restoreAll, hopts.ask]

theorem restoreIter_effect {opts : RestoreOpts} (hopts : opts.All) (o : IterOutcomes)
    {pre post : Bytes} (r : Record) {s : RestoreState} (hpos : s.snapsPos = pre.length)
    (hlen : (pre ++ (r.encode ++ post)).length ≤ maxLfsFilesize) :
    RestoreEffect o r s (restoreIter opts o (pre ++ (r.encode ++ post)) s).1
      (restoreIter opts o (pre ++ (r.encode ++ post)) s).2 := by
  rw [restoreIter_record opts o r hpos]
  by_cases hread : o.headerRead.count sizeofHdr = some sizeofHdr
  · have hafter : ({ s with snapsPos := pre.length + sizeofHdr }.emit
        (.header pre.length r.hdr) : RestoreState).snapsPos = pre.length + sizeofHdr := rfl
    have hlog : s.log ++ [.header pre.length r.hdr] = s.log ++ [.header s.snapsPos r.hdr] := by
      rw [hpos]
    have hskip : RestoreEffect o r s { s with
        snapsPos := pre.length + r.encode.length
        log := s.log ++ [.header pre.length r.hdr] } .next := .passed (by rw [hpos]) rfl hlog
    rw [if_pos hread, restoreRecord_all hopts, restoreByType]
    by_cases hraw : r.hdr.payldType = snapblockPayloadTypeRaw
    · rw [if_pos hraw, doRestoreRawblocks_record o r hafter hlen]
      cases o.malloc with
      | false => exact hskip
      | true =>
        simp only [if_true]
        cases o.payloadRead.count (min r.payload.length maxRwCount) with
        | none => exact hskip
        | some k =>
          by_cases hfull : k = r.payload.length
          · simp only [hfull, if_true]
            refine .wrote _ (by simp [hpos, restorePayload, RestoreState.emit]) rfl ?_ rfl
            simp [restorePayload, RestoreState.emit, hpos]
          · simp only [hfull, if_false]
            exact .torn rfl hlog
    · rw [if_neg hraw, seekNexthdr_record r hafter hlen]
      exact hskip
  · rw [if_neg hread]
    exact .cut rfl rfl

/-- On a healthy system a raw record that fits in one transfer is written to the device. -/
theorem restoreIter_done {opts : RestoreOpts} (hopts : opts.All) {pre post : Bytes} (r : Record)
    {s : RestoreState} (hpos : s.snapsPos = pre.length)
    (hlen : (pre ++ (r.encode ++ post)).length ≤ maxLfsFilesize)
    (hraw : r.payldType = snapblockPayloadTypeRaw) (hrw : r.payload.length ≤ maxRwCount) :
    restoreIter opts .allDone (pre ++ (r.encode ++ post)) s =
      restorePayload .allDone r ({ s with snapsPos := pre.length + r.encode.length }.emit
        (.header pre.length r.hdr)) := by
  have hafter : ({ s with snapsPos := pre.length + sizeofHdr }.emit
      (.header pre.length r.hdr) : RestoreState).snapsPos = pre.length + sizeofHdr := rfl
  have htype : r.hdr.payldType = snapblockPayloadTypeRaw := hraw
  have hcount : IoOutcome.done.count (min r.payload.length maxRwCount) = some r.payload.length := by
    rw [min_eq_left hrw]
    rfl
  have hread : IterOutcomes.allDone.headerRead.count sizeofHdr = some sizeofHdr := rfl
  rw [restoreIter_record opts .allDone r hpos, if_pos hread, restoreRecord_all hopts,
    restoreByType, if_pos htype, doRestoreRawblocks_record .allDone r hafter hlen]
  simp only [IterOutcomes.allDone, hcount, if_true]
  rfl

/-- Where fewer than 40 bytes are left the loop ends. -/
theorem restoreIter_eof (opts : RestoreOpts) (o : IterOutcomes) {snaps : Bytes} {s : RestoreState}
    (h : snaps.length < s.snapsPos + sizeofHdr) :
    ∃ pos, restoreIter opts o snaps s = ({ s with snapsPos := pos }, .leave) := by
  have hlen := readAt_length_le snaps s.snapsPos sizeofHdr
  unfold restoreIter sysRead
  cases hcount : o.headerRead.count (readAt snaps s.snapsPos sizeofHdr).length with
  | none => exact ⟨s.snapsPos, rfl⟩
  | some k =>
    have hshort : ((readAt snaps s.snapsPos sizeofHdr).take k).length ≠ sizeofHdr := by
      simp only [sizeofHdr] at h hlen
      rw [List.length_take]
      simp only [sizeofHdr]
      omega
    simp only [Option.map_some]
    rw [if_pos (.inl hshort)]
    exact ⟨_, rfl⟩

section Device
variable {d : Device}

/-- A block on the device is found at its offset. -/
theorem Device.lseekSet_block {b n : UInt64} (h : b.toNat * n.toNat ≤ d.data.length)
    (hsize : d.data.length ≤ maxLfsFilesize) :
    d.lseekSet (b * n) = { d with pos := b.toNat * n.toNat } := by
  simp only [maxLfsFilesize] at hsize
  have hmul : (b * n).toNat = b.toNat * n.toNat := by
    rw [UInt64.toNat_mul, Nat.mod_eq_of_lt (by omega)]
  have hoff : loff (b * n) = ((b.toNat * n.toNat : ℕ) : ℤ) := by
    rw [loff_of_lt (by omega), hmul]
  have hin : ¬ (loff (b * n) < 0 ∨ (d.kind = .block ∧ (d.data.length : ℤ) < loff (b * n))) := by
    rw [hoff]
    omega
  rw [Device.lseekSet, if_neg hin, hoff, Int.toNat_natCast]

/-- A write puts a prefix of the buffer at the offset. -/
theorem Device.write_prefix (o : IoOutcome) (buf : Bytes) :
    ∃ k ≤ buf.length, ((d.write o buf).2.getD 0 = k) ∧
      (d.write o buf).1.data = overwrite d.data d.pos (buf.take k) ∧
      (d.write o buf).1.kind = d.kind := by
  unfold Device.write
  cases hcount : o.count (min buf.length (min maxRwCount d.room)) with
  | none => exact ⟨0, by simp⟩
  | some k =>
    have hk := IoOutcome.count_le hcount
    exact ⟨k, by omega, rfl, rfl, rfl⟩

theorem Device.write_done {buf : Bytes} (h : d.pos + buf.length ≤ d.data.length)
    (hsize : d.data.length ≤ maxLfsFilesize) (hrw : buf.length ≤ maxRwCount) :
    d.write .done buf =
      ({ d with data := overwrite d.data d.pos buf, pos := d.pos + buf.length },
        some buf.length) := by
  have hroom : buf.length ≤ d.room := by
    unfold Device.room
    split <;> omega
  have hmin : min buf.length (min maxRwCount d.room) = buf.length := by omega
  simp [Device.write, IoOutcome.count, hmin]

end Device

/-- The block of a record lies on a device of `size` bytes. -/
def Record.OnDevice (r : Record) (size : ℕ) : Prop :=
  (r.blknr.toNat + 1) * r.payload.length ≤ size

theorem Record.OnDevice.end_le {r : Record} {size : ℕ} (h : r.OnDevice size) :
    r.blknr.toNat * r.payload.length + r.payload.length ≤ size := by
  rw [← Nat.succ_mul]
  exact h

theorem Record.OnDevice.lseekSet {r : Record} {d : Device} (h : r.OnDevice d.data.length)
    (hsize : d.data.length ≤ maxLfsFilesize) :
    d.lseekSet (r.blknr * r.payldsiz) =
      { d with pos := r.blknr.toNat * r.payload.length } := by
  have hend := h.end_le
  rw [Device.lseekSet_block (by rw [r.payldsiz_toNat]; omega) hsize, r.payldsiz_toNat]

/-- Restoring a record whose block lies on the device writes exactly that block. -/
theorem restorePayload_done {r : Record} {s : RestoreState} (h : r.OnDevice s.dev.data.length)
    (hsize : s.dev.data.length ≤ maxLfsFilesize) (hrw : r.payload.length ≤ maxRwCount) :
    restorePayload .allDone r s =
      ({ s with dev := { s.dev with
          data := overwrite s.dev.data (r.blknr.toNat * r.payload.length) r.payload
          pos := r.blknr.toNat * r.payload.length + r.payload.length } }.emit
        (.write (r.blknr.toNat * r.payload.length) r.payload), .next) := by
  let d : Device := { s.dev with pos := r.blknr.toNat * r.payload.length }
  have hw : d.write .done r.payload = _ := Device.write_done h.end_le hsize hrw
  simp only [restorePayload, h.lseekSet hsize, IterOutcomes.allDone, hw, d]
  simp

section Loop
variable (opts : RestoreOpts) (outs : ℕ → IterOutcomes) {snaps : Bytes}

/-- The loop rule: every iteration keeps `Q`, and one that does not end the loop
keeps `A` and makes the measure smaller. -/
theorem restoreLoop_ends {Q A : RestoreState → Prop} {μ : RestoreState → ℕ}
    (hstep : ∀ i s, Q s → A s → Q (restoreIter opts (outs i) snaps s).1 ∧
      ((restoreIter opts (outs i) snaps s).2 = .next →
        A (restoreIter opts (outs i) snaps s).1 ∧ μ (restoreIter opts (outs i) snaps s).1 < μ s))
    (n i : ℕ) {s : RestoreState} (hQ : Q s) (hA : A s) (hn : μ s < n) :
    Q (restoreLoop opts outs snaps n i s).1 ∧ (restoreLoop opts outs snaps n i s).2 ≠ .next := by
  induction n generalizing i s with
  | zero => omega
  | succ n ih =>
    obtain ⟨hQ', hnext⟩ := hstep i s hQ hA
    unfold restoreLoop
    cases hiter : restoreIter opts (outs i) snaps s with
    | mk s' flow =>
      rw [hiter] at hQ' hnext
      cases flow with
      | next =>
        obtain ⟨hA', hμ⟩ := hnext rfl
        have hlt : μ s' < μ s := hμ
        exact ih (i + 1) hQ' hA' (by omega)
      | leave => exact ⟨hQ', by simp⟩
      | exitFailure => exact ⟨hQ', by simp⟩

/-- A loop that has ended is not changed by more iterations. -/
theorem restoreLoop_mono {n m : ℕ} (hnm : n ≤ m) (i : ℕ) {s : RestoreState}
    (h : (restoreLoop opts outs snaps n i s).2 ≠ .next) :
    restoreLoop opts outs snaps m i s = restoreLoop opts outs snaps n i s := by
  induction n generalizing m i s with
  | zero => exact absurd rfl h
  | succ n ih =>
    obtain ⟨m, rfl⟩ : ∃ k, m = k + 1 := ⟨m - 1, by omega⟩
    unfold restoreLoop at h ⊢
    cases hiter : restoreIter opts (outs i) snaps s with
    | mk s' flow =>
      rw [hiter] at h
      cases flow with
      | next => exact ih (by omega) (i + 1) h
      | leave => rfl
      | exitFailure => rfl

theorem restoreLoop_add {n m i : ℕ} {s s' : RestoreState}
    (h : restoreLoop opts outs snaps n i s = (s', .next)) :
    restoreLoop opts outs snaps (n + m) i s = restoreLoop opts outs snaps m (i + n) s' := by
  induction n generalizing i s with
  | zero =>
    obtain rfl : s = s' := congrArg Prod.fst h
    rw [Nat.zero_add, Nat.add_zero]
  | succ n ih =>
    rw [Nat.succ_add]
    simp only [restoreLoop] at h ⊢
    cases hiter : restoreIter opts (outs i) snaps s with
    | mk t flow =>
      rw [hiter] at h
      cases flow with
      | next =>
        have hcount : i + (n + 1) = i + 1 + n := by omega
        rw [hcount]
        exact ih h
      | leave => simp at h
      | exitFailure => simp at h

/-- The walk rule: when the iteration at every record goes on to the next record
and keeps a property of the records passed, so does the walk over all of them. -/
theorem restoreLoop_walk {rs : List Record} {tail : Bytes} {P : List Record → RestoreState → Prop}
    (hstep : ∀ as r bs i s, rs = as ++ r :: bs → s.snapsPos = (encodeLog as).length → P as s →
      ∃ s', restoreIter opts (outs i) (encodeLog rs ++ tail) s = (s', .next) ∧
        s'.snapsPos = (encodeLog (as ++ [r])).length ∧ P (as ++ [r]) s')
    {s : RestoreState} (hpos : s.snapsPos = 0) (h : P [] s) :
    ∃ s', restoreLoop opts outs (encodeLog rs ++ tail) rs.length 0 s = (s', .next) ∧
      s'.snapsPos = (encodeLog rs).length ∧ P rs s' := by
  suffices hrest : ∀ bs as i s, rs = as ++ bs → s.snapsPos = (encodeLog as).length → P as s →
      ∃ s', restoreLoop opts outs (encodeLog rs ++ tail) bs.length i s = (s', .next) ∧
        s'.snapsPos = (encodeLog rs).length ∧ P rs s' from hrest rs [] 0 s rfl hpos h
  intro bs
  induction bs with
  | nil =>
    intro as i s hrs hs hP
    rw [List.append_nil] at hrs
    exact ⟨s, rfl, by rw [hrs]; exact hs, hrs ▸ hP⟩
  | cons r bs ih =>
    intro as i s hrs hs hP
    obtain ⟨t, hiter, ht, hPt⟩ := hstep as r bs i s hrs hs hP
    obtain ⟨s', hloop, hs', hPs'⟩ := ih (as ++ [r]) (i + 1) t (by simpa using hrs) ht hPt
    refine ⟨s', ?_, hs', hPs'⟩
    rw [List.length_cons, restoreLoop, hiter]
    exact hloop

/-- Enough iterations give the result of `do_restore`. -/
theorem doRestore_of_stops {n fuel : ℕ} (hn : n ≤ fuel) {s : RestoreState}
    (h : (restoreLoop opts outs snaps n 0 s).2 ≠ .next) :
    doRestore opts outs fuel snaps s = some ((restoreLoop opts outs snaps n 0 s).1,
      (restoreLoop opts outs snaps n 0 s).2 == .leave) := by
  rw [doRestore, restoreLoop_mono opts outs hn 0 h]
  cases hloop : restoreLoop opts outs snaps n 0 s with
  | mk s' flow =>
    rw [hloop] at h
    cases flow with
    | next => exact absurd rfl h
    | leave => rfl
    | exitFailure => rfl

end Loop

/-- On a healthy system the walk reads the header of every complete record at the
start of the file, when the device holds their blocks. -/
theorem restoreLoop_visits {opts : RestoreOpts} (hopts : opts.All) {rs : List Record} {tail : Bytes}
    (hlen : (encodeLog rs ++ tail).length ≤ maxLfsFilesize)
    (hraw : ∀ r ∈ rs, r.payldType = snapblockPayloadTypeRaw ∧ r.payload.length ≤ maxRwCount)
    (kind : DeviceKind) {data : Bytes} (stdin : Bytes) (hsize : data.length ≤ maxLfsFilesize)
    (hdev : ∀ r ∈ rs, r.OnDevice data.length) {as bs : List Record} {r : Record}
    (hrs : rs = as ++ r :: bs) :
    .header (encodeLog as).length r.hdr ∈ (restoreLoop opts (fun _ => .allDone)
      (encodeLog rs ++ tail) rs.length 0 (.start kind data stdin)).1.log := by
  let P : List Record → RestoreState → Prop := fun done s => s.dev.data.length = data.length ∧
    ∀ as q bs, done = as ++ q :: bs → .header (encodeLog as).length q.hdr ∈ s.log
  have hstart : P [] (.start kind data stdin) := ⟨rfl, by simp⟩
  have hstep : ∀ done q todo (i : ℕ) (s : RestoreState), rs = done ++ q :: todo →
      s.snapsPos = (encodeLog done).length → P done s →
      ∃ s', restoreIter opts .allDone (encodeLog rs ++ tail) s = (s', .next) ∧
        s'.snapsPos = (encodeLog (done ++ [q])).length ∧ P (done ++ [q]) s' := by
    intro done q todo i s hsplit hpos ⟨hdata, hlog⟩
    have hq : q ∈ rs := by simp [hsplit]
    have hfile : encodeLog rs ++ tail =
        encodeLog done ++ (q.encode ++ (encodeLog todo ++ tail)) := by
      simp [hsplit]
    have hon := hdev q hq
    have hend := hon.end_le
    rw [← hdata] at hon hend hsize
    rw [hfile] at hlen ⊢
    rw [restoreIter_done hopts q hpos hlen (hraw q hq).1 (hraw q hq).2]
    refine ⟨_, restorePayload_done hon hsize (hraw q hq).2, by simp [RestoreState.emit], ?_, ?_⟩
    · rw [← hdata]
      exact overwrite_length hend
    · intro as' q' bs' hdone
      rcases List.eq_nil_or_concat bs' with rfl | ⟨bs'', x, rfl⟩
      · obtain ⟨rfl, hqq⟩ := List.append_inj' hdone rfl
        obtain rfl : q = q' := by simpa using hqq
        simp [RestoreState.emit]
      · have hcut : done = as' ++ q' :: bs'' := by
          rw [List.concat_eq_append, ← List.cons_append, ← List.append_assoc] at hdone
          exact (List.append_inj' hdone rfl).1
        simp [RestoreState.emit, hlog as' q' bs'' hcut]
  obtain ⟨s', hloop, -, -, hlog⟩ := restoreLoop_walk opts (fun _ => .allDone) hstep rfl hstart
  rw [hloop]
  exact hlog as r bs hrs

end BlkdevSnapshot

import BlkdevSnapshot.ReadersEnd
import BlkdevSnapshot.RestoreInPlace

/-!
# Restoring a truncated log

A log that is cut at any byte consists of whole records and a proper prefix of the
next one. The iterations over the whole records cannot tell what follows them; at the
cut record the tool ends, or passes the end of the file, without putting a byte on the
device. Both hold for every selection, every answer and every outcome of the calls.
-/
namespace BlkdevSnapshot

/-- The records that lie within the first `cut` bytes of their log. -/
def wholeRecords : List Record → ℕ → List Record
  | [], _ => []
  | r :: rs, cut =>
    if r.encode.length ≤ cut then r :: wholeRecords rs (cut - r.encode.length) else []

/-- The writes that put bytes on the device. -/
def bytesWritten (log : List RestoreEvent) : List (ℕ × Bytes) :=
  (writesDone log).filter (·.2 ≠ [])

/-- What a cut leaves of the record behind the first `start` bytes of a log of `size` bytes. -/
def CutRecord (start size : ℕ) (tail : Bytes) : Prop :=
  tail = [] ∨ ∃ (r : Record) (k : ℕ), k < r.encode.length ∧ tail = r.encode.take k ∧
    start + r.encode.length ≤ size

theorem wholeRecords_length_le (rs : List Record) (cut : ℕ) :
    (wholeRecords rs cut).length ≤ rs.length := by
  induction rs generalizing cut with
  | nil => rfl
  | cons r rs ih =>
    rw [wholeRecords]
    split
    · exact Nat.succ_le_succ (ih _)
    · exact Nat.zero_le _

/-- The first bytes of a log are its whole records and what is left of the next one. -/
theorem take_encodeLog (rs : List Record) (cut : ℕ) :
    ∃ tail, (encodeLog rs).take cut = encodeLog (wholeRecords rs cut) ++ tail ∧
      CutRecord (encodeLog (wholeRecords rs cut)).length (encodeLog rs).length tail := by
  induction rs generalizing cut with
  | nil => exact ⟨[], by simp [wholeRecords], .inl rfl⟩
  | cons r rs ih =>
    rw [wholeRecords]
    by_cases hr : r.encode.length ≤ cut
    · obtain ⟨tail, htake, htail⟩ := ih (cut - r.encode.length)
      refine ⟨tail, ?_, ?_⟩
      · rw [if_pos hr, encodeLog_cons, encodeLog_cons, List.take_append,
          List.take_of_length_le hr, htake, List.append_assoc]
      · rw [if_pos hr]
        apply htail.imp_right
        rintro ⟨q, k, hk, hq, hsize⟩
        refine ⟨q, k, hk, hq, ?_⟩
        simp only [encodeLog_cons, List.length_append]
        omega
    · refine ⟨r.encode.take cut, ?_, .inr ⟨r, cut, by omega, rfl, ?_⟩⟩
      · rw [if_neg hr, encodeLog_cons, List.take_append_of_le_length (by omega), encodeLog_nil,
          List.nil_append]
      · rw [if_neg hr, encodeLog_nil, encodeLog_cons, List.length_append]
        simp

section Whole
variable (opts : RestoreOpts) (o : IterOutcomes) {pre post post' : Bytes} (r : Record)
  {s t : RestoreState}

/-- What follows a whole record makes no difference behind its header. -/
theorem restoreByType_post (hpos : s.snapsPos = pre.length + sizeofHdr)
    (hlen : (pre ++ (r.encode ++ post)).length ≤ maxLfsFilesize)
    (hlen' : (pre ++ (r.encode ++ post')).length ≤ maxLfsFilesize) :
    restoreByType o (pre ++ (r.encode ++ post)) r.hdr s =
      restoreByType o (pre ++ (r.encode ++ post')) r.hdr s := by
  unfold restoreByType
  rw [doRestoreRawblocks_record o r hpos hlen, doRestoreRawblocks_record o r hpos hlen']

/-- An iteration at a whole record does not depend on what follows it. -/
theorem restoreIter_post (hpos : s.snapsPos = pre.length)
    (hlen : (pre ++ (r.encode ++ post)).length ≤ maxLfsFilesize)
    (hlen' : (pre ++ (r.encode ++ post')).length ≤ maxLfsFilesize) :
    restoreIter opts o (pre ++ (r.encode ++ post)) s =
      restoreIter opts o (pre ++ (r.encode ++ post')) s := by
  let u : RestoreState :=
    { s with snapsPos := pre.length + sizeofHdr }.emit (.header pre.length r.hdr)
  have hasked : (askUser opts r.hdr u).2.snapsPos = pre.length + sizeofHdr := askUser_snapsPos _
  rw [restoreIter_record opts o r hpos, restoreIter_record opts o r hpos, restoreRecord_eq,
    restoreRecord_eq, restoreByType_post o r hasked hlen hlen']

/-- Behind the header of a whole record the tool goes on only at the next record. -/
theorem restoreByType_record_next (hpos : s.snapsPos = pre.length + sizeofHdr)
    (hlen : (pre ++ (r.encode ++ post)).length ≤ maxLfsFilesize)
    (hnext : restoreByType o (pre ++ (r.encode ++ post)) r.hdr s = (t, .next)) :
    t.snapsPos = pre.length + r.encode.length := by
  unfold restoreByType at hnext
  split at hnext
  · rw [doRestoreRawblocks_record o r hpos hlen] at hnext
    split at hnext
    · split at hnext
      · obtain ⟨rfl, -⟩ := Prod.mk.inj hnext
        rfl
      · split at hnext
        · obtain ⟨rfl, -⟩ := Prod.mk.inj hnext
          rfl
        · simp at hnext
    · obtain ⟨rfl, -⟩ := Prod.mk.inj hnext
      rfl
  · rw [seekNexthdr_record r hpos hlen] at hnext
    obtain ⟨rfl, -⟩ := Prod.mk.inj hnext
    rfl

/-- An iteration at a whole record goes on only at the next record. -/
theorem restoreIter_record_next (hpos : s.snapsPos = pre.length)
    (hlen : (pre ++ (r.encode ++ post)).length ≤ maxLfsFilesize)
    (hnext : restoreIter opts o (pre ++ (r.encode ++ post)) s = (t, .next)) :
    t.snapsPos = pre.length + r.encode.length := by
  let u : RestoreState :=
    { s with snapsPos := pre.length + sizeofHdr }.emit (.header pre.length r.hdr)
  have hasked : (askUser opts r.hdr u).2.snapsPos = pre.length + sizeofHdr := askUser_snapsPos _
  rw [restoreIter_record opts o r hpos] at hnext
  split at hnext
  · rw [restoreRecord_eq] at hnext
    split at hnext
    · rw [seekNexthdr_record r rfl hlen] at hnext
      obtain ⟨rfl, -⟩ := Prod.mk.inj hnext
      rfl
    · split at hnext
      · rw [seekNexthdr_record r hasked hlen] at hnext
        obtain ⟨rfl, -⟩ := Prod.mk.inj hnext
        rfl
      · split at hnext
        · simp at hnext
        · exact restoreByType_record_next o r hasked hlen hnext
  · simp at hnext

end Whole

/-- What one iteration has done that went past the end of a cut record or ended there. -/
structure PutsNothing (size : ℕ) (s t : RestoreState) (flow : RestoreFlow) : Prop where
  data : t.dev.data = s.dev.data
  bytes : bytesWritten t.log = bytesWritten s.log
  past : flow = .next → size ≤ t.snapsPos

section Cut
variable {opts : RestoreOpts} {o : IterOutcomes} {pre : Bytes} {r : Record} {s : RestoreState}
  {size : ℕ}

/-- The question before an iteration goes on puts nothing on the device either. -/
theorem PutsNothing.of_askUser {hdr : SnapblockFileHdr} {t : RestoreState} {flow : RestoreFlow}
    (h : PutsNothing size (askUser opts hdr s).2 t flow) : PutsNothing size s t flow where
  data := h.data.trans (congrArg Device.data (askUser_dev hdr))
  bytes := by rw [h.bytes, bytesWritten, writesDone_askUser, bytesWritten]
  past := h.past

/-- Writing an empty buffer does nothing to the bytes of a device. -/
theorem Device.write_empty (d : Device) (o : IoOutcome) : (d.write o []).1.data = d.data := by
  obtain ⟨k, -, -, hdata, -⟩ := Device.write_prefix (d := d) o []
  rw [hdata, List.take_nil, overwrite_nil]

/-- `__do_restore_rawblocks` behind the header of a record that is cut somewhere behind it.
A payload that is there in full is empty. -/
theorem doRestoreRawblocks_cut (o : IterOutcomes) (snaps : Bytes)
    (hpos : s.snapsPos = pre.length + sizeofHdr)
    (hend : pre.length + r.encode.length ≤ maxLfsFilesize)
    (hcut : snaps.length < pre.length + r.encode.length) :
    PutsNothing snaps.length s (doRestoreRawblocks o snaps r.hdr s).1
      (doRestoreRawblocks o snaps r.hdr s).2 := by
  have henc := r.encode_length
  have hoff := r.payldOff_sub_sizeofHdr
  have hseek := lseekCur_of_le s.snapsPos (r.payldOff - UInt64.ofNat sizeofHdr)
    (by rw [hoff]; omega)
  have hpay := lseekCur_of_le (pre.length + sizeofHdr + r.ext.length) r.payldsiz
    (by rw [r.payldsiz_toNat]; omega)
  have hsize : ¬ 2 ^ 63 ≤ r.payload.length := not_le.mpr r.payload_length_lt
  rw [hpos, hoff] at hseek
  rw [r.payldsiz_toNat] at hpay
  have hskip : PutsNothing snaps.length s
      { s with snapsPos := pre.length + sizeofHdr + r.ext.length + r.payload.length } .next :=
    ⟨rfl, rfl, fun _ => by simp only; omega⟩
  unfold doRestoreRawblocks
  simp only [RestoreState.seekSnaps, Record.hdr, hpos, hseek, hpay, r.payldsiz_toNat, hsize,
    decide_false, Bool.or_false, Bool.not_eq_true']
  by_cases hmalloc : o.malloc = false
  · rw [if_pos hmalloc]
    exact hskip
  · rw [if_neg hmalloc]
    cases hread : sysRead o.payloadRead snaps (pre.length + sizeofHdr + r.ext.length)
        r.payload.length with
    | none => exact hskip
    | some buf =>
      by_cases hfull : buf.length = r.payload.length
      · have hempty : buf = [] := by
          have hle := readAt_length_le snaps (pre.length + sizeofHdr + r.ext.length)
            r.payload.length
          rw [← sysRead_full hread hfull] at hle
          exact List.eq_nil_of_length_eq_zero (by omega)
        subst hempty
        simp only [hfull, ne_eq, not_true_eq_false, if_false]
        refine ⟨?_, ?_, fun _ => ?_⟩
        · exact (Device.write_empty _ _).trans (Device.lseekSet_data _ _).1
        · simp [RestoreState.emit, bytesWritten, writesDone]
        · simp only [RestoreState.emit, List.length_nil] at hfull ⊢
          omega
      · simp only [hfull, ne_eq, not_false_eq_true, if_true]
        exact ⟨rfl, rfl, by simp⟩

/-- The seek over the rest of a cut record goes past the end of the file. -/
theorem seekNexthdr_cut (snaps : Bytes) (hpos : s.snapsPos = pre.length + sizeofHdr)
    (hend : pre.length + r.encode.length ≤ maxLfsFilesize)
    (hcut : snaps.length < pre.length + r.encode.length) :
    PutsNothing snaps.length s (s.seekNexthdr r.hdr) .next := by
  have hwhole : (pre ++ (r.encode ++ [])).length ≤ maxLfsFilesize := by simpa using hend
  rw [seekNexthdr_record r hpos hwhole]
  exact ⟨rfl, rfl, fun _ => hcut.le⟩

theorem restoreByType_cut (o : IterOutcomes) (snaps : Bytes)
    (hpos : s.snapsPos = pre.length + sizeofHdr)
    (hend : pre.length + r.encode.length ≤ maxLfsFilesize)
    (hcut : snaps.length < pre.length + r.encode.length) :
    PutsNothing snaps.length s (restoreByType o snaps r.hdr s).1
      (restoreByType o snaps r.hdr s).2 := by
  unfold restoreByType
  split
  · exact doRestoreRawblocks_cut o snaps hpos hend hcut
  · exact seekNexthdr_cut snaps hpos hend hcut

/-- Selected or not, confirmed or not, a cut record puts nothing on the device. -/
theorem restoreRecord_cut (opts : RestoreOpts) (o : IterOutcomes) (snaps : Bytes)
    (hpos : s.snapsPos = pre.length + sizeofHdr)
    (hend : pre.length + r.encode.length ≤ maxLfsFilesize)
    (hcut : snaps.length < pre.length + r.encode.length) :
    PutsNothing snaps.length s (restoreRecord opts o snaps r.hdr s).1
      (restoreRecord opts o snaps r.hdr s).2 := by
  have hasked : (askUser opts r.hdr s).2.snapsPos = pre.length + sizeofHdr :=
    (askUser_snapsPos _).trans hpos
  rw [restoreRecord_eq]
  split
  · exact seekNexthdr_cut snaps hpos hend hcut
  · split
    · exact (seekNexthdr_cut snaps hasked hend hcut).of_askUser
    · have hput := (restoreByType_cut o snaps hasked hend hcut).of_askUser
      split
      · exact ⟨hput.data, hput.bytes, by simp⟩
      · exact hput

/-- An iteration at a cut record puts nothing on the device. -/
theorem restoreIter_cut (opts : RestoreOpts) (o : IterOutcomes) {k : ℕ}
    (hk : k < r.encode.length) (hpos : s.snapsPos = pre.length)
    (hend : pre.length + r.encode.length ≤ maxLfsFilesize) :
    PutsNothing (pre ++ r.encode.take k).length s
      (restoreIter opts o (pre ++ r.encode.take k) s).1
      (restoreIter opts o (pre ++ r.encode.take k) s).2 := by
  have hfile : (pre ++ r.encode.take k).length = pre.length + k := by
    rw [List.length_append, List.length_take, min_eq_left hk.le]
  by_cases hheader : k < sizeofHdr
  · have hshort : (pre ++ r.encode.take k).length < s.snapsPos + sizeofHdr := by
      rw [hfile]
      omega
    obtain ⟨pos, heof⟩ := restoreIter_eof opts o hshort
    rw [heof]
    exact ⟨rfl, rfl, by simp⟩
  · rw [r.take_encode (not_lt.mp hheader)] at hfile ⊢
    rw [restoreIter_header opts o r.hdr rfl hpos]
    by_cases hread : o.headerRead.count sizeofHdr = some sizeofHdr
    · rw [if_pos hread]
      let u : RestoreState :=
        { s with snapsPos := pre.length + sizeofHdr }.emit (.header pre.length r.hdr)
      have hupos : u.snapsPos = pre.length + sizeofHdr := rfl
      obtain ⟨hdata, hbytes, hpast⟩ := restoreRecord_cut opts o
        (pre ++ (r.hdr.toBytes ++ (r.ext ++ r.payload).take (k - sizeofHdr))) hupos hend (by omega)
      refine ⟨hdata, hbytes.trans ?_, hpast⟩
      simp [u, RestoreState.emit, bytesWritten, writesDone]
    · rw [if_neg hread]
      exact ⟨rfl, rfl, by simp⟩

end Cut

/-- The loop over whole records and a cut one leaves the device as the loop over the whole
records does, and ends as they end. -/
theorem restoreLoop_cut (opts : RestoreOpts) (outs : ℕ → IterOutcomes) {rs : List Record}
    {tail : Bytes} {size n : ℕ} (hn : rs.length + 2 ≤ n) (hmax : size ≤ maxLfsFilesize)
    (pre : Bytes) (i : ℕ) {s : RestoreState} (hpos : s.snapsPos = pre.length)
    (hsize : (pre ++ (encodeLog rs ++ tail)).length ≤ size)
    (htail : CutRecord (pre ++ encodeLog rs).length size tail) :
    ∃ t t' flow flow', restoreLoop opts outs (pre ++ (encodeLog rs ++ tail)) n i s = (t, flow) ∧
      restoreLoop opts outs (pre ++ encodeLog rs) n i s = (t', flow') ∧
      flow ≠ .next ∧ flow' ≠ .next ∧
      t.dev.data = t'.dev.data ∧ bytesWritten t.log = bytesWritten t'.log := by
  induction rs generalizing n pre i s with
  | nil =>
    obtain ⟨n, rfl⟩ : ∃ m, n = m + 2 := ⟨n - 2, by simp at hn; omega⟩
    rw [encodeLog_nil, List.nil_append, List.append_nil] at *
    have hshort : pre.length < s.snapsPos + sizeofHdr := by simp [hpos, sizeofHdr]
    obtain ⟨pos, heof⟩ := restoreIter_eof opts (outs i) hshort
    have hwhole : restoreLoop opts outs pre (n + 2) i s = ({ s with snapsPos := pos }, .leave) := by
      rw [restoreLoop, heof]
    rw [hwhole]
    rcases htail with rfl | ⟨r, k, hk, rfl, hend⟩
    · rw [List.append_nil, hwhole]
      exact ⟨_, _, _, _, rfl, rfl, by simp, by simp, rfl, rfl⟩
    · obtain ⟨hdata, hbytes, hpast⟩ :=
        restoreIter_cut opts (outs i) hk hpos (by omega)
      rw [restoreLoop]
      cases hiter : restoreIter opts (outs i) (pre ++ r.encode.take k) s with
      | mk u flow =>
        rw [hiter] at hdata hbytes hpast
        cases flow with
        | next =>
          have hshort' : (pre ++ r.encode.take k).length < u.snapsPos + sizeofHdr := by
            have hpos' := hpast rfl
            simp only [sizeofHdr] at hpos' ⊢
            omega
          obtain ⟨pos', heof'⟩ := restoreIter_eof opts (outs (i + 1)) hshort'
          simp only [restoreLoop, heof']
          exact ⟨_, _, _, _, rfl, rfl, by simp, by simp, hdata, hbytes⟩
        | leave => exact ⟨_, _, _, _, rfl, rfl, by simp, by simp, hdata, hbytes⟩
        | exitFailure => exact ⟨_, _, _, _, rfl, rfl, by simp, by simp, hdata, hbytes⟩
  | cons r rs ih =>
    obtain ⟨n, rfl⟩ : ∃ m, n = m + 1 := ⟨n - 1, by simp at hn; omega⟩
    have hfile : pre ++ (encodeLog (r :: rs) ++ tail) =
        pre ++ (r.encode ++ (encodeLog rs ++ tail)) := by simp
    have hassoc (post : Bytes) : pre ++ (r.encode ++ post) = (pre ++ r.encode) ++ post := by simp
    have hwhole : (pre ++ (r.encode ++ encodeLog rs)).length ≤ size := by
      simp only [encodeLog_cons, List.length_append] at hsize ⊢
      omega
    rw [hfile] at hsize ⊢
    rw [encodeLog_cons] at htail ⊢
    have hsame := restoreIter_post opts (outs i) r hpos (hsize.trans hmax) (hwhole.trans hmax)
    rw [restoreLoop, restoreLoop, hsame]
    cases hiter : restoreIter opts (outs i) (pre ++ (r.encode ++ encodeLog rs)) s with
    | mk u flow =>
      cases flow with
      | next =>
        have hu := restoreIter_record_next opts (outs i) r hpos (hwhole.trans hmax) hiter
        rw [hassoc] at hsize htail
        have hrest := ih (by simp at hn; omega) (pre ++ r.encode) (i + 1)
          (by rw [hu, List.length_append]) hsize htail
        rw [hassoc, hassoc]
        exact hrest
      | leave => exact ⟨u, u, _, _, rfl, rfl, by simp, by simp, rfl, rfl⟩
      | exitFailure => exact ⟨u, u, _, _, rfl, rfl, by simp, by simp, rfl, rfl⟩

/-- Restoring what is left of a log behind any cut leaves the device as restoring the
records that lie before the cut does; no byte of the record at the cut gets there. -/
theorem doRestore_truncated (opts : RestoreOpts) (outs : ℕ → IterOutcomes) {rs : List Record}
    (hlen : (encodeLog rs).length ≤ maxLfsFilesize) (cut : ℕ) (kind : DeviceKind)
    (data stdin : Bytes) {fuel : ℕ} (hfuel : rs.length + 2 ≤ fuel) :
    ∃ t t' ok ok',
      doRestore opts outs fuel ((encodeLog rs).take cut) (.start kind data stdin) =
        some (t, ok) ∧
      doRestore opts outs fuel (encodeLog (wholeRecords rs cut)) (.start kind data stdin) =
        some (t', ok') ∧
      t.dev.data = t'.dev.data ∧ bytesWritten t.log = bytesWritten t'.log := by
  obtain ⟨tail, htake, htail⟩ := take_encodeLog rs cut
  have hshort := wholeRecords_length_le rs cut
  have hsize : (encodeLog (wholeRecords rs cut) ++ tail).length ≤ (encodeLog rs).length := by
    rw [← htake, List.length_take]
    exact min_le_right _ _
  obtain ⟨t, t', flow, flow', ht, ht', hflow, hflow', hdata, hbytes⟩ :=
    restoreLoop_cut opts outs (n := fuel) (by omega) hlen [] 0 (s := .start kind data stdin) rfl
      hsize htail
  rw [List.nil_append] at ht ht'
  refine ⟨t, t', flow == .leave, flow' == .leave, ?_, ?_, hdata, hbytes⟩
  · rw [htake, doRestore_of_stops opts outs le_rfl (by rw [ht]; exact hflow), ht]
  · rw [doRestore_of_stops opts outs le_rfl (by rw [ht']; exact hflow'), ht']

/-- The payload of the second of two records is cut. -/
theorem doRestore_truncated_second :
    let rs := [.raw 0 [5, 6] (by decide), .raw 1 [7, 8] (by decide)]
    wholeRecords rs 83 = rs.take 1 ∧
    ∃ t t' ok ok',
      doRestore ⟨true, 0, false⟩ (fun _ => .allDone) 4 ((encodeLog rs).take 83)
        (.start .block [0, 0, 0, 0] []) = some (t, ok) ∧
      doRestore ⟨true, 0, false⟩ (fun _ => .allDone) 4 (encodeLog (wholeRecords rs 83))
        (.start .block [0, 0, 0, 0] []) = some (t', ok') ∧
      t.dev.data = t'.dev.data ∧ bytesWritten t.log = bytesWritten t'.log :=
  ⟨by decide, doRestore_truncated ⟨true, 0, false⟩ (fun _ => .allDone)
    (by decide) 83 .block [0, 0, 0, 0] [] (by decide)⟩

end BlkdevSnapshot

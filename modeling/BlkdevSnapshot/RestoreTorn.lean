import BlkdevSnapshot.RestoreScan

/-!
# The restore tool on a log with a torn record at its end

An append that was cut short leaves a proper prefix of a record behind the
complete ones. Whatever fails in the tool, it ends there without a write, so
all that it writes are payloads of complete records.
-/
namespace BlkdevSnapshot

/-- What `__do_restore_rawblocks` does behind the header of a record whose payload
is cut: it seeks over the payload or ends the tool. -/
theorem doRestoreRawblocks_torn (o : IterOutcomes) (r : Record) (hext : r.ext = [])
    (snaps : Bytes) {s : RestoreState} (hpos : s.snapsPos ≤ snaps.length)
    (hlen : snaps.length ≤ maxLfsFilesize)
    (hcut : snaps.length < s.snapsPos + r.payload.length)
    (hroom : s.snapsPos + r.payload.length ≤ maxLfsFilesize ∨ o = .allDone) :
    ∃ pos flow, doRestoreRawblocks o snaps r.hdr s = ({ s with snapsPos := pos }, flow) ∧
      (flow = .next → snaps.length ≤ pos) := by
  have hoff : (r.payldOff - UInt64.ofNat sizeofHdr).toNat = 0 := by
    rw [r.payldOff_sub_sizeofHdr, hext, List.length_nil]
  have hseek := lseekCur_of_le s.snapsPos (r.payldOff - UInt64.ofNat sizeofHdr)
    (by rw [hoff]; omega)
  have hsize : ¬ 2 ^ 63 ≤ r.payload.length := not_le.mpr r.payload_length_lt
  have hread := readAt_length_le snaps s.snapsPos r.payload.length
  rw [hoff, Nat.add_zero] at hseek
  -- the seek over the payload, taken after a failed allocation or a failed read
  have hskip (h : s.snapsPos + r.payload.length ≤ maxLfsFilesize) :
      snaps.length ≤ lseekCur s.snapsPos r.payldsiz := by
    rw [lseekCur_of_le _ _ (by rw [r.payldsiz_toNat]; exact h), r.payldsiz_toNat]
    omega
  unfold doRestoreRawblocks
  simp only [RestoreState.seekSnaps, Record.hdr, hseek, r.payldsiz_toNat, hsize, decide_false,
    Bool.or_false, Bool.not_eq_true']
  by_cases hmalloc : o.malloc = false
  · rw [if_pos hmalloc]
    refine ⟨_, _, rfl, fun _ => hskip (hroom.resolve_right ?_)⟩
    rintro rfl
    cases hmalloc
  · rw [if_neg hmalloc]
    cases hcount : sysRead o.payloadRead snaps s.snapsPos r.payload.length with
    | none =>
      refine ⟨_, _, rfl, fun _ => hskip (hroom.resolve_right ?_)⟩
      rintro rfl
      cases hcount
    | some buf =>
      have hshort : buf.length ≠ r.payload.length := by
        obtain ⟨k, -, rfl⟩ := Option.map_eq_some_iff.mp hcount
        rw [List.length_take]
        omega
      simp only
      rw [if_pos hshort]
      exact ⟨_, _, rfl, by simp⟩

/-- An iteration at a torn record writes nothing. It goes on only past the end of
the file, which the seek over the missing payload can reach. -/
theorem restoreIter_torn {opts : RestoreOpts} (hopts : opts.All) (o : IterOutcomes) {pre : Bytes}
    (r : Record) (hraw : r.payldType = snapblockPayloadTypeRaw) (hext : r.ext = []) {k : ℕ}
    (hk : k < r.encode.length) {s : RestoreState} (hpos : s.snapsPos = pre.length)
    (hlen : (pre ++ r.encode.take k).length ≤ maxLfsFilesize)
    (hroom : pre.length + r.encode.length ≤ maxLfsFilesize ∨ o = .allDone) :
    (restoreIter opts o (pre ++ r.encode.take k) s).1.dev = s.dev ∧
    (∀ off bytes, .write off bytes ∈ (restoreIter opts o (pre ++ r.encode.take k) s).1.log →
      .write off bytes ∈ s.log) ∧
    ((restoreIter opts o (pre ++ r.encode.take k) s).2 = .next → sizeofHdr ≤ k ∧
      (pre ++ r.encode.take k).length ≤
        (restoreIter opts o (pre ++ r.encode.take k) s).1.snapsPos) := by
  by_cases hheader : k < sizeofHdr
  · have hshort : (pre ++ r.encode.take k).length < s.snapsPos + sizeofHdr := by
      rw [List.length_append, List.length_take, hpos]
      omega
    obtain ⟨pos, heof⟩ := restoreIter_eof opts o hshort
    rw [heof]
    exact ⟨rfl, fun _ _ h => h, by simp⟩
  · have hcut := r.take_encode (not_lt.mp hheader)
    have henc := r.encode_length
    rw [hext, List.length_nil, Nat.add_zero] at henc
    have hfile : (pre ++ r.encode.take k).length = pre.length + k := by
      rw [List.length_append, List.length_take, min_eq_left hk.le]
    rw [hcut] at hfile hlen ⊢
    rw [restoreIter_header opts o r.hdr rfl hpos]
    by_cases hread : o.headerRead.count sizeofHdr = some sizeofHdr
    · rw [if_pos hread, restoreRecord_all hopts, restoreByType]
      have htype : r.hdr.payldType = snapblockPayloadTypeRaw := hraw
      rw [if_pos htype]
      obtain ⟨pos, flow, hres, hflow⟩ := doRestoreRawblocks_torn o r hext
        (pre ++ (r.hdr.toBytes ++ (r.ext ++ r.payload).take (k - sizeofHdr)))
        (s := { s with snapsPos := pre.length + sizeofHdr }.emit (.header pre.length r.hdr))
        (by rw [hfile]; simp only [RestoreState.emit]; omega) hlen
        (by rw [hfile]; simp only [RestoreState.emit]; omega)
        (hroom.imp_left fun h => by simp only [RestoreState.emit]; omega)
      rw [hres]
      refine ⟨rfl, fun off bytes h => ?_, fun h => ⟨by omega, hflow h⟩⟩
      simpa [RestoreState.emit] using h
    · rw [if_neg hread]
      exact ⟨rfl, fun _ _ h => h, by simp⟩

/-- A torn record at the end of a file: nothing, or a proper prefix of a raw record
with a payload of `n` bytes. -/
def TornTail (n : ℕ) (tail : Bytes) : Prop :=
  tail = [] ∨ ∃ (r : Record) (k : ℕ), r.payldType = snapblockPayloadTypeRaw ∧ r.ext = [] ∧
    r.payload.length = n ∧ k < r.encode.length ∧ tail = r.encode.take k

/-- The writes in a log put prefixes of the payloads of the records at their blocks. -/
def WritesFrom (rs : List Record) (log : List RestoreEvent) : Prop :=
  ∀ off bytes, .write off bytes ∈ log →
    ∃ r ∈ rs, off = r.blknr.toNat * r.payload.length ∧ bytes <+: r.payload

/-- An iteration at a complete record whose block lies on the device. -/
theorem restoreIter_writesFrom {opts : RestoreOpts} (hopts : opts.All) (o : IterOutcomes)
    {pre post : Bytes} {rs : List Record} {r : Record} (hr : r ∈ rs) {s : RestoreState}
    (hpos : s.snapsPos = pre.length)
    (hlen : (pre ++ (r.encode ++ post)).length ≤ maxLfsFilesize)
    (hsize : s.dev.data.length ≤ maxLfsFilesize) (hon : r.OnDevice s.dev.data.length)
    (hlog : WritesFrom rs s.log) {s' : RestoreState} {flow : RestoreFlow}
    (hiter : restoreIter opts o (pre ++ (r.encode ++ post)) s = (s', flow)) :
    s'.dev.data.length = s.dev.data.length ∧ WritesFrom rs s'.log ∧
      (flow = .next → s'.snapsPos = s.snapsPos + r.encode.length) := by
  have heff := restoreIter_effect hopts o r hpos hlen
  rw [hiter] at heff
  have hheader : WritesFrom rs (s.log ++ [.header s.snapsPos r.hdr]) := by
    intro off bytes h
    exact hlog off bytes (by simpa using h)
  cases heff with
  | cut hdev hl => exact ⟨by rw [hdev], by rw [hl]; exact hlog, by simp⟩
  | passed hp hdev hl => exact ⟨by rw [hdev], by rw [hl]; exact hheader, fun _ => hp⟩
  | torn hdev hl => exact ⟨by rw [hdev], by rw [hl]; exact hheader, by simp⟩
  | wrote flow hp hdev hl hflow =>
    rw [hon.lseekSet hsize] at hdev hl
    obtain ⟨k, hk, hcount, hdata, -⟩ := Device.write_prefix
      (d := { s.dev with pos := r.blknr.toNat * r.payload.length }) o.devWrite r.payload
    rw [hcount] at hl
    refine ⟨?_, ?_, fun _ => hp⟩
    · have hend := hon.end_le
      rw [hdev, hdata, overwrite_length]
      rw [List.length_take]
      simp only
      omega
    · rw [hl]
      intro off bytes h
      simp only [List.mem_append, List.mem_cons, reduceCtorEq, List.not_mem_nil, or_false,
        false_or, RestoreEvent.write.injEq] at h
      rcases h with h | ⟨rfl, rfl⟩
      · exact hlog off bytes h
      · exact ⟨r, hr, rfl, List.take_prefix _ _⟩

/-- The position is the start of a record or of the tail, or past the file. -/
def AtRecord (rs : List Record) (tail : Bytes) (s : RestoreState) : Prop :=
  (∃ as bs, rs = as ++ bs ∧ s.snapsPos = (encodeLog as).length) ∨
    (encodeLog rs ++ tail).length ≤ s.snapsPos

/-- One iteration over complete records with a torn one behind them. -/
theorem restoreIter_tornLog {opts : RestoreOpts} (hopts : opts.All) (o : IterOutcomes)
    {rs : List Record} {tail : Bytes} {n : ℕ}
    (hlen : (encodeLog rs ++ tail).length ≤ maxLfsFilesize) (htail : TornTail n tail)
    (hroom : (encodeLog rs ++ tail).length + n ≤ maxLfsFilesize ∨ o = .allDone)
    {s s' : RestoreState} {flow : RestoreFlow} (hsize : s.dev.data.length ≤ maxLfsFilesize)
    (hdev : ∀ r ∈ rs, r.OnDevice s.dev.data.length) (hlog : WritesFrom rs s.log)
    (hat : AtRecord rs tail s)
    (hiter : restoreIter opts o (encodeLog rs ++ tail) s = (s', flow)) :
    s'.dev.data.length = s.dev.data.length ∧ WritesFrom rs s'.log ∧
      (flow = .next → AtRecord rs tail s' ∧ s.snapsPos < s'.snapsPos ∧
        s.snapsPos < (encodeLog rs ++ tail).length) := by
  have hends (hshort : (encodeLog rs ++ tail).length < s.snapsPos + sizeofHdr) :
      s'.dev.data.length = s.dev.data.length ∧ WritesFrom rs s'.log ∧ flow = .leave := by
    obtain ⟨pos, heof⟩ := restoreIter_eof opts o hshort
    obtain ⟨rfl, rfl⟩ := Prod.mk.inj (hiter.symm.trans heof)
    exact ⟨rfl, hlog, rfl⟩
  have hleaves (h : s'.dev.data.length = s.dev.data.length ∧ WritesFrom rs s'.log ∧
      flow = .leave) : s'.dev.data.length = s.dev.data.length ∧ WritesFrom rs s'.log ∧
      (flow = .next → AtRecord rs tail s' ∧ s.snapsPos < s'.snapsPos ∧
        s.snapsPos < (encodeLog rs ++ tail).length) :=
    ⟨h.1, h.2.1, by simp [h.2.2]⟩
  rcases hat with ⟨as, bs, hsplit, hpos⟩ | hpast
  · cases bs with
    | cons r bs =>
      have hfile : encodeLog rs ++ tail =
          encodeLog as ++ (r.encode ++ (encodeLog bs ++ tail)) := by
        simp [hsplit]
      have hr : r ∈ rs := by simp [hsplit]
      have hpositive := r.sizeofHdr_le_encode
      rw [hfile] at hlen hiter
      obtain ⟨hd, hl, hnext⟩ :=
        restoreIter_writesFrom hopts o hr hpos hlen hsize (hdev r hr) hlog hiter
      refine ⟨hd, hl, fun hflow => ⟨.inl ⟨as ++ [r], bs, by simp [hsplit], ?_⟩, ?_, ?_⟩⟩
      · rw [hnext hflow, hpos]
        simp
      · rw [hnext hflow]
        simp only [sizeofHdr] at hpositive
        omega
      · rw [hfile, hpos]
        simp only [List.length_append, sizeofHdr] at hpositive ⊢
        omega
    | nil =>
      rw [List.append_nil] at hsplit
      subst hsplit
      rcases htail with rfl | ⟨r, k, hraw, hext, hn, hk, rfl⟩
      · refine hleaves (hends ?_)
        rw [hpos, List.append_nil]
        simp [sizeofHdr]
      · have henc := r.encode_length
        rw [hext, List.length_nil, Nat.add_zero, hn] at henc
        have hfile : (encodeLog rs ++ r.encode.take k).length = (encodeLog rs).length + k := by
          rw [List.length_append, List.length_take, min_eq_left hk.le]
        by_cases hheader : k < sizeofHdr
        · refine hleaves (hends ?_)
          rw [hpos, hfile]
          omega
        · obtain ⟨hd, hl, hnext⟩ := restoreIter_torn hopts o r hraw hext hk hpos hlen
            (hroom.imp_left fun h => by rw [hfile] at h; omega)
          rw [hiter] at hd hl hnext
          refine ⟨by rw [hd], fun off bytes h => hlog off bytes (hl off bytes h), fun hflow => ?_⟩
          obtain ⟨hk', hpast⟩ := hnext hflow
          refine ⟨.inr hpast, ?_, ?_⟩
          · simp only at hpast
            rw [hfile] at hpast
            simp only [sizeofHdr] at hk'
            omega
          · rw [hfile, hpos]
            simp only [sizeofHdr] at hk'
            omega
  · refine hleaves (hends ?_)
    simp only [sizeofHdr]
    omega

/-- Whatever the system calls of the tool do, restoring complete records with a torn
one behind them ends, and writes only payloads of the complete records. -/
theorem doRestore_writesFrom {opts : RestoreOpts} (hopts : opts.All) (outs : ℕ → IterOutcomes)
    {rs : List Record} {tail : Bytes} {n : ℕ}
    (hlen : (encodeLog rs ++ tail).length ≤ maxLfsFilesize) (htail : TornTail n tail)
    (hroom : (encodeLog rs ++ tail).length + n ≤ maxLfsFilesize ∨ ∀ i, outs i = .allDone)
    (kind : DeviceKind) {data : Bytes} (stdin : Bytes) (hsize : data.length ≤ maxLfsFilesize)
    (hdev : ∀ r ∈ rs, r.OnDevice data.length) :
    ∃ fuel₀, ∀ fuel, fuel₀ ≤ fuel → ∃ t ended, doRestore opts outs fuel (encodeLog rs ++ tail)
      (.start kind data stdin) = some (t, ended) ∧ WritesFrom rs t.log := by
  let Q : RestoreState → Prop := fun s =>
    s.dev.data.length = data.length ∧ WritesFrom rs s.log
  let μ : RestoreState → ℕ := fun s => (encodeLog rs ++ tail).length - s.snapsPos
  have hQ : Q (.start kind data stdin) := ⟨rfl, by simp [WritesFrom, RestoreState.start]⟩
  have hA : AtRecord rs tail (.start kind data stdin) := .inl ⟨[], rs, rfl, rfl⟩
  have hstep : ∀ (i : ℕ) (s : RestoreState), Q s → AtRecord rs tail s →
      Q (restoreIter opts (outs i) (encodeLog rs ++ tail) s).1 ∧
      ((restoreIter opts (outs i) (encodeLog rs ++ tail) s).2 = .next →
        AtRecord rs tail (restoreIter opts (outs i) (encodeLog rs ++ tail) s).1 ∧
        μ (restoreIter opts (outs i) (encodeLog rs ++ tail) s).1 < μ s) := by
    intro i s ⟨hdata, hlog⟩ hat
    rw [← hdata] at hsize hdev
    obtain ⟨hd, hl, hnext⟩ := restoreIter_tornLog hopts (outs i) hlen htail
      (hroom.imp_right fun h => h i) hsize hdev hlog hat rfl
    refine ⟨⟨hd.trans hdata, hl⟩, fun hflow => ?_⟩
    obtain ⟨hat', hlt, hin⟩ := hnext hflow
    exact ⟨hat', Nat.sub_lt_sub_left hin hlt⟩
  refine ⟨μ (.start kind data stdin) + 1, fun fuel hfuel => ?_⟩
  obtain ⟨hQ', hends⟩ := restoreLoop_ends opts outs hstep (μ (.start kind data stdin) + 1) 0
    hQ hA (Nat.lt_succ_self _)
  exact ⟨_, _, doRestore_of_stops opts outs hfuel hends, hQ'.2⟩

end BlkdevSnapshot

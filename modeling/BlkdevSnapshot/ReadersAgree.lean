import BlkdevSnapshot.RestoreScan

/-!
# Both readers on a well-formed log

The kernel's scan and the restore tool read headers at the starts of the records,
for every extended header, payload and payload type. What the tool does between
two headers depends on its options, the answers and the outcome of its calls;
every way through the loop body ends at the next record.
-/
namespace BlkdevSnapshot

/-- The offsets at which the records of a log start, the first one at `off`. -/
def recordStarts : ℕ → List Record → List ℕ
  | _, [] => []
  | off, r :: rs => off :: recordStarts (off + r.encode.length) rs

section Lookup
variable (headerRead : ℕ → Bool)

/-- The offsets at which the loop of `file_lookup` gets a header, in order. -/
def fileLookupHeadersFrom (file : Bytes) (blknr : UInt64) : ℕ → ℕ → UInt64 → List ℕ
  | 0, _, _ => []
  | fuel + 1, i, foff =>
    match readSnapblockMandatoryHeader (headerRead i) file foff with
    | none => []
    | some h =>
      foff.toNat :: if h.blknr = blknr then []
        else fileLookupHeadersFrom file blknr fuel (i + 1) (foff + (h.payldOff + h.payldsiz))

/-- The offsets at which `file_lookup` gets a header. -/
def fileLookupHeaders (fuel : ℕ) (blknr : UInt64) (file : Bytes) : List ℕ :=
  fileLookupHeadersFrom headerRead file blknr fuel 0 0

variable (b : UInt64)

theorem fileLookupHeadersFrom_record {pre post : Bytes} (r : Record) (fuel i : ℕ)
    (hread : headerRead i = true) (hlen : (pre ++ (r.encode ++ post)).length ≤ maxLfsFilesize) :
    fileLookupHeadersFrom headerRead (pre ++ (r.encode ++ post)) b (fuel + 1) i
        (UInt64.ofNat pre.length) =
      pre.length :: if r.blknr = b then []
        else fileLookupHeadersFrom headerRead (pre ++ (r.encode ++ post)) b fuel (i + 1)
          (UInt64.ofNat (pre ++ r.encode).length) := by
  have hpre : pre.length ≤ maxLfsFilesize := by simp only [List.length_append] at hlen; omega
  have hfile : pre ++ (r.encode ++ post) =
      pre ++ (r.hdr.toBytes ++ (r.ext ++ r.payload ++ post)) := by
    simp [Record.encode]
  rw [fileLookupHeadersFrom, hfile, readSnapblockMandatoryHeader_header _ r.hdr hpre rfl, ← hfile,
    hread, if_pos rfl]
  simp only [ofNat_add_displacement r hlen, toNat_ofNat_of_le hpre]
  rfl

/-- The scan of a log gets headers at the record starts up to its first match. -/
theorem fileLookupHeadersFrom_log (hread : ∀ i, headerRead i = true) {rs : List Record} {fuel : ℕ}
    (hfuel : rs.length < fuel) (pre : Bytes) (i : ℕ)
    (hlen : (pre ++ encodeLog rs).length ≤ maxLfsFilesize) :
    fileLookupHeadersFrom headerRead (pre ++ encodeLog rs) b fuel i (UInt64.ofNat pre.length) =
      (recordStarts pre.length rs).take ((rs.takeWhile (·.blknr ≠ b)).length + 1) := by
  induction rs generalizing pre i fuel with
  | nil =>
    obtain ⟨fuel, rfl⟩ := Nat.exists_eq_succ_of_ne_zero (Nat.ne_of_gt hfuel)
    have hpre : pre.length ≤ maxLfsFilesize := by simpa using hlen
    rw [fileLookupHeadersFrom, readSnapblockMandatoryHeader_eof _ (by
      rw [toNat_ofNat_of_le hpre]; simp [sizeofHdr])]
    rfl
  | cons r rs ih =>
    obtain ⟨fuel, rfl⟩ := Nat.exists_eq_succ_of_ne_zero (Nat.ne_of_gt (Nat.zero_lt_of_lt hfuel))
    have hassoc : pre ++ (r.encode ++ encodeLog rs) = (pre ++ r.encode) ++ encodeLog rs := by simp
    rw [encodeLog_cons] at hlen ⊢
    rw [fileLookupHeadersFrom_record headerRead b r fuel i (hread i) hlen, recordStarts,
      List.take_succ_cons]
    by_cases hb : r.blknr = b
    · simp [hb]
    · rw [if_neg hb, hassoc, ih (by simpa using hfuel) _ _ (by rw [← hassoc]; exact hlen)]
      simp [hb]

end Lookup

/-- The offsets of the headers in the log of the tool. -/
def headersRead (log : List RestoreEvent) : List ℕ :=
  log.filterMap fun e => match e with
    | .header off _ => some off
    | _ => none

/-- The writes in the log of the tool. -/
def writesDone (log : List RestoreEvent) : List (ℕ × Bytes) :=
  log.filterMap fun e => match e with
    | .write off bytes => some (off, bytes)
    | _ => none

/-- Whether the tool attempts to restore a record, and the input it leaves unread. -/
def attempts (opts : RestoreOpts) (r : Record) (stdin : Bytes) : Bool × Bytes :=
  if !opts.restoreAll && opts.restoreOnlyBlknum != r.blknr then (false, stdin)
  else if opts.ask then (isYes (fgets 10 stdin).1, (fgets 10 stdin).2)
  else (true, stdin)

/-- The records that the tool walks and whether it attempts them: all records, or
those up to the first attempted match of `-n`. -/
def walked (opts : RestoreOpts) : List Record → Bytes → List (Record × Bool)
  | [], _ => []
  | r :: rs, stdin =>
    (r, (attempts opts r stdin).1) ::
      if (attempts opts r stdin).1 && !opts.restoreAll then []
      else walked opts rs (attempts opts r stdin).2

/-- A raw record whose buffer is allocated and whose payload read does not fail. -/
def IterOutcomes.Restores (o : IterOutcomes) (r : Record) : Prop :=
  r.payldType = snapblockPayloadTypeRaw ∧ o.malloc = true ∧ o.payloadRead = .done

instance (o : IterOutcomes) (r : Record) : Decidable (o.Restores r) :=
  inferInstanceAs (Decidable (_ ∧ _ ∧ _))

/-- The write that is due for a walked record. -/
def dueWrite (o : IterOutcomes) (w : Record × Bool) : List (ℕ × Bytes) :=
  if w.2 ∧ o.Restores w.1 then [(w.1.blknr.toNat * w.1.payload.length, w.1.payload)] else []

/-- The writes that are due for walked records, the first of them in iteration `i`. -/
def dueWrites (outs : ℕ → IterOutcomes) : ℕ → List (Record × Bool) → List (ℕ × Bytes)
  | _, [] => []
  | i, w :: ws => dueWrite (outs i) w ++ dueWrites outs (i + 1) ws

/-- Where a device ends: a regular file can grow, a block device cannot. -/
def Device.capacity (d : Device) : ℕ :=
  match d.kind with
  | .regular => maxLfsFilesize
  | .block => min maxLfsFilesize d.data.length

/-- The device has room for block `b`, blocks having `n` bytes. -/
def Device.HasRoom (d : Device) (b n : UInt64) : Prop :=
  b.toNat * n.toNat + n.toNat ≤ d.capacity

/-- A write leaves the kind of a device, and the size of a block device, as they are. -/
structure Device.SameRoom (d d' : Device) : Prop where
  kind : d'.kind = d.kind
  size : d.kind = .block → d'.data.length = d.data.length

section Device
variable {d d' d'' : Device} {b n : UInt64}

theorem Device.SameRoom.refl (d : Device) : d.SameRoom d := ⟨rfl, fun _ => rfl⟩

theorem Device.SameRoom.trans (h : d.SameRoom d') (h' : d'.SameRoom d'') : d.SameRoom d'' :=
  ⟨h'.kind.trans h.kind, fun hk => (h'.size (h.kind.trans hk)).trans (h.size hk)⟩

theorem Device.capacity_le (d : Device) : d.capacity ≤ maxLfsFilesize := by
  unfold Device.capacity
  split
  · exact le_rfl
  · exact min_le_left _ _

theorem Device.capacity_le_length (h : d.kind = .block) : d.capacity ≤ d.data.length := by
  rw [Device.capacity, h]
  exact min_le_right _ _

theorem Device.capacity_sub_le_room (d : Device) : d.capacity - d.pos ≤ d.room := by
  unfold Device.capacity Device.room
  cases d.kind with
  | regular => exact le_rfl
  | block => exact Nat.sub_le_sub_right (min_le_right _ _) _

theorem Device.SameRoom.hasRoom (h : d.SameRoom d') (hr : d.HasRoom b n) :
    d'.HasRoom b n := by
  have hcap : d'.capacity = d.capacity := by
    unfold Device.capacity
    rw [h.kind]
    cases hk : d.kind with
    | regular => rfl
    | block => rw [h.size hk]
  unfold Device.HasRoom
  rw [hcap]
  exact hr

theorem Device.HasRoom.lseekSet (h : d.HasRoom b n) :
    d.lseekSet (b * n) = { d with pos := b.toNat * n.toNat } := by
  unfold Device.HasRoom at h
  have hmax : b.toNat * n.toNat ≤ maxLfsFilesize := by
    have := d.capacity_le
    omega
  have hmul : (b * n).toNat = b.toNat * n.toNat := by
    simp only [maxLfsFilesize] at hmax
    rw [UInt64.toNat_mul, Nat.mod_eq_of_lt (by omega)]
  have hoff : loff (b * n) = ((b.toNat * n.toNat : ℕ) : ℤ) := by
    simp only [maxLfsFilesize] at hmax
    rw [loff_of_lt (by omega), hmul]
  have hin : ¬ (loff (b * n) < 0 ∨ (d.kind = .block ∧ (d.data.length : ℤ) < loff (b * n))) := by
    rw [hoff]
    rintro (hneg | ⟨hk, hpast⟩)
    · omega
    · have := Device.capacity_le_length hk
      omega
  rw [Device.lseekSet, if_neg hin, hoff, Int.toNat_natCast]

/-- A device with room for a block takes it whole, if one call can transfer it. -/
theorem Device.HasRoom.write (h : d.HasRoom b n) {buf : Bytes} (hbuf : buf.length = n.toNat)
    (hrw : buf.length ≤ maxRwCount) :
    let w := (d.lseekSet (b * n)).write .done buf
    w.2 = some buf.length ∧ d.SameRoom w.1 := by
  rw [h.lseekSet]
  unfold Device.HasRoom at h
  rw [← hbuf] at h ⊢
  let e : Device := { d with pos := b.toNat * buf.length }
  have hroom : buf.length ≤ e.room := by
    have hcap : d.capacity - b.toNat * buf.length ≤ e.room := e.capacity_sub_le_room
    omega
  have hcount : min buf.length (min maxRwCount e.room) = buf.length := by omega
  simp only [Device.write, IoOutcome.count, e] at hcount ⊢
  rw [hcount, List.take_length]
  exact ⟨rfl, rfl, fun hk => overwrite_length (h.trans (Device.capacity_le_length hk))⟩

end Device

/-- Headers are read, payload reads deliver or fail as a whole as far as one call can,
and the medium of the device takes what it is given. -/
structure IterOutcomes.Usual (o : IterOutcomes) : Prop where
  headerRead : o.headerRead = .done
  payloadRead : o.payloadRead = .done ∨ o.payloadRead = .error
  devWrite : o.devWrite = .done

/-- One call reads the payload of a record and the device has room for it. -/
def Record.Fits (r : Record) (d : Device) : Prop :=
  r.payload.length ≤ maxRwCount ∧ d.HasRoom r.blknr r.payldsiz

theorem Record.Fits.of_sameRoom {r : Record} {d d' : Device} (h : r.Fits d) (hd : d.SameRoom d') :
    r.Fits d' := ⟨h.1, hd.hasRoom h.2⟩

section Iter
variable {opts : RestoreOpts} {o : IterOutcomes} {pre post : Bytes} {r : Record}
  {s : RestoreState}

/-- The events of writes. -/
def writeEvents (ws : List (ℕ × Bytes)) : List RestoreEvent := ws.map fun w => .write w.1 w.2

theorem headersRead_writeEvents (log : List RestoreEvent) (ws : List (ℕ × Bytes)) :
    headersRead (log ++ writeEvents ws) = headersRead log := by
  simp [headersRead, writeEvents, List.filterMap_append, List.filterMap_map]

theorem writesDone_writeEvents (log : List RestoreEvent) (ws : List (ℕ × Bytes)) :
    writesDone (log ++ writeEvents ws) = writesDone log ++ ws := by
  simp [writesDone, writeEvents, List.filterMap_append, List.filterMap_map]

/-- Behind the header of a record every payload type and every outcome of the calls
leads to the next record. -/
theorem restoreByType_record (hpos : s.snapsPos = pre.length + sizeofHdr)
    (hlen : (pre ++ (r.encode ++ post)).length ≤ maxLfsFilesize) (ho : o.Usual)
    (hfits : o.Restores r → r.Fits s.dev) :
    ∃ t, restoreByType o (pre ++ (r.encode ++ post)) r.hdr s = (t, .next) ∧
      t.snapsPos = pre.length + r.encode.length ∧ t.stdin = s.stdin ∧
      t.log = s.log ++ writeEvents (dueWrite o (r, true)) ∧ s.dev.SameRoom t.dev := by
  have hskip (hdue : dueWrite o (r, true) = []) :
      let t : RestoreState := { s with snapsPos := pre.length + r.encode.length }
      t.snapsPos = pre.length + r.encode.length ∧ t.stdin = s.stdin ∧
        t.log = s.log ++ writeEvents (dueWrite o (r, true)) ∧ s.dev.SameRoom t.dev :=
    ⟨rfl, rfl, by rw [hdue]; exact (List.append_nil _).symm, .refl _⟩
  have htype : r.hdr.payldType = r.payldType := rfl
  rw [restoreByType, htype]
  by_cases hraw : r.payldType = snapblockPayloadTypeRaw
  · rw [if_pos hraw, doRestoreRawblocks_record o r hpos hlen]
    cases hm : o.malloc with
    | false => exact ⟨_, rfl, hskip (by simp [dueWrite, IterOutcomes.Restores, hm])⟩
    | true =>
      rcases ho.payloadRead with hdone | herror
      · have hdue : o.Restores r := ⟨hraw, hm, hdone⟩
        obtain ⟨hrw, hroom⟩ := hfits hdue
        obtain ⟨hfull, hsame⟩ := hroom.write r.payldsiz_toNat.symm hrw
        simp only [if_true, hdone, IoOutcome.count, min_eq_left hrw, restorePayload, ho.devWrite]
        rw [if_pos hfull, hfull]
        refine ⟨_, rfl, rfl, rfl, ?_, hsame⟩
        simp [RestoreState.emit, writeEvents, dueWrite, hdue, hroom.lseekSet]
      · simp only [if_true, herror, IoOutcome.count]
        exact ⟨_, rfl, hskip (by simp [dueWrite, IterOutcomes.Restores, herror])⟩
  · rw [if_neg hraw, seekNexthdr_record r hpos hlen]
    exact ⟨_, rfl, hskip (by simp [dueWrite, IterOutcomes.Restores, hraw])⟩

theorem askUser_dev (h : SnapblockFileHdr) : (askUser opts h s).2.dev = s.dev := by
  cases ha : opts.ask <;> simp [askUser, ha, RestoreState.emit]

theorem headersRead_askUser (h : SnapblockFileHdr) :
    headersRead (askUser opts h s).2.log = headersRead s.log := by
  cases ha : opts.ask <;> simp [askUser, ha, RestoreState.emit, headersRead]

theorem writesDone_askUser (h : SnapblockFileHdr) :
    writesDone (askUser opts h s).2.log = writesDone s.log := by
  cases ha : opts.ask <;> simp [askUser, ha, RestoreState.emit, writesDone]

/-- What one iteration at a record has done, and where it has left the tool. -/
structure Walks (opts : RestoreOpts) (o : IterOutcomes) (r : Record) (s t : RestoreState) :
    Prop where
  pos : t.snapsPos = s.snapsPos + r.encode.length
  stdin : t.stdin = (attempts opts r s.stdin).2
  headers : headersRead t.log = headersRead s.log ++ [s.snapsPos]
  writes : writesDone t.log = writesDone s.log ++ dueWrite o (r, (attempts opts r s.stdin).1)
  dev : s.dev.SameRoom t.dev

/-- An iteration at the start of a record leads to the next one; an attempted match
of `-n` ends the loop. -/
theorem restoreIter_walks (hpos : s.snapsPos = pre.length)
    (hlen : (pre ++ (r.encode ++ post)).length ≤ maxLfsFilesize) (ho : o.Usual)
    (hfits : (attempts opts r s.stdin).1 = true → o.Restores r → r.Fits s.dev) :
    ∃ t, restoreIter opts o (pre ++ (r.encode ++ post)) s =
      (t, if (attempts opts r s.stdin).1 && !opts.restoreAll then .leave else .next) ∧
      Walks opts o r s t := by
  have hread : o.headerRead.count sizeofHdr = some sizeofHdr := by
    rw [ho.headerRead]
    rfl
  let u : RestoreState :=
    { s with snapsPos := pre.length + sizeofHdr }.emit (.header pre.length r.hdr)
  have hheaders : headersRead u.log = headersRead s.log ++ [s.snapsPos] := by
    simp [u, RestoreState.emit, headersRead, hpos]
  have hwrites : writesDone u.log = writesDone s.log := by
    simp [u, RestoreState.emit, writesDone]
  rw [restoreIter_record opts o r hpos, if_pos hread, restoreRecord_eq]
  by_cases hsel : (!opts.restoreAll && opts.restoreOnlyBlknum != r.blknr) = true
  · have hatt : attempts opts r s.stdin = (false, s.stdin) := by rw [attempts, if_pos hsel]
    have hsel' : (!opts.restoreAll && opts.restoreOnlyBlknum != r.hdr.blknr) = true := hsel
    rw [if_pos hsel', seekNexthdr_record r rfl hlen, hatt]
    refine ⟨_, rfl, by rw [hpos], by rw [hatt]; rfl, hheaders, ?_, .refl _⟩
    rw [hatt]
    simpa [dueWrite] using hwrites
  · have hsel' : ¬ (!opts.restoreAll && opts.restoreOnlyBlknum != r.hdr.blknr) = true := hsel
    rw [if_neg hsel']
    have hupos : (askUser opts r.hdr u).2.snapsPos = pre.length + sizeofHdr := askUser_snapsPos _
    have hudev : (askUser opts r.hdr u).2.dev = s.dev := askUser_dev _
    have hatt : attempts opts r s.stdin =
        (!(opts.ask && !isYes (fgets 10 s.stdin).1), (askUser opts r.hdr u).2.stdin) := by
      rw [attempts, if_neg hsel, askUser_stdin]
      cases opts.ask <;> simp [u, RestoreState.emit]
    by_cases hno : (opts.ask && !isYes (fgets 10 s.stdin).1) = true
    · have hno' : (opts.ask && !isYes (fgets 10 u.stdin).1) = true := hno
      rw [if_pos hno', seekNexthdr_record r hupos hlen, hatt, hno]
      refine ⟨_, rfl, by rw [hpos], by rw [hatt], ?_, ?_, ?_⟩
      · rw [headersRead_askUser, hheaders]
      · rw [writesDone_askUser, hwrites, hatt, hno]
        simp [dueWrite]
      · rw [hudev]
        exact .refl _
    · have hno' : ¬ (opts.ask && !isYes (fgets 10 u.stdin).1) = true := hno
      have hyes : (attempts opts r s.stdin).1 = true := by
        rw [hatt, Bool.eq_false_of_not_eq_true hno]
        rfl
      obtain ⟨t, ht, htpos, htstdin, htlog, htdev⟩ :=
        restoreByType_record hupos hlen ho (by rw [hudev]; exact hfits hyes)
      rw [if_neg hno', ht, hyes]
      refine ⟨t, ?_, by rw [htpos, hpos], by rw [htstdin, hatt], ?_, ?_, ?_⟩
      · cases opts.restoreAll <;> simp
      · rw [htlog, headersRead_writeEvents, headersRead_askUser, hheaders]
      · rw [htlog, writesDone_writeEvents, writesDone_askUser, hwrites, hyes]
      · rw [hudev] at htdev
        exact htdev

end Iter

/-- The loop rule for a log: every record is walked, up to an attempted match of `-n`. -/
theorem restoreLoop_walks (opts : RestoreOpts) (outs : ℕ → IterOutcomes)
    (ho : ∀ i, (outs i).Usual) {rs : List Record} {n : ℕ} (hn : rs.length < n) (pre : Bytes) (i : ℕ)
    {s : RestoreState} (hpos : s.snapsPos = pre.length)
    (hlen : (pre ++ encodeLog rs).length ≤ maxLfsFilesize)
    (hfits : ∀ k r, (walked opts rs s.stdin)[k]? = some (r, true) → (outs (i + k)).Restores r →
      r.Fits s.dev) :
    ∃ t, restoreLoop opts outs (pre ++ encodeLog rs) n i s = (t, .leave) ∧
      headersRead t.log = headersRead s.log ++
        (recordStarts pre.length rs).take (walked opts rs s.stdin).length ∧
      writesDone t.log = writesDone s.log ++ dueWrites outs i (walked opts rs s.stdin) := by
  induction rs generalizing n pre i s with
  | nil =>
    obtain ⟨n, rfl⟩ := Nat.exists_eq_succ_of_ne_zero (Nat.ne_of_gt hn)
    have hend : (pre ++ encodeLog []).length < s.snapsPos + sizeofHdr := by
      simp [hpos, sizeofHdr]
    obtain ⟨pos, heof⟩ := restoreIter_eof opts (outs i) hend
    refine ⟨{ s with snapsPos := pos }, ?_, by simp [walked], by simp [walked, dueWrites]⟩
    rw [restoreLoop, heof]
  | cons r rs ih =>
    obtain ⟨n, rfl⟩ := Nat.exists_eq_succ_of_ne_zero (Nat.ne_of_gt (Nat.zero_lt_of_lt hn))
    have hassoc : pre ++ (r.encode ++ encodeLog rs) = (pre ++ r.encode) ++ encodeLog rs := by simp
    have hfirst : (walked opts (r :: rs) s.stdin)[0]? = some (r, (attempts opts r s.stdin).1) := rfl
    rw [encodeLog_cons] at hlen ⊢
    have hfit (hatt : (attempts opts r s.stdin).1 = true) (hdue : (outs i).Restores r) :
        r.Fits s.dev := hfits 0 r (by rw [hfirst, hatt]) hdue
    obtain ⟨u, hu, hwalk⟩ := restoreIter_walks hpos hlen (ho i) hfit
    have hmore (ws : List (Record × Bool)) :
        writesDone s.log ++ dueWrites outs i ((r, (attempts opts r s.stdin).1) :: ws) =
          writesDone u.log ++ dueWrites outs (i + 1) ws := by
      rw [hwalk.writes, dueWrites, List.append_assoc]
    rw [restoreLoop, hu, walked]
    by_cases hlast : ((attempts opts r s.stdin).1 && !opts.restoreAll) = true
    · rw [if_pos hlast, if_pos hlast]
      refine ⟨u, rfl, ?_, ?_⟩
      · simp [hwalk.headers, recordStarts, hpos]
      · rw [hmore, dueWrites, List.append_nil]
    · rw [if_neg hlast, if_neg hlast]
      have hpos' : u.snapsPos = (pre ++ r.encode).length := by
        rw [hwalk.pos, hpos, List.length_append]
      obtain ⟨t, ht, hthdr, htw⟩ := ih (by simpa using hn) (pre ++ r.encode) (i + 1) hpos'
        (by rw [← hassoc]; exact hlen) fun k q hk hdue => by
          have hcount : i + (k + 1) = i + 1 + k := by omega
          have hfit := hfits (k + 1) q (by
            rw [walked, if_neg hlast, List.getElem?_cons_succ, ← hwalk.stdin]
            exact hk) (by rw [hcount]; exact hdue)
          exact hfit.of_sameRoom hwalk.dev
      rw [hassoc]
      refine ⟨t, ht, ?_, ?_⟩
      · rw [hthdr, hwalk.headers, recordStarts, List.length_cons, List.take_succ_cons, hpos,
          hwalk.stdin, List.append_assoc, List.singleton_append, List.length_append]
      · rw [htw, hwalk.stdin, hmore]

/-- The arguments with which `write_snapblock` writes a record. -/
def Record.wargs (r : Record) : WriteSnapblockArgs := ⟨r.hdr, some r.ext, r.payload⟩

/-- A log is what complete calls of `write_snapblock` append one after the other. -/
theorem encodeLog_eq_wargs (rs : List Record) : encodeLog rs = rs.flatMap (·.wargs.bytes) := rfl

/-- On the bytes of any records `file_lookup` gets headers at the starts of the records
up to its first match, and `do_restore` at the starts of those it walks, whatever is
skipped, of an unknown type, not allocated or not read; it writes what is due. -/
theorem readers_walk_alike (rs : List Record)
    (hlen : (rs.flatMap (·.wargs.bytes)).length ≤ maxLfsFilesize) :
    (∀ b fuel, rs.length < fuel →
      fileLookup fuel (fun _ => true) b (rs.flatMap (·.wargs.bytes)) =
        some (decide (∃ r ∈ rs, r.blknr = b)) ∧
      fileLookupHeaders (fun _ => true) fuel b (rs.flatMap (·.wargs.bytes)) =
        (recordStarts 0 rs).take ((rs.takeWhile (·.blknr ≠ b)).length + 1)) ∧
    ∀ opts outs kind data stdin, (∀ i, (outs i).Usual) →
      (∀ i r, (walked opts rs stdin)[i]? = some (r, true) → (outs i).Restores r →
        r.Fits ⟨kind, data, 0⟩) →
      ∀ fuel, rs.length < fuel →
        ∃ t, doRestore opts outs fuel (rs.flatMap (·.wargs.bytes)) (.start kind data stdin) =
          some (t, true) ∧
        headersRead t.log = (recordStarts 0 rs).take (walked opts rs stdin).length ∧
        writesDone t.log = dueWrites outs 0 (walked opts rs stdin) := by
  simp only [← encodeLog_eq_wargs] at hlen ⊢
  constructor
  · intro b fuel hfuel
    exact ⟨fileLookup_log _ b (fun _ => rfl) hlen hfuel,
      fileLookupHeadersFrom_log _ b (fun _ => rfl) hfuel [] 0 hlen⟩
  · intro opts outs kind data stdin ho hfits fuel hfuel
    obtain ⟨t, ht, hthdr, htw⟩ := restoreLoop_walks opts outs ho hfuel [] 0
      (s := .start kind data stdin) rfl hlen fun i r hr hdue =>
        hfits i r hr (by rwa [Nat.zero_add] at hdue)
    refine ⟨t, ?_, hthdr, htw⟩
    rw [doRestore]
    simp only [List.nil_append] at ht
    rw [ht]

/-- A raw record with an extended header and an unknown record of another block. -/
def mixedRecords : List Record :=
  [⟨1, snapblockPayloadTypeRaw, [9], [5, 6], by decide⟩, ⟨2, 3, [], [7], by decide⟩]

theorem mixedRecords_fit (i : ℕ) (r : Record)
    (hi : (walked ⟨true, 0, false⟩ mixedRecords [])[i]? = some (r, true))
    (hdue : IterOutcomes.allDone.Restores r) : r.Fits ⟨.block, [0, 0, 0, 0], 0⟩ := by
  have hmem : (r, true) ∈ mixedRecords.map (·, true) := List.mem_of_getElem? hi
  simp only [mixedRecords, List.map_cons, List.map_nil, List.mem_cons, Prod.mk.injEq, and_true,
    List.not_mem_nil, or_false] at hmem
  rcases hmem with rfl | rfl
  · exact ⟨by decide, by unfold Device.HasRoom; decide⟩
  · exact absurd hdue (by decide)

theorem readers_walk_alike_mixed :
    (mixedRecords.flatMap (·.wargs.bytes)).length ≤ maxLfsFilesize ∧
    ∃ t, doRestore ⟨true, 0, false⟩ (fun _ => .allDone) 3 (mixedRecords.flatMap (·.wargs.bytes))
        (.start .block [0, 0, 0, 0] []) = some (t, true) ∧
      headersRead t.log = [0, 43] ∧ writesDone t.log = [(2, [5, 6])] :=
  ⟨by decide, (readers_walk_alike mixedRecords (by decide)).2 ⟨true, 0, false⟩ (fun _ => .allDone)
    .block [0, 0, 0, 0] [] (fun _ => ⟨rfl, .inl rfl, rfl⟩) mixedRecords_fit 3 (by decide)⟩

/-- With no call failing the tool gives up at a raw payload that one call cannot read. -/
theorem doRestore_oversized {opts : RestoreOpts} (hopts : opts.All) (r : Record)
    (hraw : r.payldType = snapblockPayloadTypeRaw) (hsize : maxRwCount < r.payload.length)
    (hlen : r.encode.length ≤ maxLfsFilesize) (kind : DeviceKind) (data stdin : Bytes) :
    ∃ t, doRestore opts (fun _ => .allDone) 1 r.encode (.start kind data stdin) =
      some (t, false) ∧ writesDone t.log = [] := by
  have hfile : ([] ++ (r.encode ++ []) : Bytes) = r.encode := by simp
  have hlen' : (([] : Bytes) ++ (r.encode ++ [])).length ≤ maxLfsFilesize := by rwa [hfile]
  have hread : IterOutcomes.allDone.headerRead.count sizeofHdr = some sizeofHdr := rfl
  have hmalloc : IterOutcomes.allDone.malloc = true := rfl
  have hcount : IterOutcomes.allDone.payloadRead.count (min r.payload.length maxRwCount) =
      some maxRwCount := by
    rw [min_eq_right hsize.le]
    rfl
  have htype : r.hdr.payldType = snapblockPayloadTypeRaw := hraw
  let u : RestoreState := { RestoreState.start kind data stdin with
    snapsPos := sizeofHdr + r.ext.length + maxRwCount }.emit (.header 0 r.hdr)
  have hiter : restoreIter opts .allDone ([] ++ (r.encode ++ [])) (.start kind data stdin) =
      (u, .exitFailure) := by
    rw [restoreIter_record opts .allDone r rfl, if_pos hread, restoreRecord_all hopts,
      restoreByType, if_pos htype, doRestoreRawblocks_record .allDone r rfl hlen', hmalloc,
      if_pos rfl, hcount]
    simp only
    rw [if_neg hsize.ne, List.length_nil, Nat.zero_add]
    rfl
  rw [hfile] at hiter
  refine ⟨u, ?_, rfl⟩
  rw [doRestore, restoreLoop, hiter]

/-- A raw record of `n` zeros for block 0. -/
def zeroRecord (n : ℕ) (h : sizeofHdr + n ≤ maxLfsFilesize) : Record :=
  .raw 0 (List.replicate n 0) (by rwa [List.length_replicate])

theorem zeroRecord_length (n : ℕ) (h : sizeofHdr + n ≤ maxLfsFilesize) :
    (zeroRecord n h).payload.length = n := List.length_replicate

theorem zeroRecord_due (n : ℕ) (h : sizeofHdr + n ≤ maxLfsFilesize) :
    dueWrites (fun _ => .allDone) 0 (walked ⟨true, 0, false⟩ [zeroRecord n h] []) =
      [(0, (zeroRecord n h).payload)] := by
  have hdue : IterOutcomes.allDone.Restores (zeroRecord n h) := ⟨rfl, rfl, rfl⟩
  have hblk : (zeroRecord n h).blknr = 0 := rfl
  simp [walked, attempts, dueWrites, dueWrite, hdue, hblk]

theorem sizeofHdr_add_oversized : sizeofHdr + (maxRwCount + 1) ≤ maxLfsFilesize := by decide

/-- A raw record for block 0 with one byte more than one call reads. -/
def oversizedRecord : Record := zeroRecord (maxRwCount + 1) sizeofHdr_add_oversized

/-- The record is selected and its write is due, but with no call failing the tool
gives up at it and writes nothing. -/
theorem not_readers_walk_alike :
    dueWrites (fun _ => .allDone) 0 (walked ⟨true, 0, false⟩ [oversizedRecord] []) =
      [(0, oversizedRecord.payload)] ∧
    ∃ t, doRestore ⟨true, 0, false⟩ (fun _ => .allDone) 1
        ([oversizedRecord].flatMap (·.wargs.bytes)) (.start .regular [] []) = some (t, false) ∧
      writesDone t.log = [] := by
  have hsize : oversizedRecord.payload.length = maxRwCount + 1 := zeroRecord_length _ _
  have hlen : oversizedRecord.encode.length ≤ maxLfsFilesize := by
    rw [Record.encode_length]
    exact oversizedRecord.fits
  refine ⟨zeroRecord_due _ _, ?_⟩
  rw [← encodeLog_eq_wargs, encodeLog_cons, encodeLog_nil, List.append_nil]
  exact doRestore_oversized ⟨rfl, rfl⟩ _ rfl (by rw [hsize]; exact Nat.lt_succ_self _) hlen
    .regular [] []

end BlkdevSnapshot

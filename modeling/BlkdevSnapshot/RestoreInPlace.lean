import BlkdevSnapshot.Machine
import BlkdevSnapshot.ReadersAgree

/-!
# Where the restore tool writes

The loop of `do_restore` as a machine whose labels are the outcomes of the system calls
of an iteration. The place of a record is the product of its block number and its
payload size as natural numbers; the tool seeks to that product as a 64-bit word, read
as a signed offset, and writes wherever the device then stands.
-/
namespace BlkdevSnapshot

/-- Where the payload of a record belongs on the device. -/
def SnapblockFileHdr.place (h : SnapblockFileHdr) : ℕ := h.blknr.toNat * h.payldsiz.toNat

/-- Every write starts at the place of the record whose header was read last. -/
def WritesAtPlace : Option SnapblockFileHdr → List RestoreEvent → Prop
  | _, [] => True
  | _, .header _ h :: es => WritesAtPlace (some h) es
  | last, .prompt _ _ :: es => WritesAtPlace last es
  | last, .write off _ :: es => (∃ h ∈ last, off = h.place) ∧ WritesAtPlace last es

instance decidableWritesAtPlace : (last : Option SnapblockFileHdr) → (es : List RestoreEvent) →
    Decidable (WritesAtPlace last es)
  | _, [] => isTrue trivial
  | _, .header _ h :: es => decidableWritesAtPlace (some h) es
  | last, .prompt _ _ :: es => decidableWritesAtPlace last es
  | last, .write off _ :: es =>
    have := decidableWritesAtPlace last es
    inferInstanceAs (Decidable ((∃ h ∈ last, off = h.place) ∧ WritesAtPlace last es))

/-- The loop of `do_restore` between two iterations: the state before the last one, the
state now, and how the last one ended. -/
structure RestoreRun where
  before : RestoreState
  cur : RestoreState
  flow : RestoreFlow

/-- The payload that `__do_restore_rawblocks` is going to write. -/
def payloadDue (o : IterOutcomes) (snaps : Bytes) (h : SnapblockFileHdr) (s : RestoreState) :
    Option Bytes :=
  if !o.malloc || 2 ^ 63 ≤ h.payldsiz.toNat then none
  else (sysRead o.payloadRead snaps (s.seekSnaps (h.payldOff - UInt64.ofNat sizeofHdr)).snapsPos
    h.payldsiz.toNat).filter fun buf => buf.length = h.payldsiz.toNat

/-- The record that an iteration of the loop is going to write, with its payload. -/
def writeDue (opts : RestoreOpts) (o : IterOutcomes) (snaps : Bytes) (s : RestoreState) :
    Option (SnapblockFileHdr × Bytes) :=
  (sysRead o.headerRead snaps s.snapsPos sizeofHdr).bind fun buf =>
    let h := SnapblockFileHdr.ofBytes buf
    if buf.length ≠ sizeofHdr ∨ h.magic ≠ snapblockMagic then none
    else if !opts.restoreAll && opts.restoreOnlyBlknum != h.blknr then none
    else if opts.ask && !isYes (fgets 10 s.stdin).1 then none
    else if h.payldType ≠ snapblockPayloadTypeRaw then none
    else (payloadDue o snaps h { s with snapsPos := s.snapsPos + buf.length }).map (h, ·)

/-- The loop of `do_restore`. -/
def restoreMachine (opts : RestoreOpts) (snaps : Bytes) : Machine RestoreRun IterOutcomes where
  init r := r.flow = .next ∧ r.before = r.cur ∧
    ∃ kind data stdin, data.length ≤ maxLfsFilesize ∧ r.cur = .start kind data stdin
  step r o :=
    if r.flow = .next then
      let iter := restoreIter opts o snaps r.cur
      some ⟨r.cur, iter.1, iter.2⟩
    else none

namespace RestoreRun

/-- The writes so far are at their places, and the last iteration left the bytes of the
device alone if the place of its record is no file offset or not on the device. -/
structure InPlace (r : RestoreRun) : Prop where
  writes : WritesAtPlace none r.cur.log
  outside : ∀ pos h es, r.cur.log = r.before.log ++ .header pos h :: es →
    (maxLfsFilesize < h.place ∨ r.before.dev.data.length ≤ h.place) →
    r.before.dev.data <+: r.cur.dev.data ∧
      (r.before.dev.kind = .block → r.cur.dev.data = r.before.dev.data)

/-- The place of a record that is about to be written is a file offset, and on a block
device no offset beyond its end. -/
def DueOnDevice (opts : RestoreOpts) (snaps : Bytes) (r : RestoreRun) (o : IterOutcomes) :
    Prop :=
  r.flow = .next → ∀ due ∈ writeDue opts o snaps r.cur, due.1.place ≤ maxLfsFilesize ∧
    (r.cur.dev.kind = .block → due.1.place ≤ r.cur.dev.data.length)

instance (opts : RestoreOpts) (snaps : Bytes) (r : RestoreRun) (o : IterOutcomes) :
    Decidable (r.DueOnDevice opts snaps o) := by
  unfold DueOnDevice
  infer_instance

end RestoreRun

section Log
variable {last : Option SnapblockFileHdr} {es fs : List RestoreEvent}

theorem writesAtPlace_append {q : Prop} (hfs : ∀ last, WritesAtPlace last fs ↔ q) :
    WritesAtPlace last (es ++ fs) ↔ WritesAtPlace last es ∧ q := by
  induction es generalizing last with
  | nil => simp [WritesAtPlace, hfs]
  | cons e es ih =>
    cases e with
    | header off h => exact ih
    | prompt b ans => exact ih
    | write off bytes => simp only [List.cons_append, WritesAtPlace, ih, and_assoc]

/-- What an iteration adds to the log in front of a write. -/
inductive Announces (h : SnapblockFileHdr) : List RestoreEvent → Prop where
  | silent (pos : ℕ) : Announces h [.header pos h]
  | asked (pos : ℕ) (ans : Bytes) : Announces h [.header pos h, .prompt h.blknr ans]

theorem Announces.writesAtPlace {h : SnapblockFileHdr} (hes : Announces h es) :
    WritesAtPlace last es := by
  cases hes <;> simp [WritesAtPlace]

theorem Announces.writesAtPlace_write {h : SnapblockFileHdr} (hes : Announces h es) (off : ℕ)
    (bytes : Bytes) : WritesAtPlace last (es ++ [.write off bytes]) ↔ off = h.place := by
  cases hes <;> simp [WritesAtPlace]

theorem Announces.header_eq {h g : SnapblockFileHdr} (hes : Announces h es) {pos : ℕ}
    {gs : List RestoreEvent} (heq : es ++ fs = .header pos g :: gs) : g = h := by
  cases hes <;> simp_all

end Log

section Device
variable {d : Device} {b n : UInt64}

/-- The size of the device is a file offset, and so is its offset, which on a block
device is not beyond the end. -/
structure Device.Stands (d : Device) : Prop where
  size_le : d.kind = .block → d.data.length ≤ maxLfsFilesize
  le_max : d.pos ≤ maxLfsFilesize
  le_size : d.kind = .block → d.pos ≤ d.data.length

theorem loff_lt (off : UInt64) : loff off < 2 ^ 63 := BitVec.toInt_lt

theorem Device.Stands.lseekSet (h : d.Stands) (off : UInt64) : (d.lseekSet off).Stands := by
  unfold Device.lseekSet
  split
  · exact h
  · rename_i hin
    obtain ⟨hneg, hpast⟩ := not_or.mp hin
    have hlt := loff_lt off
    refine ⟨h.size_le, ?_, fun hk => ?_⟩
    · simp only [maxLfsFilesize]
      omega
    · have hle : ¬ (d.data.length : ℤ) < loff off := fun hlt => hpast ⟨hk, hlt⟩
      simp only
      omega

theorem Device.lseekSet_data (d : Device) (off : UInt64) :
    (d.lseekSet off).data = d.data ∧ (d.lseekSet off).kind = d.kind := by
  unfold Device.lseekSet
  split <;> exact ⟨rfl, rfl⟩

theorem Device.Stands.write (h : d.Stands) (o : IoOutcome) (buf : Bytes) :
    (d.write o buf).1.Stands := by
  obtain ⟨hfit, hmax, hsize⟩ := h
  unfold Device.write
  cases hcount : o.count (min buf.length (min maxRwCount d.room)) with
  | none => exact ⟨hfit, hmax, hsize⟩
  | some k =>
    have hk := IoOutcome.count_le hcount
    have htake : (buf.take k).length = k := by
      rw [List.length_take]
      omega
    cases hkind : d.kind with
    | regular =>
      have hroom : d.room = maxLfsFilesize - d.pos := by rw [Device.room, hkind]
      refine ⟨fun hb => ?_, ?_, fun hb => ?_⟩
      · simp only [reduceCtorEq] at hb
      · simp only
        omega
      · simp only [reduceCtorEq] at hb
    | block =>
      have hroom : d.room = d.data.length - d.pos := by rw [Device.room, hkind]
      have hpos := hsize hkind
      have hlen : (overwrite d.data d.pos (buf.take k)).length = d.data.length :=
        overwrite_length (by omega)
      have hle := hfit hkind
      refine ⟨fun _ => ?_, ?_, fun _ => ?_⟩
      · rwa [hlen]
      · simp only
        omega
      · rw [hlen]
        simp only
        omega

/-- The seek leads to the product exactly when that is a file offset on the device. -/
theorem Device.Stands.lseekSet_pos_iff (h : d.Stands) :
    (d.lseekSet (b * n)).pos = b.toNat * n.toNat ↔
      b.toNat * n.toNat ≤ maxLfsFilesize ∧
        (d.kind = .block → b.toNat * n.toNat ≤ d.data.length) := by
  constructor
  · intro heq
    have hstands := h.lseekSet (b * n)
    have hle := hstands.le_max
    have hsize := hstands.le_size
    rw [heq] at hle hsize
    rw [(d.lseekSet_data _).1, (d.lseekSet_data _).2] at hsize
    exact ⟨hle, hsize⟩
  · rintro ⟨hle, hsize⟩
    simp only [maxLfsFilesize] at hle
    have hmul : (b * n).toNat = b.toNat * n.toNat := by
      rw [UInt64.toNat_mul, Nat.mod_eq_of_lt (by omega)]
    have hoff : loff (b * n) = ((b.toNat * n.toNat : ℕ) : ℤ) := by
      rw [loff_of_lt (by omega), hmul]
    have hin : ¬ (loff (b * n) < 0 ∨
        (d.kind = .block ∧ (d.data.length : ℤ) < loff (b * n))) := by
      rw [hoff]
      rintro (hneg | ⟨hk, hpast⟩)
      · omega
      · have := hsize hk
        omega
    rw [Device.lseekSet, if_neg hin, hoff, Int.toNat_natCast]

/-- Bytes put behind the end of a file leave its bytes as they are. -/
theorem prefix_overwrite {file buf : Bytes} {pos : ℕ} (h : file.length ≤ pos) :
    file <+: overwrite file pos buf := by
  unfold overwrite
  split
  · exact List.prefix_rfl
  · have htake : (file ++ List.replicate (pos - file.length) 0).take pos =
        file ++ List.replicate (pos - file.length) 0 := by
      refine List.take_of_length_le ?_
      rw [List.length_append, List.length_replicate]
      omega
    rw [htake, List.append_assoc, List.append_assoc]
    exact List.prefix_append _ _

/-- A write at or behind the end leaves the bytes of a device alone. -/
theorem Device.write_outside (o : IoOutcome) (buf : Bytes) (h : d.data.length ≤ d.pos) :
    d.data <+: (d.write o buf).1.data ∧
      (d.kind = .block → (d.write o buf).1.data = d.data) := by
  unfold Device.write
  cases hcount : o.count (min buf.length (min maxRwCount d.room)) with
  | none => exact ⟨List.prefix_rfl, fun _ => rfl⟩
  | some k =>
    refine ⟨prefix_overwrite h, fun hk => ?_⟩
    have hroom : d.room = 0 := by rw [Device.room, hk]; exact Nat.sub_eq_zero_of_le h
    have hzero : k = 0 := by
      have hle := IoOutcome.count_le hcount
      omega
    simp only [hzero, List.take_zero, overwrite_nil]

end Device

section Iter
variable {opts : RestoreOpts} {o : IterOutcomes} {snaps : Bytes} {h : SnapblockFileHdr}
  {s : RestoreState}

/-- Behind the announcement of a record either nothing happens to the device, or the
payload is written where the seek leads. -/
inductive RawEffect (o : IterOutcomes) (h : SnapblockFileHdr) (s t : RestoreState) :
    Option Bytes → Prop where
  | keeps (hdev : t.dev = s.dev) (hlog : t.log = s.log) : RawEffect o h s t none
  | writes (buf : Bytes)
      (hdev : t.dev = ((s.dev.lseekSet (h.blknr * h.payldsiz)).write o.devWrite buf).1)
      (hlog : ∃ bytes, t.log = s.log ++
        [.write (s.dev.lseekSet (h.blknr * h.payldsiz)).pos bytes]) :
      RawEffect o h s t (some buf)

theorem doRestoreRawblocks_effect (o : IterOutcomes) (snaps : Bytes) (h : SnapblockFileHdr)
    (s : RestoreState) :
    RawEffect o h s (doRestoreRawblocks o snaps h s).1 (payloadDue o snaps h s) := by
  unfold doRestoreRawblocks payloadDue
  by_cases hm : (!o.malloc || 2 ^ 63 ≤ h.payldsiz.toNat) = true
  · simp only [hm, if_true]
    exact .keeps rfl rfl
  · simp only [hm, Bool.false_eq_true, if_false]
    cases hread : sysRead o.payloadRead snaps
        (s.seekSnaps (h.payldOff - UInt64.ofNat sizeofHdr)).snapsPos h.payldsiz.toNat with
    | none => exact .keeps rfl rfl
    | some buf =>
      by_cases hlen : buf.length = h.payldsiz.toNat
      · simp only [hlen, ne_eq, not_true_eq_false, if_false, Option.filter_some, decide_true,
          if_true]
        exact .writes buf rfl ⟨_, rfl⟩
      · simp only [hlen, ne_eq, not_false_eq_true, if_true, Option.filter_some, decide_false,
          Bool.false_eq_true, if_false]
        exact .keeps rfl rfl

theorem askUser_log {log : List RestoreEvent} {pos : ℕ} (opts : RestoreOpts)
    (h : SnapblockFileHdr) (hlog : s.log = log ++ [.header pos h]) :
    ∃ es, (askUser opts h s).2.log = log ++ es ∧ Announces h es := by
  cases ha : opts.ask with
  | false => exact ⟨_, by simpa [askUser, ha] using hlog, .silent pos⟩
  | true =>
    refine ⟨[.header pos h, .prompt h.blknr (fgets 10 s.stdin).1], ?_, .asked pos _⟩
    simp [askUser, ha, RestoreState.emit, hlog]

/-- What one iteration does to the log and to the device, by the record that is due. -/
inductive IterEffect (o : IterOutcomes) (s t : RestoreState) :
    Option (SnapblockFileHdr × Bytes) → Prop where
  | stops (hdev : t.dev = s.dev) (hlog : t.log = s.log) : IterEffect o s t none
  | passes (h : SnapblockFileHdr) (hdev : t.dev = s.dev)
      (hlog : ∃ es, t.log = s.log ++ es ∧ Announces h es) : IterEffect o s t none
  | writes (h : SnapblockFileHdr) (buf : Bytes)
      (hdev : t.dev = ((s.dev.lseekSet (h.blknr * h.payldsiz)).write o.devWrite buf).1)
      (hlog : ∃ es bytes, t.log = s.log ++ (es ++
        [.write (s.dev.lseekSet (h.blknr * h.payldsiz)).pos bytes]) ∧ Announces h es) :
      IterEffect o s t (some (h, buf))

/-- The type of a record and the outcomes of its calls, behind its announcement. -/
theorem restoreByType_effect (o : IterOutcomes) (snaps : Bytes) {u : RestoreState}
    {es : List RestoreEvent} (hdev : u.dev = s.dev) (hlog : u.log = s.log ++ es)
    (hes : Announces h es) :
    IterEffect o s (restoreByType o snaps h u).1
      (if h.payldType ≠ snapblockPayloadTypeRaw then none
      else (payloadDue o snaps h u).map (h, ·)) := by
  unfold restoreByType
  by_cases hraw : h.payldType = snapblockPayloadTypeRaw
  · rw [if_pos hraw, if_neg (not_not.mpr hraw)]
    have heff := doRestoreRawblocks_effect o snaps h u
    generalize payloadDue o snaps h u = due at heff ⊢
    cases heff with
    | keeps hdev' hlog' => exact .passes h (hdev'.trans hdev) ⟨es, hlog'.trans hlog, hes⟩
    | writes buf hdev' hlog' =>
      obtain ⟨bytes, hlog'⟩ := hlog'
      rw [hdev] at hdev' hlog'
      exact .writes h buf hdev' ⟨es, bytes, by rw [hlog', hlog, List.append_assoc], hes⟩
  · rw [if_neg hraw, if_pos hraw]
    exact .passes h hdev ⟨es, hlog, hes⟩

/-- The payload depends on the position in the snapblocks file only. -/
theorem payloadDue_congr {u v : RestoreState} (hpos : u.snapsPos = v.snapsPos) :
    payloadDue o snaps h u = payloadDue o snaps h v := by
  simp only [payloadDue, RestoreState.seekSnaps, hpos]

theorem restoreIter_writeDue (opts : RestoreOpts) (o : IterOutcomes) (snaps : Bytes)
    (s : RestoreState) :
    IterEffect o s (restoreIter opts o snaps s).1 (writeDue opts o snaps s) := by
  unfold restoreIter writeDue
  cases hread : sysRead o.headerRead snaps s.snapsPos sizeofHdr with
  | none => exact .stops rfl rfl
  | some buf =>
    simp only [Option.bind_some]
    by_cases hmagic : buf.length ≠ sizeofHdr ∨
        (SnapblockFileHdr.ofBytes buf).magic ≠ snapblockMagic
    · rw [if_pos hmagic, if_pos hmagic]
      exact .stops rfl rfl
    · rw [if_neg hmagic, if_neg hmagic, restoreRecord_eq]
      generalize SnapblockFileHdr.ofBytes buf = h
      let u : RestoreState :=
        { s with snapsPos := s.snapsPos + buf.length }.emit (.header s.snapsPos h)
      have hulog : u.log = s.log ++ [.header s.snapsPos h] := rfl
      by_cases hsel : (!opts.restoreAll && opts.restoreOnlyBlknum != h.blknr) = true
      · rw [if_pos hsel, if_pos hsel]
        exact .passes h rfl ⟨_, hulog, .silent _⟩
      · rw [if_neg hsel, if_neg hsel]
        obtain ⟨es, hlog, hes⟩ := askUser_log opts h hulog
        have hdev : (askUser opts h u).2.dev = s.dev := askUser_dev h
        by_cases hno : (opts.ask && !isYes (fgets 10 s.stdin).1) = true
        · rw [if_pos hno]
          have hno' : (opts.ask && !isYes (fgets 10 u.stdin).1) = true := hno
          rw [if_pos hno']
          exact .passes h hdev ⟨es, hlog, hes⟩
        · rw [if_neg hno]
          have hno' : ¬ (opts.ask && !isYes (fgets 10 u.stdin).1) = true := hno
          rw [if_neg hno']
          have heff := restoreByType_effect o snaps hdev hlog hes
          have hpos : (askUser opts h u).2.snapsPos = s.snapsPos + buf.length := askUser_snapsPos h
          rw [payloadDue_congr (v := { s with snapsPos := s.snapsPos + buf.length }) hpos] at heff
          split
          · exact heff
          · exact heff

end Iter

namespace RestoreRun
variable {opts : RestoreOpts} {snaps : Bytes} {r r' : RestoreRun} {o : IterOutcomes}

/-- The invariant of guarded runs. -/
structure Inv (r : RestoreRun) : Prop where
  inPlace : r.InPlace
  stands : r.cur.dev.Stands

/-- An iteration writes in place exactly when the record that is due belongs there. -/
theorem Inv.step_iff (h : r.Inv) (hstep : (restoreMachine opts snaps).step r o = some r') :
    r'.cur.dev.Stands ∧ (r.DueOnDevice opts snaps o → r'.InPlace) ∧
      (¬ r.DueOnDevice opts snaps o → ¬ r'.InPlace) := by
  simp only [restoreMachine] at hstep
  split at hstep
  · rename_i hflow
    rw [Option.some.injEq] at hstep
    have heff := restoreIter_writeDue opts o snaps r.cur
    have hbefore : r'.before = r.cur := by rw [← hstep]
    have hcur : r'.cur = (restoreIter opts o snaps r.cur).1 := by rw [← hstep]
    rw [← hcur] at heff
    have hguard : r.DueOnDevice opts snaps o ↔ ∀ due ∈ writeDue opts o snaps r.cur,
        due.1.place ≤ maxLfsFilesize ∧
          (r.cur.dev.kind = .block → due.1.place ≤ r.cur.dev.data.length) := by
      simp only [DueOnDevice, hflow, true_implies]
    rw [hguard]
    generalize writeDue opts o snaps r.cur = due at heff ⊢
    have hkeeps {es : List RestoreEvent} (hdev : r'.cur.dev = r.cur.dev)
        (hlog : r'.cur.log = r.cur.log ++ es) (hes : ∀ last, WritesAtPlace last es) :
        r'.InPlace := by
      refine ⟨?_, fun _ _ _ _ _ => ?_⟩
      · rw [hlog]
        exact (writesAtPlace_append fun last => iff_of_true (hes last) trivial).mpr
          ⟨h.inPlace.writes, trivial⟩
      · rw [hdev, hbefore]
        exact ⟨List.prefix_rfl, fun _ => rfl⟩
    cases heff with
    | stops hdev hlog =>
      have hin : r'.InPlace :=
        hkeeps hdev (hlog.trans (List.append_nil _).symm) fun _ => trivial
      exact ⟨hdev ▸ h.stands, fun _ => hin, fun hbad => absurd (by simp) hbad⟩
    | passes g hdev hlog =>
      obtain ⟨es, hlog, hes⟩ := hlog
      have hin : r'.InPlace := hkeeps hdev hlog fun _ => hes.writesAtPlace
      exact ⟨hdev ▸ h.stands, fun _ => hin, fun hbad => absurd (by simp) hbad⟩
    | writes g buf hdev hlog =>
      obtain ⟨es, bytes, hlog, hes⟩ := hlog
      have hseek : (r.cur.dev.lseekSet (g.blknr * g.payldsiz)).pos = g.place ↔ _ :=
        h.stands.lseekSet_pos_iff
      have hwrites : WritesAtPlace none r'.cur.log ↔
          (r.cur.dev.lseekSet (g.blknr * g.payldsiz)).pos = g.place := by
        rw [hlog]
        exact (writesAtPlace_append fun last => hes.writesAtPlace_write _ bytes).trans
          (and_iff_right h.inPlace.writes)
      refine ⟨?_, fun hgood => ⟨?_, ?_⟩, fun hbad hin => hbad ?_⟩
      · rw [hdev]
        exact (h.stands.lseekSet _).write o.devWrite buf
      · exact hwrites.mpr (hseek.mpr (hgood (g, buf) rfl))
      · intro pos g' gs hsame hout
        obtain ⟨hmax, hsize⟩ := hgood (g, buf) rfl
        have hpos := hseek.mpr ⟨hmax, hsize⟩
        rw [hlog, hbefore, List.append_right_inj] at hsame
        obtain rfl : g' = g := hes.header_eq hsame
        obtain ⟨hdata, hkind⟩ := r.cur.dev.lseekSet_data (g'.blknr * g'.payldsiz)
        have hend := Device.write_outside o.devWrite buf
          (d := r.cur.dev.lseekSet (g'.blknr * g'.payldsiz))
        rw [hpos, hdata, hkind] at hend
        rw [hdev, hbefore]
        rw [hbefore] at hout
        exact hend (hout.resolve_left (Nat.not_lt.mpr hmax))
      · rintro due ⟨⟩
        exact hseek.mp (hwrites.mp hin.writes)
  · cases hstep

end RestoreRun

/-- The machine runs through the states of the loop of `do_restore`. -/
theorem restoreLoop_eq_run (opts : RestoreOpts) (outs : ℕ → IterOutcomes) (snaps : Bytes)
    {n i : ℕ} {r : RestoreRun} (hr : r.flow = .next) {t : RestoreState}
    (h : restoreLoop opts outs snaps n i r.cur = (t, .next)) :
    ∃ r', (restoreMachine opts snaps).run r ((List.range' i n).map outs) = some r' ∧
      r'.cur = t ∧ r'.flow = .next := by
  induction n generalizing i r with
  | zero =>
    simp only [restoreLoop, Prod.mk.injEq, and_true] at h
    exact ⟨r, rfl, h, hr⟩
  | succ n ih =>
    rw [restoreLoop] at h
    split at h
    · rename_i s' hiter
      obtain ⟨r', hrun, hr'⟩ := ih (r := ⟨r.cur, s', .next⟩) rfl h
      refine ⟨r', ?_, hr'⟩
      simp only [List.range'_succ, List.map_cons, Machine.run, restoreMachine, if_pos hr, hiter,
        Option.bind_some]
      exact hrun
    · simp at h
    · simp at h

/-- The tool writes every record at its place, and no record elsewhere, exactly in the
runs in which every record that is about to be written has its place on the device. -/
theorem restore_inPlace_iff {opts : RestoreOpts} {snaps : Bytes} {r : RestoreRun}
    (hr : (restoreMachine opts snaps).init r) (outs : List IterOutcomes) :
    (restoreMachine opts snaps).Throughout RestoreRun.InPlace r outs ↔
      (restoreMachine opts snaps).Meets (RestoreRun.DueOnDevice opts snaps) r outs := by
  obtain ⟨-, hbefore, kind, data, stdin, hsize, hcur⟩ := hr
  have hinv : r.Inv := by
    refine ⟨⟨by simp [hcur, RestoreState.start, WritesAtPlace], fun _ _ _ _ _ => ?_⟩, ?_⟩
    · rw [hbefore]
      exact ⟨List.prefix_rfl, fun _ => rfl⟩
    · rw [hcur]
      exact ⟨fun _ => hsize, Nat.zero_le _, fun _ => Nat.zero_le _⟩
  refine Machine.throughout_iff_meets (I := RestoreRun.Inv) (fun _ h => h.inPlace)
    (fun r o r' h hgood hstep => ?_) (fun r o h hbad => ?_) hinv outs
  · obtain ⟨hstands, hin, -⟩ := h.step_iff hstep
    exact ⟨hin hgood, hstands⟩
  · have hflow : r.flow = .next := by
      by_contra hflow
      exact hbad fun hnext => absurd hnext hflow
    have hstep : (restoreMachine opts snaps).step r o =
        some ⟨r.cur, (restoreIter opts o snaps r.cur).1, (restoreIter opts o snaps r.cur).2⟩ := by
      simp only [restoreMachine, if_pos hflow]
    exact ⟨_, hstep, (h.step_iff hstep).2.2 hbad⟩

theorem pair_fits (a b : UInt8) : sizeofHdr + [a, b].length ≤ maxLfsFilesize := by
  simp [sizeofHdr, maxLfsFilesize]

/-- A raw record of two bytes. -/
def Record.pair (blknr : UInt64) (a b : UInt8) : Record := .raw blknr [a, b] (pair_fits a b)

/-- Two records; the second one belongs at offset 18. -/
def farRecords : Bytes := encodeLog [.pair 1 1 2, .pair 9 3 4]

/-- The tool in front of a device of the given size. -/
def RestoreRun.onZeros (kind : DeviceKind) (size : ℕ) : RestoreRun :=
  let s := RestoreState.start kind (List.replicate size 0) []
  ⟨s, s, .next⟩

theorem RestoreRun.onZeros_init (opts : RestoreOpts) (snaps : Bytes) (kind : DeviceKind)
    {size : ℕ} (h : size ≤ maxLfsFilesize) :
    (restoreMachine opts snaps).init (.onZeros kind size) :=
  ⟨rfl, rfl, kind, List.replicate size 0, [], by rwa [List.length_replicate], rfl⟩

/-- On a device that is large enough both records are restored in place. -/
theorem restore_inPlace_far :
    (restoreMachine ⟨true, 0, false⟩ farRecords).Throughout RestoreRun.InPlace
      (.onZeros .block 20) [.allDone, .allDone] :=
  (restore_inPlace_iff (RestoreRun.onZeros_init _ _ .block (by decide)) _).mpr (by decide +kernel)

/-- On a smaller one the seek fails, and the second record overwrites what lies behind
the first one. -/
theorem not_restore_inPlace :
    (restoreMachine ⟨true, 0, false⟩ farRecords).init (.onZeros .block 8) ∧
    ((restoreMachine ⟨true, 0, false⟩ farRecords).run (.onZeros .block 8)
      [.allDone, .allDone]).map (fun r => r.cur.dev.data) = some [0, 0, 1, 2, 3, 4, 0, 0] ∧
    ¬ (restoreMachine ⟨true, 0, false⟩ farRecords).Throughout RestoreRun.InPlace
      (.onZeros .block 8) [.allDone, .allDone] := by
  refine ⟨RestoreRun.onZeros_init _ _ .block (by decide), by decide +kernel, fun h => ?_⟩
  have hlast := h.run (Machine.run_eq_getD _ _ _ (by decide +kernel))
  exact absurd hlast.writes (by decide +kernel)

end BlkdevSnapshot

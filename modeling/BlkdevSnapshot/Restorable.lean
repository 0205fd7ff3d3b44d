import BlkdevSnapshot.HeaderList
import BlkdevSnapshot.ReadersAgree

/-!
# Whether a recorded block can be restored

`file_lookup` looks at headers only, `do_restore` also needs the payload. Both start with
the headers that lie one behind the other in the file; a block that the kernel takes for
recorded is restored if its payload is there and the tool gets that far. The allocation
of each buffer of the tool may fail.
-/
namespace BlkdevSnapshot
open PartialWalk

/-- The payload of a header at `pos` lies in the file and one call reads it. -/
def PayloadWhole (snaps : Bytes) (pos : ℕ) (h : SnapblockFileHdr) : Prop :=
  (readAt snaps (payloadPos pos h) h.payldsiz.toNat).length = h.payldsiz.toNat

instance (snaps : Bytes) (pos : ℕ) (h : SnapblockFileHdr) : Decidable (PayloadWhole snaps pos h) :=
  inferInstanceAs (Decidable (_ = _))

/-- Every system call of an iteration succeeds, the allocation as given. -/
def IterOutcomes.fromMalloc (ok : Bool) : IterOutcomes := ⟨.done, ok, .done, .done⟩

section Condition
variable (malloc : ℕ → Bool) (snaps : Bytes) (b : UInt64)

/-- Iteration `i` writes the payload of its header at `pos`. -/
def RestoredBy (i pos : ℕ) (h : SnapblockFileHdr) : Prop :=
  h.payldType = snapblockPayloadTypeRaw ∧ malloc i = true ∧ PayloadWhole snaps pos h

/-- Iteration `i` does not end the tool at its header at `pos`. -/
def PassedBy (i pos : ℕ) (h : SnapblockFileHdr) : Prop :=
  h.payldType = snapblockPayloadTypeRaw → malloc i = true → PayloadWhole snaps pos h

/-- Some of the headers `es` is a header of `b` that the tool restores, and the tool passes those
in front of it. The first of them is that of iteration `k`. -/
def KeptFrom (k : ℕ) (es : List (ℕ × SnapblockFileHdr)) : Prop :=
  ∃ before e after, es = before ++ e :: after ∧ e.2.blknr = b ∧
    RestoredBy malloc snaps (k + before.length) e.1 e.2 ∧
    ∀ p ∈ before.zipIdx k, PassedBy malloc snaps p.2 p.1.1 p.1.2

/-- The next iteration and its offset in `do_restore -c` when no call but `malloc` fails:
behind a record of an unknown type, behind a payload that is whole, and behind one without a
buffer. -/
def passNext (c : ℕ × ℕ) : Option (ℕ × ℕ) :=
  match headerAt snaps c.2 with
  | none => none
  | some h =>
    if h.payldType ≠ snapblockPayloadTypeRaw then some (c.1 + 1, skipPos c.2 h)
    else if (malloc c.1 = false ∨ 2 ^ 63 ≤ h.payldsiz.toNat) ∨ PayloadWhole snaps c.2 h then
      some (c.1 + 1, passPos c.2 h)
    else none

/-- An iteration writes the payload of a header of `b`. -/
def RestorableAt (c : ℕ × ℕ) : Prop :=
  ∃ h, headerAt snaps c.2 = some h ∧ h.blknr = b ∧ RestoredBy malloc snaps c.1 c.2 h

/-- The tool comes to a header of `b` that it restores. -/
def OnRestoreChain : Prop := Comes (passNext malloc snaps) (RestorableAt malloc snaps b) (0, 0)

/-- The tool passes all of the headers `es`, the first of which is that of iteration `k`, and is
led astray by the last one, to a header of `b` that it restores. -/
def RestoreStrays (k : ℕ) (es : List (ℕ × SnapblockFileHdr)) : Prop :=
  ∃ before e c, es = before ++ [e] ∧ ¬ PointsAhead e ∧
    (∀ p ∈ before.zipIdx k, PassedBy malloc snaps p.2 p.1.1 p.1.2) ∧
    passNext malloc snaps (k + before.length, e.1) = some c ∧
    Comes (passNext malloc snaps) (RestorableAt malloc snaps b) c

/-- What the bytes of a file have to look like: a header of `b` that the tool restores lies in
front of the first payload that is missing, or no header names `b`. A last header that points
into itself or past the largest offset can lead a reader astray to one. -/
def Recoverable : Prop :=
  KeptFrom malloc snaps b 0 (headers snaps) ∨
    (∀ e ∈ headers snaps, e.2.blknr ≠ b) ∧ ¬ LookupStrays snaps b (headers snaps) ∨
    RestoreStrays malloc snaps b 0 (headers snaps)

end Condition

/-- Some iteration of the loop reads a header of `b` and writes its payload at the block. -/
def Restores (opts : RestoreOpts) (outs : ℕ → IterOutcomes) (snaps : Bytes) (b : UInt64)
    (s₀ : RestoreState) : Prop :=
  ∃ n s, restoreLoop opts outs snaps n 0 s₀ = (s, .next) ∧
    ∃ pos h bytes, h.blknr = b ∧ bytes.length = h.payldsiz.toNat ∧
      (restoreIter opts (outs n) snaps s).1.log =
        s.log ++ [.header pos h, .write (b.toNat * h.payldsiz.toNat) bytes]

section Iter
variable {snaps : Bytes} {pos : ℕ} {h : SnapblockFileHdr} {s : RestoreState}

theorem PayloadWhole.le_maxRwCount (hw : PayloadWhole snaps pos h) :
    h.payldsiz.toNat ≤ maxRwCount := by
  rw [← hw, readAt, List.length_take]
  omega

/-- The bytes that one read finds at the payload of a header at `pos`. -/
def payloadAt (snaps : Bytes) (pos : ℕ) (h : SnapblockFileHdr) : Bytes :=
  readAt snaps (payloadPos pos h) h.payldsiz.toNat

/-- `__do_restore_rawblocks` behind a header at `pos`, when no call but `malloc` fails. -/
theorem doRestoreRawblocks_fromMalloc (ok : Bool) (hpos : s.snapsPos = pos + sizeofHdr) :
    doRestoreRawblocks (.fromMalloc ok) snaps h s =
      if ok = false ∨ 2 ^ 63 ≤ h.payldsiz.toNat then ({ s with snapsPos := passPos pos h }, .next)
      else if PayloadWhole snaps pos h then
        let w := (s.dev.lseekSet (h.blknr * h.payldsiz)).write .done (payloadAt snaps pos h)
        ({ s with
            snapsPos := payloadPos pos h + (payloadAt snaps pos h).length
            dev := w.1 }.emit (.write (s.dev.lseekSet (h.blknr * h.payldsiz)).pos
              ((payloadAt snaps pos h).take (w.2.getD 0))),
          if w.2 = some (payloadAt snaps pos h).length then .next else .exitFailure)
      else ({ s with snapsPos := payloadPos pos h + (payloadAt snaps pos h).length },
        .exitFailure) := by
  have hread (p n : ℕ) : sysRead .done snaps p n = some (readAt snaps p n) := by
    simp [sysRead, IoOutcome.count]
  simp only [doRestoreRawblocks, RestoreState.seekSnaps, hpos, IterOutcomes.fromMalloc, hread,
    Bool.or_eq_true, Bool.not_eq_true', decide_eq_true_eq, ne_eq, ite_not, passPos, payloadAt,
    payloadPos, PayloadWhole]
  rfl

theorem PayloadWhole.size_lt (hw : PayloadWhole snaps pos h) : h.payldsiz.toNat < 2 ^ 63 := by
  have hrw := hw.le_maxRwCount
  simp only [maxRwCount] at hrw
  omega

theorem doRestoreRawblocks_whole (hlen : snaps.length ≤ maxLfsFilesize)
    (hpos : s.snapsPos = pos + sizeofHdr) (hw : PayloadWhole snaps pos h)
    (hroom : s.dev.HasRoom h.blknr h.payldsiz) :
    ∃ t, doRestoreRawblocks (.fromMalloc true) snaps h s = (t, .next) ∧
      t.snapsPos = passPos pos h ∧ s.dev.SameRoom t.dev ∧ t.log = s.log ++
        [.write (h.blknr.toNat * h.payldsiz.toNat) (payloadAt snaps pos h)] := by
  have hlength : (payloadAt snaps pos h).length = h.payldsiz.toNat := hw
  obtain ⟨hfull, hsame⟩ := hroom.write hlength (hlength.le.trans hw.le_maxRwCount)
  rw [doRestoreRawblocks_fromMalloc true hpos,
    if_neg (not_or.mpr ⟨Bool.noConfusion, not_le.mpr hw.size_lt⟩), if_pos hw]
  simp only [hfull, if_true]
  refine ⟨_, rfl, ?_, hsame, ?_⟩
  · rw [RestoreState.emit, hlength]
    exact readAt_full_end hlen hw
  · rw [RestoreState.emit, Option.getD_some, List.take_length, hroom.lseekSet]

/-- Without an acceptable header the loop ends. -/
theorem restoreIter_headerAt_none (opts : RestoreOpts) (o : IterOutcomes)
    (hh : headerAt snaps s.snapsPos = none) :
    ∃ t, restoreIter opts o snaps s = (t, .leave) ∧ t.log = s.log := by
  unfold restoreIter
  cases hread : sysRead o.headerRead snaps s.snapsPos sizeofHdr with
  | none => exact ⟨s, rfl, rfl⟩
  | some buf =>
    simp only
    split
    · exact ⟨_, rfl, rfl⟩
    · rename_i hok
      have hbuf := sysRead_full hread (by tauto)
      rw [hbuf] at hok
      rw [headerAt, if_neg hok] at hh
      cases hh

variable {malloc : ℕ → Bool} {i : ℕ}

theorem passNext_raw (malloc : ℕ → Bool) (i : ℕ) (hh : headerAt snaps pos = some h)
    (hraw : h.payldType = snapblockPayloadTypeRaw) :
    passNext malloc snaps (i, pos) =
      if (malloc i = false ∨ 2 ^ 63 ≤ h.payldsiz.toNat) ∨ PayloadWhole snaps pos h then
        some (i + 1, passPos pos h)
      else none := by
  simp only [passNext, hh, hraw, ne_eq, not_true_eq_false, if_false]

/-- What iteration `i` does in restore-all, no-ask mode when no call but `malloc` fails. -/
inductive PassEffect (malloc : ℕ → Bool) (snaps : Bytes) (i : ℕ) (s t : RestoreState) :
    RestoreFlow → Prop where
  | done (hh : headerAt snaps s.snapsPos = none) (hlog : t.log = s.log) :
      PassEffect malloc snaps i s t .leave
  | passed (h : SnapblockFileHdr) (hh : headerAt snaps s.snapsPos = some h)
      (hkind : ¬ RestoredBy malloc snaps i s.snapsPos h)
      (hpos : passNext malloc snaps (i, s.snapsPos) = some (i + 1, t.snapsPos))
      (hdev : s.dev.SameRoom t.dev) (hlog : t.log = s.log ++ [.header s.snapsPos h]) :
      PassEffect malloc snaps i s t .next
  | cut (h : SnapblockFileHdr) (hh : headerAt snaps s.snapsPos = some h)
      (hnext : passNext malloc snaps (i, s.snapsPos) = none)
      (hcut : ¬ RestoredBy malloc snaps i s.snapsPos h)
      (hlog : t.log = s.log ++ [.header s.snapsPos h]) : PassEffect malloc snaps i s t .exitFailure
  | wrote (h : SnapblockFileHdr) (hh : headerAt snaps s.snapsPos = some h)
      (hrestored : RestoredBy malloc snaps i s.snapsPos h)
      (hpos : passNext malloc snaps (i, s.snapsPos) = some (i + 1, t.snapsPos))
      (hdev : s.dev.SameRoom t.dev)
      (hlog : t.log = s.log ++ [.header s.snapsPos h,
        .write (h.blknr.toNat * h.payldsiz.toNat) (payloadAt snaps s.snapsPos h)]) :
      PassEffect malloc snaps i s t .next

theorem restoreIter_passEffect (malloc : ℕ → Bool) {opts : RestoreOpts} (hopts : opts.All)
    (hlen : snaps.length ≤ maxLfsFilesize)
    (hroom : ∀ h, headerAt snaps s.snapsPos = some h → RestoredBy malloc snaps i s.snapsPos h →
      s.dev.HasRoom h.blknr h.payldsiz) :
    PassEffect malloc snaps i s (restoreIter opts (.fromMalloc (malloc i)) snaps s).1
      (restoreIter opts (.fromMalloc (malloc i)) snaps s).2 := by
  cases hh : headerAt snaps s.snapsPos with
  | none =>
    obtain ⟨t, ht, hlog⟩ := restoreIter_headerAt_none opts (.fromMalloc (malloc i)) hh
    rw [ht]
    exact .done hh hlog
  | some h =>
    let u : RestoreState :=
      { s with snapsPos := s.snapsPos + sizeofHdr }.emit (.header s.snapsPos h)
    rw [restoreIter_headerAt rfl hh, restoreRecord_all hopts, restoreByType]
    by_cases hraw : h.payldType = snapblockPayloadTypeRaw
    · have hnext := passNext_raw malloc i hh hraw
      rw [if_pos hraw]
      by_cases hbuffer : malloc i = false ∨ 2 ^ 63 ≤ h.payldsiz.toNat
      · rw [doRestoreRawblocks_fromMalloc (s := u) _ rfl, if_pos hbuffer]
        refine .passed h hh (fun hrestored => ?_) ?_ (.refl _) rfl
        · rcases hbuffer with hno | hsize
          · simp [hrestored.2.1] at hno
          · exact not_le.mpr hrestored.2.2.size_lt hsize
        · rw [hnext, if_pos (.inl hbuffer)]
      · have hok : malloc i = true := by
          simpa using (not_or.mp hbuffer).1
        by_cases hw : PayloadWhole snaps s.snapsPos h
        · obtain ⟨t, ht, hpos, hdev, hlog⟩ :=
            doRestoreRawblocks_whole (s := u) hlen rfl hw (hroom h hh ⟨hraw, hok, hw⟩)
          rw [hok, ht]
          refine .wrote h hh ⟨hraw, hok, hw⟩ ?_ hdev ?_
          · rw [hnext, if_pos (.inr hw), hpos]
          · rw [hlog]
            simp [u, RestoreState.emit]
        · rw [doRestoreRawblocks_fromMalloc (s := u) _ rfl, if_neg hbuffer, if_neg hw]
          refine .cut h hh ?_ (fun hrestored => hw hrestored.2.2) rfl
          rw [hnext, if_neg (not_or.mpr ⟨hbuffer, hw⟩)]
    · rw [if_neg hraw]
      refine .passed h hh (fun hrestored => hraw hrestored.1) ?_ (.refl _) rfl
      simp [passNext, hh, hraw, RestoreState.seekNexthdr, RestoreState.seekSnaps,
        RestoreState.emit, skipPos]

end Iter

/-- The device holds the block of every payload that the tool restores. -/
def LargeEnough (malloc : ℕ → Bool) (snaps : Bytes) (d : Device) : Prop :=
  ∀ n c h, walk (passNext malloc snaps) n (0, 0) = some c → headerAt snaps c.2 = some h →
    RestoredBy malloc snaps c.1 c.2 h → d.HasRoom h.blknr h.payldsiz

section Loop
variable {opts : RestoreOpts} {malloc : ℕ → Bool} {snaps : Bytes}

/-- On a large enough device the loop goes on exactly along the chain. -/
theorem restoreLoop_pass (hopts : opts.All) (hlen : snaps.length ≤ maxLfsFilesize) {d : Device}
    (hd : LargeEnough malloc snaps d) (n m i : ℕ) {s : RestoreState} (hdev : d.SameRoom s.dev)
    (hs : walk (passNext malloc snaps) m (0, 0) = some (i, s.snapsPos)) :
    (∀ t, restoreLoop opts (fun i => .fromMalloc (malloc i)) snaps n i s = (t, .next) →
      walk (passNext malloc snaps) n (i, s.snapsPos) = some (i + n, t.snapsPos) ∧
        d.SameRoom t.dev) ∧
    ∀ c, walk (passNext malloc snaps) n (i, s.snapsPos) = some c →
      ∃ t, restoreLoop opts (fun i => .fromMalloc (malloc i)) snaps n i s = (t, .next) ∧
        (i + n, t.snapsPos) = c := by
  induction n generalizing m i s with
  | zero =>
    constructor
    · intro t ht
      obtain rfl : s = t := congrArg Prod.fst ht
      exact ⟨rfl, hdev⟩
    · intro c hc
      exact ⟨s, rfl, Option.some.inj hc⟩
  | succ n ih =>
    have heff := restoreIter_passEffect malloc (i := i) (s := s) hopts hlen
      fun h hh hrestored => hdev.hasRoom (hd m (i, s.snapsPos) h hs hh hrestored)
    have hgo (t : RestoreState)
        (hpos : passNext malloc snaps (i, s.snapsPos) = some (i + 1, t.snapsPos))
        (ht : s.dev.SameRoom t.dev) := ih (m + 1) (i + 1) (hdev.trans ht) (by
      rw [walk_add, hs, Option.bind_some, walk, hpos, Option.bind_some, walk])
    have hshift : i + (n + 1) = i + 1 + n := by omega
    rw [restoreLoop, walk, hshift]
    cases hiter : restoreIter opts (.fromMalloc (malloc i)) snaps s with
    | mk t flow =>
      rw [hiter] at heff
      cases heff with
      | done hh hlog =>
        have hnone : passNext malloc snaps (i, s.snapsPos) = none := by rw [passNext, hh]
        simp [hnone]
      | passed h hh hkind hpos hdev' hlog =>
        rw [hpos, Option.bind_some]
        exact hgo t hpos hdev'
      | cut h hh hnone hcut hlog => simp [hnone]
      | wrote h hh hrestored hpos hdev' hlog =>
        rw [hpos, Option.bind_some]
        exact hgo t hpos hdev'

/-- The tool restores a block exactly when it comes to a header of it that it restores. -/
theorem restores_iff (hopts : opts.All) (hlen : snaps.length ≤ maxLfsFilesize) (b : UInt64)
    {kind : DeviceKind} {data : Bytes} (stdin : Bytes)
    (hd : LargeEnough malloc snaps ⟨kind, data, 0⟩) :
    Restores opts (fun i => .fromMalloc (malloc i)) snaps b (.start kind data stdin) ↔
      OnRestoreChain malloc snaps b := by
  have hloop (n : ℕ) := restoreLoop_pass hopts hlen hd n 0 0 (s := .start kind data stdin)
    (.refl _) rfl
  simp only [Nat.zero_add] at hloop
  have heffect {n : ℕ} {s : RestoreState}
      (hs : walk (passNext malloc snaps) n (0, 0) = some (n, s.snapsPos))
      (hdev : Device.SameRoom ⟨kind, data, 0⟩ s.dev) :=
    restoreIter_passEffect malloc (i := n) (s := s) hopts hlen
      fun h hh hrestored => hdev.hasRoom (hd n (n, s.snapsPos) h hs hh hrestored)
  constructor
  · rintro ⟨n, s, hs, pos, h, bytes, hb, -, hlog⟩
    obtain ⟨hwalk, hdev⟩ := (hloop n).1 s hs
    refine ⟨n, (n, s.snapsPos), hwalk, ?_⟩
    have heff := heffect hwalk hdev
    revert hlog heff
    cases restoreIter opts (.fromMalloc (malloc n)) snaps s with
    | mk t flow =>
      intro hlog heff
      cases heff with
      | done hh hl => exact absurd (hl.symm.trans hlog) (by simp)
      | passed g hh hkind hpos hdev' hl => exact absurd (hl.symm.trans hlog) (by simp)
      | cut g hh hnone hcut hl => exact absurd (hl.symm.trans hlog) (by simp)
      | wrote g hh hrestored hpos hdev' hl =>
        have hevents := List.append_cancel_left (hl.symm.trans hlog)
        simp only [List.cons.injEq, RestoreEvent.header.injEq] at hevents
        obtain ⟨⟨-, rfl⟩, -⟩ := hevents
        exact ⟨g, hh, hb, hrestored⟩
  · rintro ⟨n, c, hwalk, h, hh, hb, hrestored⟩
    obtain ⟨s, hs, rfl⟩ := (hloop n).2 c hwalk
    refine ⟨n, s, hs, s.snapsPos, h, payloadAt snaps s.snapsPos h, hb, hrestored.2.2, ?_⟩
    have heff := heffect hwalk ((hloop n).1 s hs).2
    cases hiter : restoreIter opts (.fromMalloc (malloc n)) snaps s with
    | mk t flow =>
      rw [hiter] at heff
      cases heff with
      | done hh' hl => simp [hh'] at hh
      | passed g hg hkind hpos hdev' hl =>
        obtain rfl : g = h := Option.some.inj (hg.symm.trans hh)
        exact absurd hrestored hkind
      | cut g hg hnone hcut hl =>
        obtain rfl : g = h := Option.some.inj (hg.symm.trans hh)
        exact absurd hrestored hcut
      | wrote g hg hrestored' hpos hdev' hl =>
        obtain rfl : g = h := Option.some.inj (hg.symm.trans hh)
        rw [← hb]
        exact hl

end Loop

/-! ## The headers that the tool comes to -/

section Kept
variable {malloc : ℕ → Bool} {snaps : Bytes} {b : UInt64} {i pos : ℕ} {h : SnapblockFileHdr}

theorem not_keptFrom_nil : ¬ KeptFrom malloc snaps b i [] := by
  rintro ⟨before, e, after, hsplit, -⟩
  simp at hsplit

/-- The first header is restored, or it is passed and a later one is. -/
theorem keptFrom_cons {e : ℕ × SnapblockFileHdr} {es : List (ℕ × SnapblockFileHdr)} :
    KeptFrom malloc snaps b i (e :: es) ↔
      (e.2.blknr = b ∧ RestoredBy malloc snaps i e.1 e.2) ∨
        (PassedBy malloc snaps i e.1 e.2 ∧ KeptFrom malloc snaps b (i + 1) es) := by
  constructor
  · rintro ⟨before, e', after, hsplit, hb, hrestored, hpassed⟩
    cases before with
    | nil =>
      obtain ⟨rfl, rfl⟩ := List.cons.inj hsplit
      exact .inl ⟨hb, hrestored⟩
    | cons f before =>
      obtain ⟨rfl, rfl⟩ := List.cons.inj hsplit
      rw [List.zipIdx_cons] at hpassed
      refine .inr ⟨hpassed _ List.mem_cons_self, before, e', after, rfl, hb, ?_, fun p hp =>
        hpassed p (List.mem_cons_of_mem _ hp)⟩
      rwa [List.length_cons, Nat.add_comm _ 1, ← Nat.add_assoc] at hrestored
  · rintro (⟨hb, hrestored⟩ | ⟨hpass, before, e', after, rfl, hb, hrestored, hpassed⟩)
    · exact ⟨[], e, es, rfl, hb, hrestored, by simp⟩
    · refine ⟨e :: before, e', after, rfl, hb, ?_, fun p hp => ?_⟩
      · rwa [List.length_cons, Nat.add_comm _ 1, ← Nat.add_assoc]
      · rw [List.zipIdx_cons] at hp
        rcases List.mem_cons.mp hp with rfl | hp
        · exact hpass
        · exact hpassed p hp

section Ahead
variable (hahead : PointsAhead (pos, h))
include hahead

theorem PointsAhead.skipPos_eq : skipPos pos h = pos + h.payldOff.toNat + h.payldsiz.toNat := by
  obtain ⟨hoff, hend⟩ := hahead
  simp only [sizeofHdr, maxLfsFilesize] at hoff hend
  have hsum : (h.payldOff + h.payldsiz - UInt64.ofNat sizeofHdr).toNat =
      h.payldOff.toNat + h.payldsiz.toNat - 40 := by
    have hsize : (UInt64.ofNat sizeofHdr).toNat = 40 := rfl
    rw [UInt64.toNat_sub, UInt64.toNat_add, hsize]
    omega
  rw [skipPos, lseekCur_of_le, hsum]
  · simp only [sizeofHdr]
    omega
  · rw [hsum]
    simp only [sizeofHdr, maxLfsFilesize]
    omega

theorem PointsAhead.payloadPos_eq : payloadPos pos h = pos + h.payldOff.toNat := by
  obtain ⟨hoff, hend⟩ := hahead
  simp only [sizeofHdr, maxLfsFilesize] at hoff hend
  have hdiff : (h.payldOff - UInt64.ofNat sizeofHdr).toNat = h.payldOff.toNat - 40 := by
    have hsize : (UInt64.ofNat sizeofHdr).toNat = 40 := rfl
    rw [UInt64.toNat_sub, hsize]
    omega
  rw [payloadPos, lseekCur_of_le, hdiff]
  · simp only [sizeofHdr]
    omega
  · rw [hdiff]
    simp only [sizeofHdr, maxLfsFilesize]
    omega

theorem PointsAhead.passPos_eq : passPos pos h = pos + h.payldOff.toNat + h.payldsiz.toNat := by
  rw [passPos, hahead.payloadPos_eq, lseekCur_of_le _ _ hahead.2]

theorem PointsAhead.size_lt : h.payldsiz.toNat < 2 ^ 63 := by
  have hend := hahead.2
  simp only [maxLfsFilesize] at hend
  omega

/-- The tool passes a header that points ahead to the offset that it announces. -/
theorem passNext_of_pointsAhead (hh : headerAt snaps pos = some h) (c : ℕ × ℕ) :
    passNext malloc snaps (i, pos) = some c ↔ PassedBy malloc snaps i pos h ∧
      (i + 1, pos + h.payldOff.toNat + h.payldsiz.toNat) = c := by
  by_cases hraw : h.payldType = snapblockPayloadTypeRaw
  · rw [passNext_raw malloc i hh hraw, hahead.passPos_eq, PassedBy]
    by_cases hok : malloc i = true
    · by_cases hw : PayloadWhole snaps pos h
      · simp [hraw, hok, hw]
      · have hends : ¬ ((malloc i = false ∨ 2 ^ 63 ≤ h.payldsiz.toNat) ∨
            PayloadWhole snaps pos h) := by
          simp only [hok, hw, not_le.mpr hahead.size_lt, Bool.true_eq_false, or_self,
            not_false_eq_true]
        rw [if_neg hends]
        simp [hraw, hok, hw]
    · simp [hraw, hok]
  · simp [passNext, hh, hraw, hahead.skipPos_eq, PassedBy]

end Ahead

theorem not_comes_restore (hh : headerAt snaps pos = none) :
    ¬ Comes (passNext malloc snaps) (RestorableAt malloc snaps b) (i, pos) := by
  rw [comes_iff]
  rintro (⟨h, hsome, -⟩ | ⟨c, hc, -⟩)
  · rw [hh] at hsome
    cases hsome
  · rw [passNext, hh] at hc
    cases hc

theorem not_restoreStrays_nil : ¬ RestoreStrays malloc snaps b i [] := by
  rintro ⟨before, e, c, hsplit, -⟩
  simp at hsplit

/-- Behind a header that points ahead the tool is led astray by one of the others. -/
theorem restoreStrays_cons {e : ℕ × SnapblockFileHdr} {es : List (ℕ × SnapblockFileHdr)}
    (he : PointsAhead e) :
    RestoreStrays malloc snaps b i (e :: es) ↔
      PassedBy malloc snaps i e.1 e.2 ∧ RestoreStrays malloc snaps b (i + 1) es := by
  constructor
  · rintro ⟨before, e', c, hsplit, hnot, hpassed, hnext, hcomes⟩
    cases before with
    | nil =>
      obtain ⟨rfl, -⟩ := List.cons.inj hsplit
      exact absurd he hnot
    | cons f before =>
      obtain ⟨rfl, rfl⟩ := List.cons.inj hsplit
      rw [List.zipIdx_cons] at hpassed
      refine ⟨hpassed _ List.mem_cons_self, before, e', c, rfl, hnot, fun p hp =>
        hpassed p (List.mem_cons_of_mem _ hp), ?_, hcomes⟩
      rwa [List.length_cons, Nat.add_comm _ 1, ← Nat.add_assoc] at hnext
  · rintro ⟨hpass, before, e', c, rfl, hnot, hpassed, hnext, hcomes⟩
    refine ⟨e :: before, e', c, rfl, hnot, fun p hp => ?_, ?_, hcomes⟩
    · rw [List.zipIdx_cons] at hp
      rcases List.mem_cons.mp hp with rfl | hp
      · exact hpass
      · exact hpassed p hp
    · rwa [List.length_cons, Nat.add_comm _ 1, ← Nat.add_assoc]

theorem restoreStrays_singleton {e : ℕ × SnapblockFileHdr} :
    RestoreStrays malloc snaps b i [e] ↔ ¬ PointsAhead e ∧
      ∃ c, passNext malloc snaps (i, e.1) = some c ∧
        Comes (passNext malloc snaps) (RestorableAt malloc snaps b) c := by
  constructor
  · rintro ⟨before, e', c, hsplit, hnot, -, hnext, hcomes⟩
    cases before with
    | nil =>
      obtain rfl := (List.cons.inj hsplit).1
      exact ⟨hnot, c, hnext, hcomes⟩
    | cons f before => simp at hsplit
  · rintro ⟨hnot, c, hnext, hcomes⟩
    exact ⟨[], e, c, rfl, hnot, by simp, hnext, hcomes⟩

/-- The tool comes to what the headers keep, and to nothing else unless it is led astray. -/
theorem comes_restore_iff (hlen : snaps.length ≤ maxLfsFilesize) (i pos : ℕ) :
    Comes (passNext malloc snaps) (RestorableAt malloc snaps b) (i, pos) ↔
      KeptFrom malloc snaps b i (headersFrom snaps pos) ∨
        RestoreStrays malloc snaps b i (headersFrom snaps pos) := by
  induction pos using headersFrom.induct snaps generalizing i with
  | case1 pos hh =>
    rw [headersFrom_of_none hh]
    exact iff_of_false (not_comes_restore hh) (not_or.mpr ⟨not_keptFrom_nil, not_restoreStrays_nil⟩)
  | case2 pos h hh ih =>
    have hat : RestorableAt malloc snaps b (i, pos) ↔
        h.blknr = b ∧ RestoredBy malloc snaps i pos h := by simp [RestorableAt, hh]
    rw [headersFrom_of_some hh, keptFrom_cons, comes_iff, hat, or_assoc]
    refine or_congr_right ?_
    by_cases hahead : PointsAhead (pos, h)
    · rw [restoreStrays_cons hahead, ← and_or_left]
      simp only [passNext_of_pointsAhead hahead hh, and_assoc, exists_and_left, exists_eq_left']
      refine and_congr_right fun _ => ?_
      by_cases hc : Complete snaps pos h
      · rw [if_pos hc]
        exact ih hc (i + 1)
      · rw [if_neg hc]
        exact iff_of_false (not_comes_restore (headerAt_behind hc hahead))
          (not_or.mpr ⟨not_keptFrom_nil, not_restoreStrays_nil⟩)
    · have hc : ¬ Complete snaps pos h := fun hc => hahead (hc.pointsAhead hlen)
      rw [if_neg hc, restoreStrays_singleton]
      simp only [not_keptFrom_nil, and_false, false_or, hahead, not_false_eq_true, true_and]

/-- In a file whose headers all point ahead no reader is led astray. -/
theorem recoverable_iff_of_pointsAhead (hahead : ∀ e ∈ headers snaps, PointsAhead e) :
    Recoverable malloc snaps b ↔
      KeptFrom malloc snaps b 0 (headers snaps) ∨ ∀ e ∈ headers snaps, e.2.blknr ≠ b := by
  have hlookup : ¬ LookupStrays snaps b (headers snaps) :=
    fun ⟨_, hastray, _⟩ => not_leadsAstray hahead hastray
  have hrestore : ¬ RestoreStrays malloc snaps b 0 (headers snaps) := by
    rintro ⟨before, e, c, hsplit, hnot, -⟩
    exact hnot (hahead e (by simp [hsplit]))
  simp only [Recoverable, hlookup, hrestore, not_false_eq_true, and_true, or_false]

end Kept

/-- What the kernel takes for recorded is restored exactly when the bytes of the file keep
it. -/
theorem recorded_restores_iff (malloc : ℕ → Bool) (file : Bytes)
    (hlen : file.length ≤ maxLfsFilesize) (b : UInt64) {opts : RestoreOpts} (hopts : opts.All)
    (kind : DeviceKind) (data stdin : Bytes) (hd : LargeEnough malloc file ⟨kind, data, 0⟩) :
    ((∃ fuel, fileLookup fuel (fun _ => true) b file = some true) →
      Restores opts (fun i => .fromMalloc (malloc i)) file b (.start kind data stdin)) ↔
    Recoverable malloc file b := by
  have hlookup : OnLookupChain file b ↔
      (∃ e ∈ headers file, e.2.blknr = b) ∨ LookupStrays file b (headers file) :=
    comes_lookup_iff hlen (Nat.zero_le _)
  have hrestore : OnRestoreChain malloc file b ↔
      KeptFrom malloc file b 0 (headers file) ∨ RestoreStrays malloc file b 0 (headers file) :=
    comes_restore_iff hlen 0 0
  rw [fileLookup_true_iff, restores_iff hopts hlen b stdin hd, hlookup, hrestore, Recoverable]
  constructor
  · intro h
    by_cases hfound : (∃ e ∈ headers file, e.2.blknr = b) ∨ LookupStrays file b (headers file)
    · rcases h hfound with hkept | hstrays
      · exact .inl hkept
      · exact .inr (.inr hstrays)
    · obtain ⟨hnamed, hstrays⟩ := not_or.mp hfound
      exact .inr (.inl ⟨fun e he hb => hnamed ⟨e, he, hb⟩, hstrays⟩)
  · rintro (hkept | ⟨hno, hstrays⟩ | hrestored) hfound
    · exact .inl hkept
    · rcases hfound with ⟨e, he, hb⟩ | hfound
      · exact absurd hb (hno e he)
      · exact absurd hfound hstrays
    · exact .inr hrestored

/-- A record of block 7 with a payload of two bytes. -/
def smallRecord : Record := .raw 7 [1, 2] (by decide)

/-- The header of a record of block 7 whose payload was not written. -/
def tornHdr : SnapblockFileHdr := ⟨snapblockMagic, 7, 8, snapblockPayloadTypeRaw, 40⟩

/-- A complete record of block 7 with a torn one of the same block behind it. -/
def tornAgain : Bytes := smallRecord.encode ++ tornHdr.toBytes

theorem largeEnough_tornAgain :
    LargeEnough (fun _ => true) tornAgain ⟨.regular, [], 0⟩ := by
  have hfirst : headerAt tornAgain 0 = some smallRecord.hdr := by decide +kernel
  have hlast : headerAt tornAgain 42 = some tornHdr := by decide +kernel
  have hnext : passNext (fun _ => true) tornAgain (0, 0) = some (1, 42) := by decide +kernel
  have hend : passNext (fun _ => true) tornAgain (1, 42) = none := by decide +kernel
  have hcut : ¬ PayloadWhole tornAgain 42 tornHdr := by decide +kernel
  have hroom : Device.HasRoom ⟨.regular, [], 0⟩ smallRecord.hdr.blknr smallRecord.hdr.payldsiz := by
    unfold Device.HasRoom
    decide
  intro n c h hwalk hh hrestored
  cases n with
  | zero =>
    obtain rfl : (0, 0) = c := Option.some.inj hwalk
    obtain rfl := Option.some.inj (hfirst.symm.trans hh)
    exact hroom
  | succ n =>
    rw [walk, hnext, Option.bind_some] at hwalk
    obtain rfl := eq_of_walk_of_none hend hwalk
    obtain rfl := Option.some.inj (hlast.symm.trans hh)
    exact absurd hrestored.2.2 hcut

theorem recorded_restores_tornAgain :
    fileLookup 1 (fun _ => true) 7 tornAgain = some true ∧
    Restores ⟨true, 0, false⟩ (fun _ => .fromMalloc true) tornAgain 7 (.start .regular [] []) := by
  have hfirst : headerAt tornAgain 0 = some smallRecord.hdr := by decide +kernel
  have hfound : fileLookup 1 (fun _ => true) 7 tornAgain = some true := by decide +kernel
  refine ⟨hfound, (recorded_restores_iff (fun _ => true) tornAgain (by decide) 7 ⟨rfl, rfl⟩
    .regular [] [] largeEnough_tornAgain).mpr (.inl ?_) ⟨1, hfound⟩⟩
  rw [headers, headersFrom_of_some hfirst]
  exact keptFrom_cons.mpr (.inl ⟨rfl, rfl, rfl, by decide +kernel⟩)

/-- The kernel takes block 7 for recorded, but no iteration of the tool writes it. -/
theorem not_recorded_restores :
    fileLookup 1 (fun _ => true) 7 tornHdr.toBytes = some true ∧
    LargeEnough (fun _ => true) tornHdr.toBytes ⟨.regular, [], 0⟩ ∧
    ¬ Restores ⟨true, 0, false⟩ (fun _ => .fromMalloc true) tornHdr.toBytes 7
      (.start .regular [] []) := by
  have hhdr : headerAt tornHdr.toBytes 0 = some tornHdr := by decide +kernel
  have hnext : passNext (fun _ => true) tornHdr.toBytes (0, 0) = none := by decide +kernel
  have hcut (n : ℕ) (c : ℕ × ℕ) (h : SnapblockFileHdr)
      (hwalk : walk (passNext (fun _ => true) tornHdr.toBytes) n (0, 0) = some c)
      (hh : headerAt tornHdr.toBytes c.2 = some h) :
      ¬ RestoredBy (fun _ => true) tornHdr.toBytes c.1 c.2 h := by
    obtain rfl := eq_of_walk_of_none hnext hwalk
    obtain rfl := Option.some.inj (hhdr.symm.trans hh)
    exact fun hrestored => absurd hrestored.2.2 (by decide +kernel)
  have hlarge : LargeEnough (fun _ => true) tornHdr.toBytes ⟨.regular, [], 0⟩ :=
    fun n c h hwalk hh hrestored => absurd hrestored (hcut n c h hwalk hh)
  refine ⟨by decide +kernel, hlarge, fun h => ?_⟩
  obtain ⟨n, c, hwalk, g, hh, -, hrestored⟩ :=
    (restores_iff ⟨rfl, rfl⟩ (by decide) 7 [] hlarge).mp h
  exact hcut n c g hwalk hh hrestored

end BlkdevSnapshot

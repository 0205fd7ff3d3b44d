import BlkdevSnapshot.PartialWalk
import BlkdevSnapshot.RestoreScan

/-!
# Whether reading a log ends

Neither reader checks that a header leads forward, so on a damaged file each of
them may come back to an offset. The successor functions below say where a
reader goes from a header when no call stops it; a reader ends on a file, under
every outcome of its calls, exactly when its successors never return.
-/
namespace BlkdevSnapshot
open PartialWalk

/-- `foff` after a round of `file_lookup` that does not return. -/
def lookupNext (file : Bytes) (blknr foff : UInt64) : Option UInt64 :=
  match readSnapblockMandatoryHeader true file foff with
  | none => none
  | some h => if h.blknr = blknr then none else some (foff + (h.payldOff + h.payldsiz))

/-- The header that the loop of `do_restore` accepts at an offset. -/
def headerAt (snaps : Bytes) (pos : ℕ) : Option SnapblockFileHdr :=
  let buf := readAt snaps pos sizeofHdr
  let h := SnapblockFileHdr.ofBytes buf
  if buf.length ≠ sizeofHdr ∨ h.magic ≠ snapblockMagic then none else some h

/-- The offset behind `seek_nexthdr` for a header at `pos`. -/
def skipPos (pos : ℕ) (h : SnapblockFileHdr) : ℕ :=
  lseekCur (pos + sizeofHdr) (h.payldOff + h.payldsiz - UInt64.ofNat sizeofHdr)

/-- Where `__do_restore_rawblocks` looks for the payload of a header at `pos`. -/
def payloadPos (pos : ℕ) (h : SnapblockFileHdr) : ℕ :=
  lseekCur (pos + sizeofHdr) (h.payldOff - UInt64.ofNat sizeofHdr)

/-- The offset behind the payload of a header at `pos`. -/
def passPos (pos : ℕ) (h : SnapblockFileHdr) : ℕ := lseekCur (payloadPos pos h) h.payldsiz

/-- The offset and the unread input after an iteration of `do_restore` that goes on. -/
def restoreNext (opts : RestoreOpts) (snaps : Bytes) (c : ℕ × Bytes) : Option (ℕ × Bytes) :=
  match headerAt snaps c.1 with
  | none => none
  | some h =>
    if !opts.restoreAll && opts.restoreOnlyBlknum != h.blknr then some (skipPos c.1 h, c.2)
    else
      let stdin := if opts.ask then (fgets 10 c.2).2 else c.2
      if opts.ask && !isYes (fgets 10 c.2).1 then some (skipPos c.1 h, stdin)
      else if !opts.restoreAll then none
      else if h.payldType = snapblockPayloadTypeRaw then some (passPos c.1 h, stdin)
      else some (skipPos c.1 h, stdin)

section Lookup
variable (file : Bytes) (b : UInt64)

/-- The loop of `file_lookup` outlasts its fuel exactly when the chain of headers does. -/
theorem fileLookupFrom_eq_none_iff (fuel i : ℕ) (foff : UInt64) :
    fileLookupFrom (fun _ => true) file b fuel i foff = none ↔
      walk (lookupNext file b) fuel foff ≠ none := by
  induction fuel generalizing i foff with
  | zero => simp [fileLookupFrom, walk]
  | succ fuel ih =>
    simp only [fileLookupFrom, walk, lookupNext]
    cases readSnapblockMandatoryHeader true file foff with
    | none => simp
    | some h =>
      by_cases hb : h.blknr = b
      · simp [hb]
      · simpa [hb] using ih (i + 1) (foff + (h.payldOff + h.payldsiz))

/-- Failing reads only end the loop of `file_lookup` earlier. -/
theorem fileLookupFrom_ends (headerRead : ℕ → Bool) {fuel : ℕ} {foff : UInt64}
    (h : walk (lookupNext file b) fuel foff = none) (i : ℕ) :
    (fileLookupFrom headerRead file b fuel i foff).isSome := by
  induction fuel generalizing i foff with
  | zero => simp [walk] at h
  | succ fuel ih =>
    simp only [fileLookupFrom, walk, lookupNext] at h ⊢
    cases hr : headerRead i with
    | false => simp [readSnapblockMandatoryHeader]
    | true =>
      cases hhdr : readSnapblockMandatoryHeader true file foff with
      | none => simp
      | some hdr =>
        rw [hhdr] at h
        by_cases hb : hdr.blknr = b
        · simp [hb]
        · simp only [if_neg hb, Option.bind_some] at h ⊢
          exact ih h (i + 1)

theorem finite_uint64 : Finite UInt64 :=
  Finite.of_injective (fun x : UInt64 => (⟨x.toNat, x.toNat_lt⟩ : Fin (2 ^ 64)))
    fun _ _ h => UInt64.toNat.inj (congrArg Fin.val h)

/-- `file_lookup` ends under every outcome of its reads exactly when the chain of
headers never comes back. -/
theorem fileLookup_ends_iff :
    (∀ headerRead, ∃ fuel, (fileLookup fuel headerRead b file).isSome) ↔
      NoReturn (lookupNext file b) 0 := by
  have := finite_uint64
  rw [← stops_iff_noReturn Set.finite_univ fun _ _ _ _ => Set.mem_univ _]
  constructor
  · intro h
    obtain ⟨fuel, hfuel⟩ := h fun _ => true
    refine ⟨fuel, by_contra fun hwalk => ?_⟩
    rw [fileLookup, (fileLookupFrom_eq_none_iff file b fuel 0 0).mpr hwalk] at hfuel
    cases hfuel
  · rintro ⟨fuel, hfuel⟩ headerRead
    exact ⟨fuel, fileLookupFrom_ends file b headerRead hfuel 0⟩

end Lookup

theorem sysRead_full {o : IoOutcome} {file buf : Bytes} {pos n : ℕ}
    (h : sysRead o file pos n = some buf) (hbuf : buf.length = n) : buf = readAt file pos n := by
  obtain ⟨k, -, rfl⟩ := Option.map_eq_some_iff.mp h
  have hle : (readAt file pos n).length ≤ n := by simp [readAt]
  rw [List.length_take] at hbuf
  rw [List.take_of_length_le (by omega)]

theorem lseekCur_zero (pos : ℕ) : lseekCur pos 0 = pos := by
  simp [lseekCur, loff]

section Iter
variable {opts : RestoreOpts} {o : IterOutcomes} {snaps : Bytes} {s s' : RestoreState}

theorem headerAt_eq_some {pos : ℕ} {h : SnapblockFileHdr} (hh : headerAt snaps pos = some h) :
    pos + sizeofHdr ≤ snaps.length := by
  simp only [headerAt] at hh
  split at hh
  · cases hh
  · rename_i hok
    have hlen := readAt_length_le snaps pos sizeofHdr
    have hfull : (readAt snaps pos sizeofHdr).length = sizeofHdr := by tauto
    simp only [sizeofHdr] at hfull hlen ⊢
    omega

/-- A read that delivers the whole payload ends where a seek over it does. -/
theorem readAt_full_end {pos : ℕ} {n : UInt64} (hlen : snaps.length ≤ maxLfsFilesize)
    (h : (readAt snaps pos n.toNat).length = n.toNat) : pos + n.toNat = lseekCur pos n := by
  have hle := readAt_length_le snaps pos n.toNat
  by_cases hn : n.toNat = 0
  · obtain rfl : n = 0 := UInt64.toNat.inj (by simpa using hn)
    rw [lseekCur_zero]
    rfl
  · rw [lseekCur_of_le _ _ (by omega)]

/-- Whatever its calls do, an attempt on a payload that goes on ends behind it. -/
theorem doRestoreRawblocks_next {h : SnapblockFileHdr} (hlen : snaps.length ≤ maxLfsFilesize)
    (hnext : doRestoreRawblocks o snaps h s = (s', .next)) :
    s'.snapsPos =
      lseekCur (lseekCur s.snapsPos (h.payldOff - UInt64.ofNat sizeofHdr)) h.payldsiz ∧
      s'.stdin = s.stdin := by
  simp only [doRestoreRawblocks, RestoreState.seekSnaps] at hnext
  split at hnext
  · obtain ⟨rfl, -⟩ := Prod.mk.inj hnext
    exact ⟨rfl, rfl⟩
  · split at hnext
    · obtain ⟨rfl, -⟩ := Prod.mk.inj hnext
      exact ⟨rfl, rfl⟩
    · rename_i buf hread
      split at hnext
      · simp at hnext
      · rename_i hfull
        rw [not_not] at hfull
        have hbuf := sysRead_full hread hfull
        rw [hbuf] at hfull
        obtain ⟨rfl, -⟩ := Prod.mk.inj hnext
        refine ⟨?_, rfl⟩
        simp only [RestoreState.emit]
        rw [hbuf, hfull, readAt_full_end hlen hfull]

/-- An iteration that goes on has accepted a header. -/
theorem restoreIter_next (hnext : restoreIter opts o snaps s = (s', .next)) :
    ∃ h, headerAt snaps s.snapsPos = some h ∧ restoreRecord opts o snaps h
      ({ s with snapsPos := s.snapsPos + sizeofHdr }.emit (.header s.snapsPos h)) =
        (s', .next) := by
  unfold restoreIter at hnext
  cases hread : sysRead o.headerRead snaps s.snapsPos sizeofHdr with
  | none => simp [hread] at hnext
  | some buf =>
    simp only [hread] at hnext
    split at hnext
    · simp at hnext
    · rename_i hok
      have hfull : buf.length = sizeofHdr := by tauto
      have hbuf := sysRead_full hread hfull
      refine ⟨SnapblockFileHdr.ofBytes buf, ?_, ?_⟩
      · simp only [headerAt]
        rw [← hbuf, if_neg hok]
      · rw [← hfull]
        exact hnext

theorem restoreByType_next {h : SnapblockFileHdr} (hlen : snaps.length ≤ maxLfsFilesize)
    (hnext : restoreByType o snaps h s = (s', .next)) (pos : ℕ)
    (hpos : s.snapsPos = pos + sizeofHdr) :
    s'.snapsPos =
      (if h.payldType = snapblockPayloadTypeRaw then passPos pos h else skipPos pos h) ∧
      s'.stdin = s.stdin := by
  unfold restoreByType at hnext
  split at hnext
  · rename_i hraw
    obtain ⟨hp, hin⟩ := doRestoreRawblocks_next hlen hnext
    rw [hpos] at hp
    rw [if_pos hraw]
    exact ⟨hp, hin⟩
  · rename_i hraw
    obtain ⟨rfl, -⟩ := Prod.mk.inj hnext
    rw [if_neg hraw]
    exact ⟨by simp only [RestoreState.seekNexthdr, RestoreState.seekSnaps, hpos, skipPos], rfl⟩

/-- Whatever its calls do, an iteration that goes on follows `restoreNext`. -/
theorem restoreIter_follows (hlen : snaps.length ≤ maxLfsFilesize)
    (hnext : restoreIter opts o snaps s = (s', .next)) :
    restoreNext opts snaps (s.snapsPos, s.stdin) = some (s'.snapsPos, s'.stdin) := by
  obtain ⟨h, hh, hrec⟩ := restoreIter_next hnext
  rw [restoreRecord_eq] at hrec
  simp only [restoreNext, hh]
  split at hrec
  · rename_i hsel
    obtain ⟨rfl, -⟩ := Prod.mk.inj hrec
    rw [if_pos hsel]
    rfl
  · rename_i hsel
    rw [if_neg hsel]
    split at hrec
    · rename_i hno
      obtain ⟨rfl, -⟩ := Prod.mk.inj hrec
      have hno' : (opts.ask && !isYes (fgets 10 s.stdin).1) = true := hno
      rw [if_pos hno']
      simp only [RestoreState.seekNexthdr, RestoreState.seekSnaps, askUser_snapsPos, askUser_stdin,
        skipPos, RestoreState.emit]
    · rename_i hyes
      have hyes' : ¬ (opts.ask && !isYes (fgets 10 s.stdin).1) = true := hyes
      rw [if_neg hyes']
      split at hrec
      · simp at hrec
      · rename_i hgo
        rw [hrec] at hgo
        have hall : ¬ (!opts.restoreAll) = true := by simpa using hgo
        obtain ⟨hp, hin⟩ := restoreByType_next hlen hrec s.snapsPos (by rw [askUser_snapsPos]; rfl)
        rw [if_neg hall, hp, hin, askUser_stdin]
        split <;> rfl

/-- The outcomes that keep the loop of `do_restore` going: no buffer is ever allocated. -/
def IterOutcomes.noBuffer : IterOutcomes := ⟨.done, false, .error, .error⟩

/-- A successful read of an acceptable header enters the loop body. -/
theorem restoreIter_headerAt {h : SnapblockFileHdr} (hread : o.headerRead = .done)
    (hh : headerAt snaps s.snapsPos = some h) :
    restoreIter opts o snaps s = restoreRecord opts o snaps h
      ({ s with snapsPos := s.snapsPos + sizeofHdr }.emit (.header s.snapsPos h)) := by
  have hsys : sysRead o.headerRead snaps s.snapsPos sizeofHdr =
      some (readAt snaps s.snapsPos sizeofHdr) := by
    simp [sysRead, hread, IoOutcome.count]
  simp only [headerAt] at hh
  split at hh
  · cases hh
  · rename_i hok
    have hfull : (readAt snaps s.snapsPos sizeofHdr).length = sizeofHdr := by tauto
    obtain rfl := Option.some.inj hh
    simp only [restoreIter, hsys]
    rw [if_neg hok, hfull]

/-- Without buffers an iteration goes on wherever `restoreNext` has a successor. -/
theorem restoreIter_noBuffer (h : restoreNext opts snaps (s.snapsPos, s.stdin) ≠ none) :
    (restoreIter opts .noBuffer snaps s).2 = .next := by
  cases hh : headerAt snaps s.snapsPos with
  | none => simp [restoreNext, hh] at h
  | some hdr =>
    simp only [restoreNext, hh] at h
    rw [restoreIter_headerAt rfl hh, restoreRecord_eq]
    have hattempt (t : RestoreState) : (restoreByType .noBuffer snaps hdr t).2 = .next := by
      unfold restoreByType
      split
      · simp [doRestoreRawblocks, IterOutcomes.noBuffer]
      · rfl
    split
    · rfl
    · rename_i hsel
      rw [if_neg hsel] at h
      split
      · rfl
      · rename_i hyes
        have hyes' : ¬ (opts.ask && !isYes (fgets 10 s.stdin).1) = true := hyes
        rw [if_neg hyes'] at h
        have hall : opts.restoreAll ≠ false := by
          intro hall
          simp [hall] at h
        rw [if_neg fun hc => hall hc.2]
        exact hattempt _

end Iter

section Loop
variable (opts : RestoreOpts) {snaps : Bytes}

/-- While the loop goes on it follows the chain of successors. -/
theorem restoreLoop_follows (hlen : snaps.length ≤ maxLfsFilesize) (outs : ℕ → IterOutcomes)
    {n i : ℕ} {s s' : RestoreState} (h : restoreLoop opts outs snaps n i s = (s', .next)) :
    walk (restoreNext opts snaps) n (s.snapsPos, s.stdin) = some (s'.snapsPos, s'.stdin) := by
  induction n generalizing i s with
  | zero =>
    obtain rfl : s = s' := congrArg Prod.fst h
    rfl
  | succ n ih =>
    rw [restoreLoop] at h
    cases hiter : restoreIter opts (outs i) snaps s with
    | mk t flow =>
      rw [hiter] at h
      cases flow with
      | next =>
        rw [walk, restoreIter_follows hlen hiter, Option.bind_some]
        exact ih h
      | leave => simp at h
      | exitFailure => simp at h

/-- Without buffers the loop goes on as long as there are successors. -/
theorem restoreLoop_noBuffer (hlen : snaps.length ≤ maxLfsFilesize) {n : ℕ} (i : ℕ)
    {s : RestoreState} (h : walk (restoreNext opts snaps) n (s.snapsPos, s.stdin) ≠ none) :
    (restoreLoop opts (fun _ => .noBuffer) snaps n i s).2 = .next := by
  induction n generalizing i s with
  | zero => rfl
  | succ n ih =>
    rw [walk] at h
    cases hnext : restoreNext opts snaps (s.snapsPos, s.stdin) with
    | none => simp [hnext] at h
    | some c =>
      have hflow : (restoreIter opts .noBuffer snaps s).2 = .next :=
        restoreIter_noBuffer (by simp [hnext])
      rw [restoreLoop]
      cases hiter : restoreIter opts .noBuffer snaps s with
      | mk t flow =>
        rw [hiter] at hflow
        obtain rfl : flow = .next := hflow
        have hc := restoreIter_follows hlen hiter
        rw [hnext] at hc
        obtain rfl := Option.some.inj hc
        rw [hnext, Option.bind_some] at h
        exact ih (i + 1) h

theorem restoreNext_stdin {c c' : ℕ × Bytes} (h : restoreNext opts snaps c = some c') :
    c'.2 <:+ c.2 := by
  have hsuffix : (if opts.ask then (fgets 10 c.2).2 else c.2) <:+ c.2 := by
    split
    · exact List.drop_suffix _ _
    · exact List.suffix_rfl
  unfold restoreNext at h
  split at h
  · cases h
  · simp only at h
    split at h
    · obtain rfl := Option.some.inj h
      exact List.suffix_rfl
    · split at h
      · obtain rfl := Option.some.inj h
        exact hsuffix
      · split at h
        · cases h
        · split at h
          · obtain rfl := Option.some.inj h
            exact hsuffix
          · obtain rfl := Option.some.inj h
            exact hsuffix

/-- The loop of `do_restore` ends, whatever its calls do, exactly when the chain of
its successors never comes back. -/
theorem doRestore_ends_iff (hlen : snaps.length ≤ maxLfsFilesize) (stdin : Bytes) :
    (∀ kind data outs, ∃ fuel, (doRestore opts outs fuel snaps
      (.start kind data stdin)).isSome) ↔ NoReturn (restoreNext opts snaps) (0, stdin) := by
  have hfinite : ({c | c.1 ≤ snaps.length ∧ c.2 ∈ stdin.tails} : Set (ℕ × Bytes)).Finite :=
    (Set.finite_Iic snaps.length).prod (List.finite_toSet stdin.tails)
  rw [← stops_iff_noReturn hfinite]
  · constructor
    · intro h
      obtain ⟨fuel, hfuel⟩ := h .regular [] fun _ => .noBuffer
      refine ⟨fuel, by_contra fun hwalk => ?_⟩
      have hgo := restoreLoop_noBuffer opts hlen 0 (s := .start .regular [] stdin) hwalk
      rw [doRestore] at hfuel
      cases hloop : restoreLoop opts (fun _ => .noBuffer) snaps fuel 0
        (.start .regular [] stdin) with
      | mk t flow =>
        rw [hloop] at hgo hfuel
        obtain rfl : flow = .next := hgo
        cases hfuel
    · rintro ⟨fuel, hfuel⟩ kind data outs
      refine ⟨fuel, ?_⟩
      have hstops : (restoreLoop opts outs snaps fuel 0 (.start kind data stdin)).2 ≠ .next := by
        intro hgo
        have hwalk : walk (restoreNext opts snaps) fuel (0, stdin) = some _ :=
          restoreLoop_follows opts hlen outs (Prod.ext rfl hgo)
        rw [hfuel] at hwalk
        cases hwalk
      rw [doRestore_of_stops opts outs le_rfl hstops]
      rfl
  · intro n c hc hlive
    have hin : c.2 <:+ stdin := walk_invariant (P := fun x => x.2 <:+ stdin)
      (fun x y hx hxy => (restoreNext_stdin opts hxy).trans hx) List.suffix_rfl hc
    refine ⟨?_, (List.mem_tails _ _).mpr hin⟩
    cases hh : headerAt snaps c.1 with
    | none => simp [restoreNext, hh] at hlive
    | some h => exact (Nat.le_add_right _ _).trans (headerAt_eq_some hh)

end Loop

/-- Both readers end on a file exactly when the headers lead them to no offset twice:
the kernel's scan for every block, and the tool for every selection and every answer. -/
theorem readers_end_iff (file : Bytes) (hlen : file.length ≤ maxLfsFilesize) :
    (∀ b, (∀ headerRead, ∃ fuel, (fileLookup fuel headerRead b file).isSome) ↔
      NoReturn (lookupNext file b) 0) ∧
    ∀ opts stdin, (∀ kind data outs, ∃ fuel, (doRestore opts outs fuel file
      (.start kind data stdin)).isSome) ↔ NoReturn (restoreNext opts file) (0, stdin) :=
  ⟨fun b => fileLookup_ends_iff file b, fun opts stdin => doRestore_ends_iff opts hlen stdin⟩

/-- A header whose payload offset and payload size are both zero. -/
def stuckHdr : SnapblockFileHdr := ⟨snapblockMagic, 1, 0, snapblockPayloadTypeRaw, 0⟩

theorem readers_end_iff_stuck :
    stuckHdr.toBytes.length ≤ maxLfsFilesize ∧
    ((∀ headerRead, ∃ fuel, (fileLookup fuel headerRead 1 stuckHdr.toBytes).isSome) ↔
      NoReturn (lookupNext stuckHdr.toBytes 1) 0) :=
  ⟨by decide, (readers_end_iff stuckHdr.toBytes (by decide)).1 1⟩

/-- Neither reader gets past a header that leads to itself, with no call failing:
the scan for block 7, and the tool with `-n 7 -c`. -/
theorem not_readers_end :
    (∀ fuel, fileLookup fuel (fun _ => true) 7 stuckHdr.toBytes = none) ∧
    ∀ fuel, doRestore ⟨false, 7, false⟩ (fun _ => .allDone) fuel stuckHdr.toBytes
      (.start .regular [] []) = none := by
  constructor
  · have hnext : lookupNext stuckHdr.toBytes 7 0 = some 0 := by decide +kernel
    intro fuel
    rw [fileLookup, fileLookupFrom_eq_none_iff]
    induction fuel with
    | zero => simp [walk]
    | succ fuel ih =>
      rw [walk, hnext, Option.bind_some]
      exact ih
  · have hhdr : headerAt stuckHdr.toBytes 0 = some stuckHdr := by decide +kernel
    have hskip : skipPos 0 stuckHdr = 0 := by decide +kernel
    have hiter (s : RestoreState) (hs : s.snapsPos = 0) :
        ∃ t, restoreIter ⟨false, 7, false⟩ .allDone stuckHdr.toBytes s = (t, .next) ∧
          t.snapsPos = 0 := by
      rw [← hs] at hhdr hskip
      rw [restoreIter_headerAt rfl hhdr, restoreRecord_eq, if_pos (by decide)]
      exact ⟨_, rfl, hskip.trans hs⟩
    have hloop (n i : ℕ) (s : RestoreState) (hs : s.snapsPos = 0) :
        (restoreLoop ⟨false, 7, false⟩ (fun _ => .allDone) stuckHdr.toBytes n i s).2 = .next := by
      induction n generalizing i s with
      | zero => rfl
      | succ n ih =>
        obtain ⟨t, ht, hpos⟩ := hiter s hs
        rw [restoreLoop, ht]
        exact ih (i + 1) t hpos
    intro fuel
    have hend := hloop fuel 0 (.start .regular [] []) rfl
    rw [doRestore]
    cases hl : restoreLoop ⟨false, 7, false⟩ (fun _ => .allDone) stuckHdr.toBytes fuel 0
        (.start .regular [] []) with
    | mk t flow =>
      rw [hl] at hend
      obtain rfl : flow = .next := hend
      rfl

end BlkdevSnapshot

import BlkdevSnapshot.ReadersEnd

/-!
# The headers of a file

The headers that lie in a file one behind the other: the next one starts where the
payload of the last one ends, as long as that is complete. On every file both readers
start with these headers. Behind the last one they find nothing, unless it points into
itself or past the largest offset.
-/
namespace BlkdevSnapshot
open PartialWalk

/-- A record at `pos` that starts with its header and lies wholly in the file. -/
def Complete (file : Bytes) (pos : ℕ) (h : SnapblockFileHdr) : Prop :=
  sizeofHdr ≤ h.payldOff.toNat ∧ pos + h.payldOff.toNat + h.payldsiz.toNat ≤ file.length

instance (file : Bytes) (pos : ℕ) (h : SnapblockFileHdr) : Decidable (Complete file pos h) :=
  inferInstanceAs (Decidable (_ ∧ _))

/-- The headers from `pos` on with their offsets. The last one may be that of a record that
is not complete. -/
def headersFrom (file : Bytes) (pos : ℕ) : List (ℕ × SnapblockFileHdr) :=
  match _hh : headerAt file pos with
  | none => []
  | some h => (pos, h) ::
      if _hc : Complete file pos h then
        headersFrom file (pos + h.payldOff.toNat + h.payldsiz.toNat)
      else []
termination_by file.length - pos
decreasing_by
  have hin := headerAt_eq_some _hh
  have hoff := _hc.1
  simp only [sizeofHdr] at hin hoff
  omega

/-- The headers of a file. -/
def headers (file : Bytes) : List (ℕ × SnapblockFileHdr) := headersFrom file 0

/-- A header that points behind itself and to an offset that a file can have. -/
def PointsAhead (e : ℕ × SnapblockFileHdr) : Prop :=
  sizeofHdr ≤ e.2.payldOff.toNat ∧
    e.1 + e.2.payldOff.toNat + e.2.payldsiz.toNat ≤ maxLfsFilesize

instance (e : ℕ × SnapblockFileHdr) : Decidable (PointsAhead e) :=
  inferInstanceAs (Decidable (_ ∧ _))

/-- The last of the headers `es`, when it does not point ahead: behind it a reader is led astray,
to an offset that wraps. -/
def LeadsAstray (es : List (ℕ × SnapblockFileHdr)) (e : ℕ × SnapblockFileHdr) : Prop :=
  es.getLast? = some e ∧ ¬ PointsAhead e

theorem leadsAstray_cons {e e' : ℕ × SnapblockFileHdr} {es : List (ℕ × SnapblockFileHdr)}
    (he : PointsAhead e) : LeadsAstray (e :: es) e' ↔ LeadsAstray es e' := by
  cases es with
  | nil =>
    refine iff_of_false ?_ fun h => Option.some_ne_none _ h.1.symm
    rintro ⟨hlast, hnot⟩
    obtain rfl := Option.some.inj hlast
    exact hnot he
  | cons f es => rw [LeadsAstray, List.getLast?_cons_cons, LeadsAstray]

theorem leadsAstray_singleton {e e' : ℕ × SnapblockFileHdr} :
    LeadsAstray [e] e' ↔ e = e' ∧ ¬ PointsAhead e' := by
  simp [LeadsAstray]

/-- Headers that all point ahead lead nowhere else. -/
theorem not_leadsAstray {e : ℕ × SnapblockFileHdr} {es : List (ℕ × SnapblockFileHdr)}
    (hahead : ∀ e ∈ es, PointsAhead e) : ¬ LeadsAstray es e :=
  fun h => h.2 (hahead e (List.mem_of_getLast? h.1))

section Headers
variable {file : Bytes} {pos : ℕ} {h : SnapblockFileHdr}

theorem headersFrom_of_none (hh : headerAt file pos = none) : headersFrom file pos = [] := by
  rw [headersFrom]
  split
  · rfl
  · rename_i h hsome
    rw [hh] at hsome
    cases hsome

theorem headersFrom_of_some (hh : headerAt file pos = some h) :
    headersFrom file pos = (pos, h) ::
      if Complete file pos h then headersFrom file (pos + h.payldOff.toNat + h.payldsiz.toNat)
      else [] := by
  rw [headersFrom]
  split
  · rename_i hnone
    rw [hh] at hnone
    cases hnone
  · rename_i g hsome
    obtain rfl := Option.some.inj (hh.symm.trans hsome)
    split <;> rfl

theorem headerAt_of_lt (hpos : file.length < pos + sizeofHdr) : headerAt file pos = none := by
  cases hh : headerAt file pos with
  | none => rfl
  | some h => exact absurd (headerAt_eq_some hh) (not_le.mpr hpos)

/-- The record of a header that points ahead is complete, or nothing lies behind it. -/
theorem headerAt_behind (hc : ¬ Complete file pos h) (hahead : PointsAhead (pos, h)) :
    headerAt file (pos + h.payldOff.toNat + h.payldsiz.toNat) = none := by
  have hpast := not_le.mp fun hle => hc ⟨hahead.1, hle⟩
  exact headerAt_of_lt (hpast.trans_le (Nat.le_add_right _ _))

/-- A complete record points ahead. -/
theorem Complete.pointsAhead (hlen : file.length ≤ maxLfsFilesize) (hc : Complete file pos h) :
    PointsAhead (pos, h) := ⟨hc.1, hc.2.trans hlen⟩

end Headers

/-! ## The kernel's scan -/

/-- `file_lookup` accepts a header of `b` at an offset. -/
def NamedAt (file : Bytes) (b foff : UInt64) : Prop :=
  ∃ h, readSnapblockMandatoryHeader true file foff = some h ∧ h.blknr = b

/-- `file_lookup` comes to a header of `b`. -/
def OnLookupChain (file : Bytes) (b : UInt64) : Prop :=
  Comes (lookupNext file b) (NamedAt file b) 0

section Lookup
variable (file : Bytes) (b : UInt64)

theorem fileLookupFrom_true_iff (fuel i : ℕ) (foff : UInt64) :
    fileLookupFrom (fun _ => true) file b fuel i foff = some true ↔
      ∃ n < fuel, ∃ off, walk (lookupNext file b) n foff = some off ∧ NamedAt file b off := by
  induction fuel generalizing i foff with
  | zero => simp [fileLookupFrom]
  | succ fuel ih =>
    rw [fileLookupFrom]
    cases hread : readSnapblockMandatoryHeader true file foff with
    | none =>
      have hend : lookupNext file b foff = none := by rw [lookupNext, hread]
      constructor
      · simp
      · rintro ⟨n, -, off, hwalk, h, hh, -⟩
        cases n with
        | zero =>
          obtain rfl : foff = off := Option.some.inj hwalk
          rw [hread] at hh
          cases hh
        | succ n => simp [walk, hend] at hwalk
    | some h =>
      by_cases hb : h.blknr = b
      · simp only [if_pos hb, true_iff]
        exact ⟨0, Nat.zero_lt_succ _, foff, rfl, h, hread, hb⟩
      · have hnext : lookupNext file b foff = some (foff + (h.payldOff + h.payldsiz)) := by
          rw [lookupNext, hread]
          exact if_neg hb
        simp only [if_neg hb, ih]
        constructor
        · rintro ⟨n, hn, off, hwalk, hg⟩
          exact ⟨n + 1, Nat.succ_lt_succ hn, off, by rw [walk, hnext]; exact hwalk, hg⟩
        · rintro ⟨n, hn, off, hwalk, hg⟩
          cases n with
          | zero =>
            obtain rfl : foff = off := Option.some.inj hwalk
            obtain ⟨g, hg, hgb⟩ := hg
            obtain rfl : h = g := Option.some.inj (hread.symm.trans hg)
            exact absurd hgb hb
          | succ n =>
            rw [walk, hnext] at hwalk
            exact ⟨n, Nat.lt_of_succ_lt_succ hn, off, hwalk, hg⟩

theorem fileLookup_true_iff :
    (∃ fuel, fileLookup fuel (fun _ => true) b file = some true) ↔ OnLookupChain file b := by
  simp only [fileLookup, fileLookupFrom_true_iff, OnLookupChain, Comes]
  constructor
  · rintro ⟨-, n, -, hn⟩
    exact ⟨n, hn⟩
  · rintro ⟨n, hn⟩
    exact ⟨n + 1, n, Nat.lt_succ_self n, hn⟩

variable {file b} {pos : ℕ} {h : SnapblockFileHdr}

theorem readSnapblockMandatoryHeader_eq_headerAt (hpos : pos ≤ maxLfsFilesize) :
    readSnapblockMandatoryHeader true file (UInt64.ofNat pos) = headerAt file pos := by
  have hoff : ¬ loff (UInt64.ofNat pos) < 0 := by
    rw [loff_ofNat hpos]
    omega
  simp only [readSnapblockMandatoryHeader, headerAt, toNat_ofNat_of_le hpos, hoff, Bool.not_true,
    decide_false, Bool.false_or, decide_eq_true_eq, ne_eq, ite_not]
  by_cases hlen : (readAt file pos sizeofHdr).length = sizeofHdr
  · by_cases hmagic : (SnapblockFileHdr.ofBytes (readAt file pos sizeofHdr)).magic = snapblockMagic
    · simp [hlen, hmagic]
    · simp [hlen, hmagic]
  · simp [hlen]

theorem lookupNext_of_pointsAhead (hh : headerAt file pos = some h)
    (hahead : PointsAhead (pos, h)) :
    lookupNext file b (UInt64.ofNat pos) = if h.blknr = b then none
      else some (UInt64.ofNat (pos + h.payldOff.toNat + h.payldsiz.toNat)) := by
  have hend : pos + h.payldOff.toNat + h.payldsiz.toNat ≤ maxLfsFilesize := hahead.2
  have hpos : pos ≤ maxLfsFilesize := by omega
  rw [lookupNext, readSnapblockMandatoryHeader_eq_headerAt hpos, hh]
  have hadd : UInt64.ofNat pos + (h.payldOff + h.payldsiz) =
      UInt64.ofNat (pos + h.payldOff.toNat + h.payldsiz.toNat) := by
    apply UInt64.toNat.inj
    rw [toNat_ofNat_of_le hend, UInt64.toNat_add, UInt64.toNat_add, toNat_ofNat_of_le hpos]
    simp only [maxLfsFilesize] at hend
    omega
  simp only [hadd]

/-- Without a header the scan ends. -/
theorem not_comes_lookup (hpos : pos ≤ maxLfsFilesize) (hh : headerAt file pos = none) :
    ¬ Comes (lookupNext file b) (NamedAt file b) (UInt64.ofNat pos) := by
  have hread := (readSnapblockMandatoryHeader_eq_headerAt hpos).trans hh
  rw [comes_iff]
  rintro (⟨h, hsome, -⟩ | ⟨c, hc, -⟩)
  · rw [hread] at hsome
    cases hsome
  · rw [lookupNext, hread] at hc
    cases hc

/-- The scan is led astray by the last of the headers `es`, to a header of `b`. -/
def LookupStrays (file : Bytes) (b : UInt64) (es : List (ℕ × SnapblockFileHdr)) : Prop :=
  ∃ e, LeadsAstray es e ∧ Comes (lookupNext file b) (NamedAt file b)
    (UInt64.ofNat e.1 + (e.2.payldOff + e.2.payldsiz))

theorem lookupStrays_cons {e : ℕ × SnapblockFileHdr} {es : List (ℕ × SnapblockFileHdr)}
    (he : PointsAhead e) : LookupStrays file b (e :: es) ↔ LookupStrays file b es := by
  simp only [LookupStrays, leadsAstray_cons he]

/-- The scan comes to each of the headers, and to no others unless it is led astray. -/
theorem comes_lookup_iff (hlen : file.length ≤ maxLfsFilesize) (hpos : pos ≤ maxLfsFilesize) :
    Comes (lookupNext file b) (NamedAt file b) (UInt64.ofNat pos) ↔
      (∃ e ∈ headersFrom file pos, e.2.blknr = b) ∨
        LookupStrays file b (headersFrom file pos) := by
  induction pos using headersFrom.induct file with
  | case1 pos hh =>
    rw [headersFrom_of_none hh]
    exact iff_of_false (not_comes_lookup hpos hh) (by simp [LookupStrays, LeadsAstray])
  | case2 pos h hh ih =>
    have hread := (readSnapblockMandatoryHeader_eq_headerAt hpos).trans hh
    rw [headersFrom_of_some hh, comes_iff, NamedAt, hread, List.exists_mem_cons_iff]
    by_cases hb : h.blknr = b
    · simp [hb]
    by_cases hahead : PointsAhead (pos, h)
    · rw [lookupStrays_cons hahead, lookupNext_of_pointsAhead hh hahead, if_neg hb]
      by_cases hc : Complete file pos h
      · rw [if_pos hc]
        simp only [Option.some.injEq, exists_eq_left', hb, false_or]
        exact ih hc hahead.2
      · have hend := not_comes_lookup (b := b) hahead.2 (headerAt_behind hc hahead)
        rw [if_neg hc]
        simp only [Option.some.injEq, exists_eq_left', hb, hend, List.not_mem_nil, false_and,
          exists_false, or_self, LookupStrays, LeadsAstray, List.getLast?_nil, reduceCtorEq]
    · have hc : ¬ Complete file pos h := fun hc => hahead (hc.pointsAhead hlen)
      have hnext : lookupNext file b (UInt64.ofNat pos) =
          some (UInt64.ofNat pos + (h.payldOff + h.payldsiz)) := by
        rw [lookupNext, hread]
        exact if_neg hb
      rw [hnext, if_neg hc]
      simp [hb, LookupStrays, leadsAstray_singleton, hahead]

end Lookup

end BlkdevSnapshot

import BlkdevSnapshot.MakeSnapshot

/-!
# The kernel's scan over a log of records

On a file that begins with complete records the scan of `file_lookup` visits
their headers in order. The lemmas follow one record at a time: the part of the
file before the current offset is kept as an explicit prefix.
-/
namespace BlkdevSnapshot

theorem loff_ofNat {n : ℕ} (h : n ≤ maxLfsFilesize) : loff (UInt64.ofNat n) = n := by
  simp only [maxLfsFilesize] at h
  have hn : (UInt64.ofNat n).toNat = n := by
    rw [UInt64.toNat_ofNat', Nat.mod_eq_of_lt (by omega)]
  rw [loff_of_lt (by omega), hn]

theorem toNat_ofNat_of_le {n : ℕ} (h : n ≤ maxLfsFilesize) : (UInt64.ofNat n).toNat = n := by
  simp only [maxLfsFilesize] at h
  rw [UInt64.toNat_ofNat', Nat.mod_eq_of_lt (by omega)]

theorem readAt_header (pre post : Bytes) (h : SnapblockFileHdr) :
    readAt (pre ++ (h.toBytes ++ post)) pre.length sizeofHdr = h.toBytes := by
  have hlen : h.toBytes.length ≤ maxRwCount := by rw [h.toBytes_length]; decide
  have := readAt_append pre h.toBytes post hlen
  rwa [h.toBytes_length, List.append_assoc] at this

/-- A header with the right magic number is read back at its offset. -/
theorem readSnapblockMandatoryHeader_header (ok : Bool) {pre post : Bytes} (h : SnapblockFileHdr)
    (hlen : pre.length ≤ maxLfsFilesize) (hm : h.magic = snapblockMagic) :
    readSnapblockMandatoryHeader ok (pre ++ (h.toBytes ++ post)) (UInt64.ofNat pre.length) =
      if ok then some h else none := by
  have hoff : ¬ (loff (UInt64.ofNat pre.length) < 0) := by
    rw [loff_ofNat hlen]; omega
  simp only [readSnapblockMandatoryHeader, toNat_ofNat_of_le hlen, readAt_header,
    SnapblockFileHdr.ofBytes_toBytes, h.toBytes_length, hm]
  cases ok <;> simp [hoff]

/-- Where fewer than 40 bytes are left no header is read. -/
theorem readSnapblockMandatoryHeader_eof (ok : Bool) {file : Bytes} {off : UInt64}
    (h : file.length < off.toNat + sizeofHdr) :
    readSnapblockMandatoryHeader ok file off = none := by
  have hlen := readAt_length_le file off.toNat sizeofHdr
  have hne : (readAt file off.toNat sizeofHdr).length ≠ sizeofHdr := by
    simp only [sizeofHdr] at h hlen ⊢
    omega
  simp [readSnapblockMandatoryHeader, hne]

/-- The offset of `file_lookup` moves from one record to the next. -/
theorem ofNat_add_displacement {pre post : Bytes} (r : Record)
    (hlen : (pre ++ (r.encode ++ post)).length ≤ maxLfsFilesize) :
    UInt64.ofNat pre.length + (r.hdr.payldOff + r.hdr.payldsiz) =
      UInt64.ofNat (pre ++ r.encode).length := by
  have hsum : (r.hdr.payldOff + r.hdr.payldsiz).toNat = r.encode.length :=
    r.payldOff_add_payldsiz
  have hpre : pre.length ≤ maxLfsFilesize := by simp only [List.length_append] at hlen; omega
  have hle : (pre ++ r.encode).length ≤ maxLfsFilesize := by
    simp only [List.length_append] at hlen ⊢; omega
  apply UInt64.toNat.inj
  rw [UInt64.toNat_add, hsum, toNat_ofNat_of_le hpre, toNat_ofNat_of_le hle]
  simp only [maxLfsFilesize, List.length_append] at hle ⊢
  omega

variable (headerRead : ℕ → Bool) (b : UInt64)

/-- One round of the scan at the start of a complete record. -/
theorem fileLookupFrom_record {pre post : Bytes} (r : Record) (fuel i : ℕ)
    (hlen : (pre ++ (r.encode ++ post)).length ≤ maxLfsFilesize) :
    fileLookupFrom headerRead (pre ++ (r.encode ++ post)) b (fuel + 1) i
        (UInt64.ofNat pre.length) =
      if headerRead i then
        if r.blknr = b then some true
        else fileLookupFrom headerRead (pre ++ (r.encode ++ post)) b fuel (i + 1)
          (UInt64.ofNat (pre ++ r.encode).length)
      else some false := by
  have hpre : pre.length ≤ maxLfsFilesize := by simp only [List.length_append] at hlen; omega
  have hfile : pre ++ (r.encode ++ post) =
      pre ++ (r.hdr.toBytes ++ (r.ext ++ r.payload ++ post)) := by
    simp [Record.encode]
  rw [fileLookupFrom, hfile, readSnapblockMandatoryHeader_header _ r.hdr hpre rfl, ← hfile]
  cases headerRead i with
  | false => rfl
  | true => simp only [if_true, ofNat_add_displacement r hlen]; rfl

/-- A scan that meets no record of `b` reaches the end of the records. -/
theorem fileLookupFrom_skip (hread : ∀ i, headerRead i = true) {rs : List Record}
    (hb : ∀ r ∈ rs, r.blknr ≠ b) (pre tail : Bytes) (fuel i : ℕ)
    (hlen : (pre ++ (encodeLog rs ++ tail)).length ≤ maxLfsFilesize) :
    fileLookupFrom headerRead (pre ++ (encodeLog rs ++ tail)) b (rs.length + fuel) i
        (UInt64.ofNat pre.length) =
      fileLookupFrom headerRead (pre ++ (encodeLog rs ++ tail)) b fuel (i + rs.length)
        (UInt64.ofNat (pre ++ encodeLog rs).length) := by
  induction rs generalizing pre i with
  | nil => simp
  | cons r rs ih =>
    have hfile : pre ++ (encodeLog (r :: rs) ++ tail) =
        pre ++ (r.encode ++ (encodeLog rs ++ tail)) := by
      simp
    have hassoc : pre ++ (r.encode ++ (encodeLog rs ++ tail)) =
        (pre ++ r.encode) ++ (encodeLog rs ++ tail) := by simp
    have hfuel : (r :: rs).length + fuel = rs.length + fuel + 1 := by simp; omega
    have hcount : i + (r :: rs).length = i + 1 + rs.length := by simp; omega
    have hrest := ih (fun q hq => hb q (List.mem_cons_of_mem _ hq)) (pre ++ r.encode) (i + 1)
      (by rw [← hassoc, ← hfile]; exact hlen)
    have hne : r.blknr ≠ b := hb r List.mem_cons_self
    rw [hfile, hfuel, fileLookupFrom_record headerRead b r _ i (by rw [← hfile]; exact hlen),
      hread i, if_pos rfl, if_neg hne, hassoc, hrest, hcount]
    simp

/-- A block with a complete record is found when the header reads succeed. -/
theorem fileLookupFrom_found (hread : ∀ i, headerRead i = true) {rs : List Record}
    (hb : ∃ r ∈ rs, r.blknr = b) (pre tail : Bytes) (fuel i : ℕ)
    (hlen : (pre ++ (encodeLog rs ++ tail)).length ≤ maxLfsFilesize) :
    fileLookupFrom headerRead (pre ++ (encodeLog rs ++ tail)) b (rs.length + fuel) i
      (UInt64.ofNat pre.length) = some true := by
  induction rs generalizing pre i with
  | nil => simp at hb
  | cons r rs ih =>
    have hfile : pre ++ (encodeLog (r :: rs) ++ tail) =
        pre ++ (r.encode ++ (encodeLog rs ++ tail)) := by
      simp
    have hassoc : pre ++ (r.encode ++ (encodeLog rs ++ tail)) =
        (pre ++ r.encode) ++ (encodeLog rs ++ tail) := by simp
    have hfuel : (r :: rs).length + fuel = rs.length + fuel + 1 := by simp; omega
    rw [hfile, hfuel, fileLookupFrom_record headerRead b r _ i (by rw [← hfile]; exact hlen),
      hread i, if_pos rfl]
    by_cases hr : r.blknr = b
    · rw [if_pos hr]
    · obtain ⟨q, hq, hqb⟩ := hb
      have hq' : q ∈ rs := (List.mem_cons.mp hq).resolve_left fun he => hr (he ▸ hqb)
      rw [if_neg hr, hassoc]
      exact ih ⟨q, hq', hqb⟩ (pre ++ r.encode) (i + 1) (by rw [← hassoc, ← hfile]; exact hlen)

/-- Whatever the reads do, a scan that claims to have found `b` inside complete
records has met a record of `b`, or it went on into the tail. -/
theorem fileLookupFrom_sound (rs : List Record) (pre tail : Bytes) (fuel i : ℕ)
    (hlen : (pre ++ (encodeLog rs ++ tail)).length ≤ maxLfsFilesize)
    (h : fileLookupFrom headerRead (pre ++ (encodeLog rs ++ tail)) b fuel i
      (UInt64.ofNat pre.length) = some true) :
    (∃ r ∈ rs, r.blknr = b) ∨
    ∃ fuel' i', fileLookupFrom headerRead (pre ++ (encodeLog rs ++ tail)) b fuel' i'
      (UInt64.ofNat (pre ++ encodeLog rs).length) = some true := by
  induction rs generalizing pre i fuel with
  | nil => exact .inr ⟨fuel, i, by simpa using h⟩
  | cons r rs ih =>
    have hfile : pre ++ (encodeLog (r :: rs) ++ tail) =
        pre ++ (r.encode ++ (encodeLog rs ++ tail)) := by
      simp
    have hassoc : pre ++ (r.encode ++ (encodeLog rs ++ tail)) =
        (pre ++ r.encode) ++ (encodeLog rs ++ tail) := by simp
    cases fuel with
    | zero => simp [fileLookupFrom] at h
    | succ fuel =>
      rw [hfile, fileLookupFrom_record headerRead b r _ i (by rw [← hfile]; exact hlen)] at h
      by_cases hread : headerRead i
      · by_cases hr : r.blknr = b
        · exact .inl ⟨r, List.mem_cons_self, hr⟩
        · rw [if_pos hread, if_neg hr, hassoc] at h
          rcases ih (pre ++ r.encode) fuel (i + 1) (by rw [← hassoc, ← hfile]; exact hlen) h with
            hin | hout
          · obtain ⟨q, hq, hqb⟩ := hin
            exact .inl ⟨q, List.mem_cons_of_mem _ hq, hqb⟩
          · right
            rw [hfile, hassoc]
            simpa using hout
      · simp [hread] at h

/-- At a place where no header can be read the scan ends without a match. -/
theorem fileLookupFrom_eof {file : Bytes} {off : UInt64} (fuel i : ℕ)
    (h : file.length < off.toNat + sizeofHdr) :
    fileLookupFrom headerRead file b (fuel + 1) i off = some false := by
  rw [fileLookupFrom, readSnapblockMandatoryHeader_eof _ h]

/-- On a log of complete records with working reads, `file_lookup` decides
whether the block has a record. -/
theorem fileLookup_log (hread : ∀ i, headerRead i = true) {rs : List Record}
    (hlen : (encodeLog rs).length ≤ maxLfsFilesize) {fuel : ℕ} (hfuel : rs.length < fuel) :
    fileLookup fuel headerRead b (encodeLog rs) = some (decide (∃ r ∈ rs, r.blknr = b)) := by
  obtain ⟨extra, rfl⟩ : ∃ extra, fuel = rs.length + (extra + 1) :=
    ⟨fuel - rs.length - 1, by omega⟩
  have hz : UInt64.ofNat ([] : Bytes).length = 0 := rfl
  by_cases hb : ∃ r ∈ rs, r.blknr = b
  · have := fileLookupFrom_found headerRead b hread hb [] [] (extra + 1) 0
      (by simpa using hlen)
    rw [hz] at this
    simpa [fileLookup, hb] using this
  · have hne : ∀ r ∈ rs, r.blknr ≠ b := fun r hr he => hb ⟨r, hr, he⟩
    have := fileLookupFrom_skip headerRead b hread hne [] [] (extra + 1) 0
      (by simpa using hlen)
    rw [hz] at this
    simp only [List.nil_append, List.append_nil] at this
    rw [fileLookup, this, fileLookupFrom_eof _ _ _ _ (by
      rw [toNat_ofNat_of_le hlen]; simp [sizeofHdr])]
    simp [hb]

/-- A scan of a log finds only blocks that have a record, whatever its reads do. -/
theorem fileLookup_log_sound {rs : List Record} (hlen : (encodeLog rs).length ≤ maxLfsFilesize)
    {fuel : ℕ} (h : fileLookup fuel headerRead b (encodeLog rs) = some true) :
    ∃ r ∈ rs, r.blknr = b := by
  have hz : UInt64.ofNat ([] : Bytes).length = 0 := rfl
  have hscan := fileLookupFrom_sound headerRead b rs [] [] fuel 0 (by simpa using hlen)
  simp only [List.nil_append, List.append_nil, hz] at hscan
  rcases hscan h with hin | ⟨fuel', i', hout⟩
  · exact hin
  · cases fuel' with
    | zero => simp [fileLookupFrom] at hout
    | succ fuel' =>
      rw [fileLookupFrom_eof _ _ _ _ (by rw [toNat_ofNat_of_le hlen]; simp [sizeofHdr])] at hout
      cases hout

/-- A block with a complete record is found behind which any bytes may follow. -/
theorem fileLookup_found (hread : ∀ i, headerRead i = true) {rs : List Record} {tail : Bytes}
    (hlen : (encodeLog rs ++ tail).length ≤ maxLfsFilesize) (hb : ∃ r ∈ rs, r.blknr = b)
    {fuel : ℕ} (hfuel : rs.length ≤ fuel) :
    fileLookup fuel headerRead b (encodeLog rs ++ tail) = some true := by
  obtain ⟨extra, rfl⟩ : ∃ extra, fuel = rs.length + extra := ⟨fuel - rs.length, by omega⟩
  exact fileLookupFrom_found headerRead b hread hb [] tail extra 0 hlen

end BlkdevSnapshot

import BlkdevSnapshot.ByteFile
import BlkdevSnapshot.LittleEndian

/-!
# The snapblocks format

A snapblocks file is a sequence of records: a packed 40-byte mandatory header,
an optional extended header and a payload. The payload offset in the header is
relative to the start of the header, so it also tells the extended header's size.
-/
namespace BlkdevSnapshot
open LittleEndian

/-- `SNAPBLOCK_MAGIC` -/
def snapblockMagic : UInt64 := 0x5ade5aad5abe5aef

/-- `SNAPBLOCK_PAYLOAD_TYPE_RAW` -/
def snapblockPayloadTypeRaw : UInt64 := 0

/-- `struct snapblock_file_hdr` -/
structure SnapblockFileHdr where
  magic : UInt64
  blknr : UInt64
  payldsiz : UInt64
  payldType : UInt64
  payldOff : UInt64
  deriving DecidableEq, Repr

/-- `sizeof(struct snapblock_file_hdr)` -/
def sizeofHdr : ℕ := 40

namespace SnapblockFileHdr

/-- The packed header in memory and on disk. -/
def toBytes (h : SnapblockFileHdr) : Bytes :=
  leBytes 8 h.magic.toNat ++ leBytes 8 h.blknr.toNat ++ leBytes 8 h.payldsiz.toNat ++
    leBytes 8 h.payldType.toNat ++ leBytes 8 h.payldOff.toNat

/-- One eight-byte field of a header buffer. -/
def field (buf : Bytes) (i : ℕ) : UInt64 := UInt64.ofNat (leValue ((buf.drop (8 * i)).take 8))

/-- The header that a 40-byte buffer holds. -/
def ofBytes (buf : Bytes) : SnapblockFileHdr :=
  ⟨field buf 0, field buf 1, field buf 2, field buf 3, field buf 4⟩

@[simp] theorem toBytes_length (h : SnapblockFileHdr) : h.toBytes.length = sizeofHdr := by
  simp [toBytes, sizeofHdr]

theorem field_append (pre post : Bytes) (x : UInt64) (i : ℕ) (h : pre.length = 8 * i) :
    field (pre ++ leBytes 8 x.toNat ++ post) i = x := by
  rw [field, ← h, List.append_assoc, List.drop_left, List.take_left' (leBytes_length 8 _),
    ofNat_leValue_leBytes]

@[simp] theorem ofBytes_toBytes (h : SnapblockFileHdr) : ofBytes h.toBytes = h := by
  have h0 := field_append [] (leBytes 8 h.blknr.toNat ++ leBytes 8 h.payldsiz.toNat ++
    leBytes 8 h.payldType.toNat ++ leBytes 8 h.payldOff.toNat) h.magic 0 rfl
  have h1 := field_append (leBytes 8 h.magic.toNat) (leBytes 8 h.payldsiz.toNat ++
    leBytes 8 h.payldType.toNat ++ leBytes 8 h.payldOff.toNat) h.blknr 1 (by simp)
  have h2 := field_append (leBytes 8 h.magic.toNat ++ leBytes 8 h.blknr.toNat)
    (leBytes 8 h.payldType.toNat ++ leBytes 8 h.payldOff.toNat) h.payldsiz 2 (by simp)
  have h3 := field_append (leBytes 8 h.magic.toNat ++ leBytes 8 h.blknr.toNat ++
    leBytes 8 h.payldsiz.toNat) (leBytes 8 h.payldOff.toNat) h.payldType 3 (by simp)
  have h4 := field_append (leBytes 8 h.magic.toNat ++ leBytes 8 h.blknr.toNat ++
    leBytes 8 h.payldsiz.toNat ++ leBytes 8 h.payldType.toNat) [] h.payldOff 4 (by simp)
  simp only [List.nil_append, List.append_nil, List.append_assoc] at h0 h1 h2 h3 h4
  simp only [ofBytes, toBytes, List.append_assoc, h0, h1, h2, h3, h4]

end SnapblockFileHdr

/-- A record as the writer lays it out. Its length fits in a file offset. -/
structure Record where
  blknr : UInt64
  payldType : UInt64
  ext : Bytes
  payload : Bytes
  fits : sizeofHdr + ext.length + payload.length ≤ maxLfsFilesize
  deriving DecidableEq

namespace Record

def payldsiz (r : Record) : UInt64 := UInt64.ofNat r.payload.length

def payldOff (r : Record) : UInt64 := UInt64.ofNat (sizeofHdr + r.ext.length)

def hdr (r : Record) : SnapblockFileHdr :=
  ⟨snapblockMagic, r.blknr, r.payldsiz, r.payldType, r.payldOff⟩

def encode (r : Record) : Bytes := r.hdr.toBytes ++ r.ext ++ r.payload

/-- A raw record without extended header, the only kind the kernel writes. -/
def raw (blknr : UInt64) (payload : Bytes) (h : sizeofHdr + payload.length ≤ maxLfsFilesize) :
    Record := ⟨blknr, snapblockPayloadTypeRaw, [], payload, by simpa using h⟩

@[simp] theorem payldsiz_toNat (r : Record) : r.payldsiz.toNat = r.payload.length := by
  have h := r.fits
  simp only [sizeofHdr, maxLfsFilesize] at h
  rw [payldsiz, UInt64.toNat_ofNat', Nat.mod_eq_of_lt (by omega)]

@[simp] theorem payldOff_toNat (r : Record) : r.payldOff.toNat = sizeofHdr + r.ext.length := by
  have h := r.fits
  simp only [sizeofHdr, maxLfsFilesize] at h ⊢
  rw [payldOff, UInt64.toNat_ofNat', sizeofHdr, Nat.mod_eq_of_lt (by omega)]

@[simp] theorem encode_length (r : Record) :
    r.encode.length = sizeofHdr + r.ext.length + r.payload.length := by
  simp [encode, Nat.add_assoc]

theorem sizeofHdr_le_encode (r : Record) : sizeofHdr ≤ r.encode.length := by
  simp only [encode_length]; omega

theorem payload_length_lt (r : Record) : r.payload.length < 2 ^ 63 := by
  have h := r.fits
  simp only [maxLfsFilesize] at h
  omega

/-- A part of a record that has its header. -/
theorem take_encode (r : Record) {k : ℕ} (hk : sizeofHdr ≤ k) :
    r.encode.take k = r.hdr.toBytes ++ (r.ext ++ r.payload).take (k - sizeofHdr) := by
  have hhdr : r.hdr.toBytes.length = sizeofHdr := r.hdr.toBytes_length
  rw [encode, List.append_assoc, List.take_append, hhdr, List.take_of_length_le (hhdr.trans_le hk)]

/-- The displacement that both readers add to reach the next header. -/
theorem payldOff_add_payldsiz (r : Record) :
    (r.payldOff + r.payldsiz).toNat = r.encode.length := by
  have h := r.fits
  simp only [maxLfsFilesize] at h
  rw [UInt64.toNat_add, payldOff_toNat, payldsiz_toNat, encode_length, Nat.mod_eq_of_lt (by omega)]

@[simp] theorem raw_blknr (b : UInt64) (p : Bytes) (h) : (raw b p h).blknr = b := rfl
@[simp] theorem raw_payload (b : UInt64) (p : Bytes) (h) : (raw b p h).payload = p := rfl
@[simp] theorem raw_ext (b : UInt64) (p : Bytes) (h) : (raw b p h).ext = [] := rfl

end Record

/-- The bytes of a list of records. -/
def encodeLog (rs : List Record) : Bytes := rs.flatMap Record.encode

@[simp] theorem encodeLog_nil : encodeLog [] = [] := rfl

@[simp] theorem encodeLog_cons (r : Record) (rs : List Record) :
    encodeLog (r :: rs) = r.encode ++ encodeLog rs := rfl

@[simp] theorem encodeLog_append (rs ts : List Record) :
    encodeLog (rs ++ ts) = encodeLog rs ++ encodeLog ts := by
  simp [encodeLog]

theorem encodeLog_length_of_forall {rs : List Record} {n : ℕ}
    (h : ∀ r ∈ rs, r.encode.length = n) : (encodeLog rs).length = rs.length * n := by
  induction rs with
  | nil => simp
  | cons r rs ih =>
    rw [encodeLog_cons, List.length_append, h r List.mem_cons_self,
      ih fun q hq => h q (List.mem_cons_of_mem _ hq), List.length_cons]
    ring

end BlkdevSnapshot

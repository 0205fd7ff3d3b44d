import BlkdevSnapshot.SingleFile

/-!
# The single-file file system is a bounded file

A file of at most `M` blocks as the system calls should see it, and the relation between
it and a device of `M + 2` blocks. The handlers answer as the bounded file does, whatever
the block reads and the copies return.
-/
namespace BlkdevSnapshot

namespace BoundedFile

/-- A read at an offset. -/
def readAtOff (f : BoundedFile) (io : ReadIo) (len off : ℕ) : Except Errno Bytes :=
  if f.content.length ≤ off then .ok []
  else if !io.bread then .error eio
  else .ok ((f.content.drop off).take
    (span singlefilefsBlockSize off (min len (f.content.length - off)) - io.left))

/-- A write at an offset. The size reaches the medium with a third block read only. -/
def writeAtOff (M : ℕ) (f : BoundedFile) (io : WriteIo) (off : ℕ) (buf : Bytes) :
    BoundedFile × WriteEnd :=
  if !io.sbBread then (f, .hang)
  else if M * singlefilefsBlockSize < off then (f, .error enomem)
  else if f.content.length < off then (f, .wrote 0)
  else if !io.bread || off = M * singlefilefsBlockSize then (f, .error eio)
  else
    let len := span singlefilefsBlockSize off buf.length
    let n := len - io.left
    let content := put f.content off (buf.take n) (len - n)
    if f.content.length < off + n then
      if io.inodeBread then (⟨content, off + n⟩, .wrote n)
      else (⟨content, f.durable⟩, .error eio)
    else (⟨content, f.durable⟩, .wrote n)

/-- A file of at most `M` blocks. -/
def store (M : ℕ) : FileStore BoundedFile ReadIo WriteIo where
  fillSuper _ io :=
    if !io.bread then .oops
    else if !io.iget || !io.makeRoot then .error enomem
    else .mounted
  lookup f io :=
    if !io.iget then (f, .error enomem false)
    else if !io.bread then (f, .error eio true)
    else (⟨f.content.take f.durable, f.durable⟩, .found)
  iSize f := UInt64.ofNat f.content.length
  read f io len off := f.readAtOff io len.toNat off.toNat
  write f io off buf := f.writeAtOff M io off.toNat buf

end BoundedFile

namespace OneFile
variable {M : ℕ}

/-- The blocks of the file. -/
def fileBlocks (image : Image (M + 2)) : Image M := fun i => image i.succ.succ

/-- A device with the file system on it and a file of that content, whose inode has the size
in memory. The numbers of its blocks are positive as an `int`. -/
structure Holds (fs : OneFile (M + 2)) (f : BoundedFile) : Prop where
  intBlocks : M + 2 ≤ 2 ^ 31
  magic : sbMagic (fs.image 0) = BlkdevSnapshot.magic
  maxFileSize : (sbMaxFileSize (fs.image 0)).toNat = M * singlefilefsBlockSize
  durable : (inodeFileSize (fs.image 1)).toNat = f.durable
  durable_le : f.durable ≤ f.content.length
  size : fs.iSize.toNat = f.content.length
  size_le : f.content.length ≤ M * singlefilefsBlockSize
  content : f.content = (flatten (fileBlocks fs.image)).take f.content.length

/-! ## Block numbers -/

theorem intBlock_toNat {x : UInt64} (h : x.toNat < 2 ^ 31) : (intBlock x).toNat = x.toNat := by
  have h' : x.toBitVec.toNat < 2 ^ 31 := h
  have hmsb : (x.toBitVec.setWidth 32).msb = false := by
    rw [BitVec.msb_eq_false_iff_two_mul_lt, BitVec.toNat_setWidth]
    omega
  show ((x.toBitVec.setWidth 32).signExtend 64).toNat = x.toBitVec.toNat
  rw [BitVec.signExtend_eq_setWidth_of_msb_false hmsb, BitVec.toNat_setWidth, BitVec.toNat_setWidth]
  omega

theorem le_intBlock_toNat {x : UInt64} (h : x.toNat = 2 ^ 31) : 2 ^ 31 ≤ (intBlock x).toNat := by
  have hx : x = 2147483648 := UInt64.toNat_inj.mp h
  rw [hx]
  decide

theorem sbBread_of_toNat {N : ℕ} (ok : Bool) {block : UInt64} {b : Fin N} (h : block.toNat = b) :
    sbBread N ok block = if ok then some b else none := by
  have hlt : block.toNat < N := by rw [h]; exact b.isLt
  have hb : (⟨block.toNat, hlt⟩ : Fin N) = b := Fin.ext h
  rw [sbBread, dif_pos hlt, hb]

theorem sbBread_of_le {N : ℕ} (ok : Bool) {block : UInt64} (h : N ≤ block.toNat) :
    sbBread N ok block = none := by
  rw [sbBread, dif_neg (by omega)]
  split <;> rfl

theorem sbBread_super (ok : Bool) :
    sbBread (M + 2) ok sbBlockNumber = if ok then some 0 else none :=
  sbBread_of_toNat ok rfl

theorem sbBread_inodes (ok : Bool) :
    sbBread (M + 2) ok singlefilefsInodesBlockNumber = if ok then some 1 else none :=
  sbBread_of_toNat ok rfl

theorem blockIndex_toNat {off : UInt64} (h : off.toNat < 2 ^ 63) :
    (off / defaultBlockSize + 2).toNat = off.toNat / singlefilefsBlockSize + 2 := by
  have hdiv : (off / defaultBlockSize).toNat = off.toNat / singlefilefsBlockSize :=
    UInt64.toNat_div _ _
  rw [UInt64.toNat_add, hdiv]
  simp only [singlefilefsBlockSize]
  have htwo : (2 : UInt64).toNat = 2 := rfl
  omega

theorem offset_toNat (off : UInt64) :
    (off % defaultBlockSize).toNat = off.toNat % singlefilefsBlockSize :=
  UInt64.toNat_mod _ _

/-- The block of an offset in the file. -/
theorem sbBread_file (hM : M + 2 ≤ 2 ^ 31) (ok : Bool) {off : UInt64} (i : Fin M)
    (h : off.toNat / singlefilefsBlockSize = i) :
    sbBread (M + 2) ok (blockToAccess off) = if ok then some i.succ.succ else none := by
  have hi := i.isLt
  have hoff : off.toNat < 2 ^ 63 := by
    simp only [singlefilefsBlockSize] at h
    omega
  apply sbBread_of_toNat
  have hnr := blockIndex_toNat hoff
  rw [blockToAccess, intBlock_toNat (by omega), hnr, h]
  rfl

/-- There is no block at the end of the largest file. -/
theorem sbBread_limit (hM : M + 2 ≤ 2 ^ 31) (ok : Bool) {off : UInt64}
    (h : off.toNat = M * singlefilefsBlockSize) :
    sbBread (M + 2) ok (blockToAccess off) = none := by
  have hindex : off.toNat / singlefilefsBlockSize = M := by
    rw [h]
    exact Nat.mul_div_cancel M singlefilefsBlockSize_pos
  have hoff : off.toNat < 2 ^ 63 := by
    simp only [singlefilefsBlockSize] at h
    omega
  have hnr := blockIndex_toNat hoff
  rw [hindex] at hnr
  apply sbBread_of_le
  rw [blockToAccess]
  by_cases hlt : M + 2 < 2 ^ 31
  · rw [intBlock_toNat (by omega), hnr]
  · have hge := le_intBlock_toNat (hnr.trans (by omega))
    omega

/-! ## Lengths -/

theorem cutToBlock_toNat {off len : UInt64} (h : len.toNat < 2 ^ 63) :
    (cutToBlock off len).toNat = BoundedFile.span singlefilefsBlockSize off.toNat len.toNat := by
  have hoff := offset_toNat off
  have hsize : defaultBlockSize.toNat = 4096 := rfl
  have hsum : (off % defaultBlockSize + len).toNat =
      off.toNat % singlefilefsBlockSize + len.toNat := by
    rw [UInt64.toNat_add, hoff]
    simp only [singlefilefsBlockSize]
    omega
  have hsub : (defaultBlockSize - off % defaultBlockSize).toNat =
      4096 - off.toNat % singlefilefsBlockSize := by
    rw [UInt64.toNat_sub_of_le, hoff, hsize]
    rw [UInt64.le_iff_toNat_le, hoff, hsize]
    simp only [singlefilefsBlockSize]
    omega
  simp only [cutToBlock, BoundedFile.span]
  split_ifs with hcut
  · rw [UInt64.lt_iff_toNat_lt, hsum, hsize] at hcut
    rw [hsub]
    simp only [singlefilefsBlockSize] at hcut ⊢
    omega
  · rw [UInt64.lt_iff_toNat_lt, hsum, hsize] at hcut
    simp only [singlefilefsBlockSize] at hcut ⊢
    omega

/-- A length cut at an end that lies behind the offset. -/
theorem cutToEnd_toNat {stop off len : UInt64} (hoff : off.toNat < 2 ^ 63)
    (hlen : len.toNat < 2 ^ 63) (h : off.toNat ≤ stop.toNat) :
    (if stop < off + len then stop - off else len).toNat =
      min len.toNat (stop.toNat - off.toNat) := by
  have hsum : (off + len).toNat = off.toNat + len.toNat := by
    rw [UInt64.toNat_add]
    omega
  have hsub : (stop - off).toNat = stop.toNat - off.toNat :=
    UInt64.toNat_sub_of_le _ _ (UInt64.le_iff_toNat_le.mpr h)
  split_ifs with hcut
  · rw [UInt64.lt_iff_toNat_lt, hsum] at hcut
    rw [hsub]
    omega
  · rw [UInt64.lt_iff_toNat_lt, hsum] at hcut
    omega

/-- The length of a transfer that is cut at the end `stop` and at the end of its block. -/
theorem transfer_toNat {stop off len : UInt64} (hoff : off.toNat < 2 ^ 63)
    (hlen : len.toNat < 2 ^ 63) (h : off.toNat ≤ stop.toNat) :
    (cutToBlock off (if stop < off + len then stop - off else len)).toNat =
      BoundedFile.span singlefilefsBlockSize off.toNat
        (min len.toNat (stop.toNat - off.toNat)) := by
  have hcut := cutToEnd_toNat hoff hlen h
  rw [cutToBlock_toNat (by rw [hcut]; omega), hcut]

/-! ## The operations -/

section Operations
variable {fs : OneFile (M + 2)} {f : BoundedFile}

theorem Holds.fillSuper (h : fs.Holds f) (io : MountIo) :
    fs.fillSuper io = (BoundedFile.store M).fillSuper f io := by
  simp only [OneFile.fillSuper, sbBread_super, BoundedFile.store]
  cases io.bread with
  | false => rfl
  | true =>
    simp only [if_true, h.magic, ne_eq, not_true_eq_false, if_false]
    cases io.iget <;> cases io.makeRoot <;> rfl

theorem Holds.lookup (h : fs.Holds f) (io : LookupIo) :
    (fs.lookup io).2 = ((BoundedFile.store M).lookup f io).2 ∧
      (fs.lookup io).1.Holds ((BoundedFile.store M).lookup f io).1 := by
  simp only [OneFile.lookup, sbBread_inodes, BoundedFile.store]
  cases io.iget with
  | false => exact ⟨rfl, h⟩
  | true =>
    cases io.bread with
    | false => exact ⟨rfl, h⟩
    | true =>
      have hlen : (f.content.take f.durable).length = f.durable := by
        rw [List.length_take, min_eq_left h.durable_le]
      refine ⟨rfl, h.intBlocks, h.magic, h.maxFileSize, h.durable, le_of_eq hlen.symm,
        h.durable.trans hlen.symm, ?_, ?_⟩
      · show (f.content.take f.durable).length ≤ _
        rw [hlen]
        exact h.durable_le.trans h.size_le
      · show f.content.take f.durable = (flatten (fileBlocks fs.image)).take
          (f.content.take f.durable).length
        rw [hlen]
        conv_lhs => rw [h.content]
        rw [List.take_take, min_eq_left h.durable_le]

theorem Holds.iSize (h : fs.Holds f) : fs.iSize = UInt64.ofNat f.content.length := by
  rw [← h.size, UInt64.ofNat_toNat]

theorem area_length (image : Image (M + 2)) :
    (flatten (fileBlocks image)).length = M * singlefilefsBlockSize :=
  flatten_length _

theorem Holds.limit_lt (h : fs.Holds f) : M * singlefilefsBlockSize < 2 ^ 43 := by
  have hM := h.intBlocks
  simp only [singlefilefsBlockSize]
  omega

/-- An offset in the file has a block there. -/
theorem exists_block {off : ℕ} (h : off < M * singlefilefsBlockSize) :
    ∃ i : Fin M, off / singlefilefsBlockSize = i :=
  ⟨⟨off / singlefilefsBlockSize, Nat.div_lt_of_lt_mul (by rwa [Nat.mul_comm])⟩, rfl⟩

theorem Holds.read (h : fs.Holds f) (io : ReadIo) {len off : UInt64}
    (hlen : len.toNat ≤ maxRwCount) (hoff : off.toNat < 2 ^ 63) :
    fs.read io len off = f.readAtOff io len.toNat off.toNat := by
  have hmax : maxRwCount < 2 ^ 63 := by decide
  have hend : fs.iSize ≤ off ↔ f.content.length ≤ off.toNat := by
    rw [UInt64.le_iff_toNat_le, h.size]
  by_cases hbehind : f.content.length ≤ off.toNat
  · simp only [OneFile.read, BoundedFile.readAtOff, if_pos (hend.mpr hbehind), if_pos hbehind]
  · have hsize := h.size
    have hle := h.size_le
    obtain ⟨i, hi⟩ := exists_block (by omega : off.toNat < M * singlefilefsBlockSize)
    have hcut := transfer_toNat hoff (by omega : len.toNat < 2 ^ 63)
      (by omega : off.toNat ≤ fs.iSize.toNat)
    rw [hsize] at hcut
    simp only [OneFile.read, BoundedFile.readAtOff, if_neg (mt hend.mp hbehind), if_neg hbehind,
      sbBread_file h.intBlocks io.bread i hi, hcut, offset_toNat]
    cases io.bread with
    | false => rfl
    | true =>
      show Except.ok _ = Except.ok _
      congr 1
      set k := BoundedFile.span singlefilefsBlockSize off.toNat
        (min len.toNat (f.content.length - off.toNat)) - io.left with hk
      have hinBlock : off.toNat % singlefilefsBlockSize + k ≤ singlefilefsBlockSize := by
        simp only [hk, BoundedFile.span, singlefilefsBlockSize]
        omega
      have hinFile : off.toNat + k ≤ f.content.length := by
        simp only [hk, BoundedFile.span]
        omega
      have hstart : (i : ℕ) * singlefilefsBlockSize + off.toNat % singlefilefsBlockSize =
          off.toNat := by
        rw [← hi]
        exact Nat.div_add_mod' _ _
      calc ((fs.image i.succ.succ).1.drop (off.toNat % singlefilefsBlockSize)).take k
        _ = ((flatten (fileBlocks fs.image)).drop off.toNat).take k := by
            have hseg := take_drop_block (fileBlocks fs.image) i hinBlock
            rwa [hstart] at hseg
        _ = (((flatten (fileBlocks fs.image)).take f.content.length).drop off.toNat).take k := by
            rw [List.drop_take, List.take_take, min_eq_left (by omega)]
        _ = (f.content.drop off.toNat).take k := by rw [← h.content]

/-! ## Writes -/

theorem inodeFileSize_set (block : CapturedBlock) (size : UInt64) :
    inodeFileSize (setInodeFileSize block size) = size := by
  have hfit : 24 + (LittleEndian.leBytes 8 size.toNat).length ≤ singlefilefsBlockSize := by
    rw [LittleEndian.leBytes_length]
    decide
  have hword : blockAt 8 (overwrite block.1 (3 * 8) (LittleEndian.leBytes 8 size.toNat)) 3 =
      LittleEndian.leBytes 8 size.toNat :=
    blockAt_overwrite_self (LittleEndian.leBytes_length 8 _)
  rw [inodeFileSize, setInodeFileSize, Block.patch_val _ hfit]
  show UInt64.ofNat (LittleEndian.leValue (blockAt 8 _ 3)) = size
  rw [hword, LittleEndian.ofNat_leValue_leBytes]

/-- What the file looks like behind the data write, before its size is looked at. -/
structure Patched (fs : OneFile (M + 2)) (f : BoundedFile) (image : Image (M + 2))
    (content : Bytes) (stop : ℕ) : Prop where
  super : image 0 = fs.image 0
  inodes : image 1 = fs.image 1
  length : content.length = max f.content.length stop
  stop_le : stop ≤ M * singlefilefsBlockSize
  content : content = (flatten (fileBlocks image)).take content.length

theorem Holds.patch (h : fs.Holds f) {off : ℕ} (hoff : off ≤ f.content.length) {i : Fin M}
    (hi : off / singlefilefsBlockSize = i) (bytes : Bytes) (pad : ℕ)
    (hfit : off % singlefilefsBlockSize + (bytes.length + pad) ≤ singlefilefsBlockSize) :
    Patched fs f (Function.update fs.image i.succ.succ ((fs.image i.succ.succ).patch
        (off % singlefilefsBlockSize) (bytes ++ List.replicate pad 0)))
      (BoundedFile.put f.content off bytes pad) (off + bytes.length) := by
  set buf := bytes ++ List.replicate pad 0 with hbuf
  set image := Function.update fs.image i.succ.succ
    ((fs.image i.succ.succ).patch (off % singlefilefsBlockSize) buf) with himage
  have hlen : buf.length = bytes.length + pad := by
    rw [hbuf, List.length_append, List.length_replicate]
  have hstart : (i : ℕ) * singlefilefsBlockSize + off % singlefilefsBlockSize = off := by
    rw [← hi]
    exact Nat.div_add_mod' _ _
  have hiend : ((i : ℕ) + 1) * singlefilefsBlockSize ≤ M * singlefilefsBlockSize :=
    Nat.mul_le_mul_right _ i.isLt
  rw [Nat.succ_mul] at hiend
  have hblocks : fileBlocks image =
      Function.update (fileBlocks fs.image) i ((fileBlocks fs.image i).patch
        (off % singlefilefsBlockSize) buf) := by
    funext j
    by_cases hj : j = i
    · subst hj
      simp [fileBlocks, himage]
    · have hne : j.succ.succ ≠ i.succ.succ := by simpa using hj
      simp only [fileBlocks, himage, Function.update_of_ne hne, Function.update_of_ne hj]
  have harea : flatten (fileBlocks image) = overwrite (flatten (fileBlocks fs.image)) off buf := by
    rw [hblocks, flatten_patch _ _ (by rw [hlen]; exact hfit), hstart]
  have hsize := h.size_le
  have hput : BoundedFile.put f.content off bytes pad =
      (flatten (fileBlocks image)).take (max f.content.length (off + bytes.length)) := by
    rw [harea, BoundedFile.put, ← hbuf]
    conv_lhs => rw [h.content]
    rw [List.length_take, area_length, min_eq_left hsize]
    exact overwrite_take (by rw [area_length]; exact hsize) hoff (by omega)
  have hputLen : (BoundedFile.put f.content off bytes pad).length =
      max f.content.length (off + bytes.length) := by
    rw [hput, List.length_take, area_length]
    omega
  refine ⟨?_, ?_, hputLen, by omega, by rw [hputLen, hput]⟩
  · exact Function.update_of_ne (Fin.succ_ne_zero _).symm _ _
  · have hne : (1 : Fin (M + 2)) ≠ i.succ.succ := by
      intro heq
      have hval := congrArg Fin.val heq
      simp at hval
    exact Function.update_of_ne hne _ _

/-- The file behind a data write, with the size in memory and the inode block as they are then. -/
theorem Patched.holds {image image' : Image (M + 2)} {content : Bytes} {stop durable : ℕ}
    {iSize : UInt64} (hp : Patched fs f image content stop) (h : fs.Holds f)
    (hsuper : image' 0 = image 0) (hblocks : fileBlocks image' = fileBlocks image)
    (hinode : (inodeFileSize (image' 1)).toNat = durable) (hdurable : durable ≤ content.length)
    (hsize : iSize.toNat = content.length) : Holds ⟨image', iSize⟩ ⟨content, durable⟩ where
  intBlocks := h.intBlocks
  magic := by
    show sbMagic (image' 0) = _
    rw [hsuper, hp.super, h.magic]
  maxFileSize := by
    show (sbMaxFileSize (image' 0)).toNat = _
    rw [hsuper, hp.super, h.maxFileSize]
  durable := hinode
  durable_le := hdurable
  size := hsize
  size_le := hp.length.trans_le (max_le h.size_le hp.stop_le)
  content := by rw [hblocks]; exact hp.content

theorem Patched.growTo {image : Image (M + 2)} {content : Bytes} {stop : ℕ}
    (hp : Patched fs f image content stop) (h : fs.Holds f) (bdev : UInt32) (io : WriteIo)
    {off : UInt64} (hoff : off.toNat = stop) (n : ℕ) (ops : List (BufferOp BufferHead)) :
    let r := OneFile.growTo bdev { fs with image := image } io off n ops
    let a : BoundedFile × WriteEnd :=
      if f.content.length < stop then
        if io.inodeBread then (⟨content, stop⟩, .wrote n)
        else (⟨content, f.durable⟩, .error eio)
      else (⟨content, f.durable⟩, .wrote n)
    r.2.1 = a.2 ∧ r.1.Holds a.1 := by
  have hlimit := h.limit_lt
  have hsize := h.size
  have hle := h.size_le
  have hstop := hp.stop_le
  have hlen := hp.length
  have hgrows : loff fs.iSize < loff off ↔ f.content.length < stop := by
    rw [loff_of_lt (by omega), loff_of_lt (by omega), hsize, hoff, Nat.cast_lt]
  have hinode : (inodeFileSize (image 1)).toNat = f.durable := by rw [hp.inodes, h.durable]
  have hdurable : f.durable ≤ content.length := h.durable_le.trans (by omega)
  simp only [OneFile.growTo, hgrows, sbBread_inodes]
  by_cases hgrow : f.content.length < stop
  · simp only [if_pos hgrow]
    have hnew : off.toNat = content.length := by omega
    cases io.inodeBread with
    | false => exact ⟨rfl, hp.holds h rfl rfl hinode hdurable hnew⟩
    | true =>
      refine ⟨rfl, hp.holds h ?_ ?_ ?_ (by omega) hnew⟩
      · exact Function.update_of_ne (by simp) _ _
      · funext i
        have hne : i.succ.succ ≠ (1 : Fin (M + 2)) := by
          intro heq
          have hval := congrArg Fin.val heq
          simp at hval
        exact Function.update_of_ne hne _ _
      · show (inodeFileSize (Function.update image 1 _ 1)).toNat = stop
        rw [Function.update_self, inodeFileSize_set, hoff]
  · simp only [if_neg hgrow]
    exact ⟨trivial, hp.holds h rfl rfl hinode hdurable (by show fs.iSize.toNat = _; omega)⟩

theorem Holds.write (h : fs.Holds f) (bdev : UInt32) (io : WriteIo) {off : UInt64} {buf : Bytes}
    (hoff : off.toNat < 2 ^ 63) (hbuf : buf.length ≤ maxRwCount) :
    (fs.write bdev io off buf).2.1 = (f.writeAtOff M io off.toNat buf).2 ∧
      (fs.write bdev io off buf).1.Holds (f.writeAtOff M io off.toNat buf).1 := by
  have hsize := h.size
  have hle := h.size_le
  have hlimit : sbMaxFileSize (fs.image 0) < off ↔ M * singlefilefsBlockSize < off.toNat := by
    rw [UInt64.lt_iff_toNat_lt, h.maxFileSize]
  have hend : fs.iSize < off ↔ f.content.length < off.toNat := by
    rw [UInt64.lt_iff_toNat_lt, hsize]
  simp only [OneFile.write, BoundedFile.writeAtOff, sbBread_super]
  cases io.sbBread with
  | false => exact ⟨rfl, h⟩
  | true =>
    simp only [if_true, Bool.not_true, Bool.false_eq_true, if_false, hlimit, hend]
    by_cases hbeyond : M * singlefilefsBlockSize < off.toNat
    · simp only [if_pos hbeyond]
      exact ⟨trivial, h⟩
    by_cases hbehind : f.content.length < off.toNat
    · simp only [if_neg hbeyond, if_pos hbehind]
      exact ⟨trivial, h⟩
    simp only [if_neg hbeyond, if_neg hbehind]
    by_cases hfull : off.toNat = M * singlefilefsBlockSize
    · simp only [sbBread_limit h.intBlocks io.bread hfull, hfull, decide_true, Bool.or_true,
        if_true]
      exact ⟨trivial, h⟩
    obtain ⟨i, hi⟩ := exists_block (by omega : off.toNat < M * singlefilefsBlockSize)
    simp only [sbBread_file h.intBlocks io.bread i hi, hfull, decide_false, Bool.or_false]
    cases io.bread with
    | false => exact ⟨rfl, h⟩
    | true =>
      have hmax : maxRwCount < 2 ^ 63 := by decide
      have hlen : (UInt64.ofNat buf.length).toNat = buf.length := by
        rw [UInt64.toNat_ofNat', Nat.mod_eq_of_lt (by omega)]
      have hcut := transfer_toNat hoff (by omega : (UInt64.ofNat buf.length).toNat < 2 ^ 63)
        (by rw [h.maxFileSize]; omega : off.toNat ≤ (sbMaxFileSize (fs.image 0)).toNat)
      have hspan : BoundedFile.span singlefilefsBlockSize off.toNat
          (min buf.length (M * singlefilefsBlockSize - off.toNat)) =
          BoundedFile.span singlefilefsBlockSize off.toNat buf.length := by
        have hroom := BoundedFile.room_of_lt (by omega : off.toNat < M * singlefilefsBlockSize)
        simp only [BoundedFile.span]
        omega
      rw [hlen, h.maxFileSize, hspan] at hcut
      set len := BoundedFile.span singlefilefsBlockSize off.toNat buf.length with hlen'
      have hret : len - min io.left len = len - io.left := by omega
      have hpad : min io.left len = len - (len - io.left) := by omega
      have hbytes : (buf.take (len - io.left)).length = len - io.left := by
        have hspanLe := BoundedFile.span_le singlefilefsBlockSize off.toNat buf.length
        rw [List.length_take]
        omega
      have hp := h.patch (by omega) hi (buf.take (len - io.left)) (len - (len - io.left)) (by
        rw [hbytes, hlen', BoundedFile.span]
        simp only [singlefilefsBlockSize]
        omega)
      rw [hbytes] at hp
      have hstop : (off + UInt64.ofNat (len - io.left)).toNat = off.toNat + (len - io.left) := by
        have hspanLe := BoundedFile.span_le singlefilefsBlockSize off.toNat buf.length
        rw [UInt64.toNat_add, UInt64.toNat_ofNat']
        omega
      simp only [if_true, hcut, offset_toNat, Bool.not_true, Bool.false_eq_true, if_false]
      rw [hret, hpad]
      exact hp.growTo h bdev io hstop _ _

end Operations

/-- The file system on a device agrees with the bounded file that it holds. -/
theorem store_simulates (bdev : UInt32) (M : ℕ) :
    (store bdev (M + 2)).Simulates (BoundedFile.store M) Holds where
  fillSuper _ _ io h := h.fillSuper io
  lookup _ _ io h := h.lookup io
  iSize _ _ h := h.iSize
  read _ _ io _ _ h hlen hoff := h.read io hlen hoff
  write _ _ io _ _ h hoff hbuf := h.write bdev io hoff hbuf

end OneFile
end BlkdevSnapshot

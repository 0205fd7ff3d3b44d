import BlkdevSnapshot.SingleFileRefines

/-!
# Making the single-file file system

The tool that writes the superblock, the block of the inode and a first content to a
device, one `write` after the other. What it leaves uninitialised is a parameter. A device
that it formats holds a file of that content.
-/
namespace BlkdevSnapshot
open LittleEndian

/-! ## Writes one after the other -/

theorem overwrite_length_of_ne {file buf : Bytes} (pos : ℕ) (h : buf ≠ []) :
    (overwrite file pos buf).length = max file.length (pos + buf.length) := by
  rw [overwrite, if_neg h]
  simp only [List.length_append, List.length_take, List.length_drop, List.length_replicate]
  omega

/-- Two writes one behind the other are one of both buffers. -/
theorem overwrite_append (file a b : Bytes) (pos : ℕ) :
    overwrite (overwrite file pos a) (pos + a.length) b = overwrite file pos (a ++ b) := by
  by_cases ha : a = []
  · rw [ha, overwrite_nil, List.length_nil, Nat.add_zero, List.nil_append]
  by_cases hb : b = []
  · rw [hb, overwrite_nil, List.append_nil]
  have hab : a ++ b ≠ [] := by simp [ha]
  have hlen : (a ++ b).length = a.length + b.length := List.length_append
  apply List.ext_getElem?
  intro j
  rw [overwrite_getElem? _ _ _ _ hb, overwrite_getElem? _ _ _ _ hab, overwrite_getElem? _ _ _ _ ha,
    overwrite_length_of_ne _ ha, hlen]
  by_cases hbefore : j < pos
  · have hnotA : ¬ (pos ≤ j ∧ j < pos + a.length) := by omega
    have hnotAB : ¬ (pos ≤ j ∧ j < pos + (a.length + b.length)) := by omega
    rw [if_neg (by omega), if_pos (by omega), if_neg hnotA, if_neg hnotAB]
  by_cases hinA : j < pos + a.length
  · have hinAB : pos ≤ j ∧ j < pos + (a.length + b.length) := by omega
    rw [if_neg (by omega), if_pos (by omega), if_pos (by omega), if_pos hinAB,
      List.getElem?_append_left (by omega)]
  by_cases hinB : j < pos + (a.length + b.length)
  · rw [if_pos (by omega), if_pos (by omega), List.getElem?_append_right (by omega)]
    congr 1
    omega
  · have hnotA : ¬ (pos ≤ j ∧ j < pos + a.length) := by omega
    have hnotAB : ¬ (pos ≤ j ∧ j < pos + (a.length + b.length)) := by omega
    rw [if_neg (by omega), if_neg hnotA, if_neg hinA, if_neg hnotAB, if_neg hbefore]
    by_cases hfile : j < file.length
    · rw [if_pos (lt_max_of_lt_left hfile), if_pos hfile]
    · rw [if_neg (by omega), if_neg hfile]

/-- A `write` that took the whole buffer. -/
theorem Device.write_full {o : IoOutcome} {d : Device} {buf : Bytes}
    (h : (d.write o buf).2 = some buf.length) :
    (d.write o buf).1 =
      { d with data := overwrite d.data d.pos buf, pos := d.pos + buf.length } := by
  unfold write at h ⊢
  cases hcount : o.count (min buf.length (min maxRwCount d.room)) with
  | none => simp [hcount] at h
  | some n =>
    obtain rfl : n = buf.length := by simpa [hcount] using h
    simp

/-! ## The tool -/

/-- `struct onefilefs_sb_info` -/
structure SbInfo where
  version : UInt64
  magic : UInt64
  blockSize : UInt64
  inodesCount : UInt64
  freeBlocks : UInt64
  maxFileSize : UInt64
  padding : Block 4048

def SbInfo.toBytes (sb : SbInfo) : Bytes :=
  leBytes 8 sb.version.toNat ++ leBytes 8 sb.magic.toNat ++ leBytes 8 sb.blockSize.toNat ++
    leBytes 8 sb.inodesCount.toNat ++ leBytes 8 sb.freeBlocks.toNat ++
    leBytes 8 sb.maxFileSize.toNat ++ sb.padding.1

/-- `struct onefilefs_inode`, with the gap behind `mode`. -/
structure OnefilefsInode where
  mode : UInt32
  gap : Block 4
  inodeNo : UInt64
  dataBlockNumber : UInt64
  fileSize : UInt64

def OnefilefsInode.toBytes (inode : OnefilefsInode) : Bytes :=
  leBytes 4 inode.mode.toNat ++ inode.gap.1 ++ leBytes 8 inode.inodeNo.toNat ++
    leBytes 8 inode.dataBlockNumber.toNat ++ leBytes 8 inode.fileSize.toNat

/-- The memory that the tool writes out without having set it. -/
structure Uninitialised where
  inodesCount : UInt64
  freeBlocks : UInt64
  sbPadding : Block 4048
  inodeGap : Block 4
  dataBlockNumber : UInt64
  blockPadding : Block 4064

/-- What the system calls of the tool return. -/
structure MakefsCalls where
  opened : Bool
  fstat : Bool
  writeSb : IoOutcome
  writeInode : IoOutcome
  writePadding : IoOutcome
  writeBody : IoOutcome

/-- `file_body` -/
def fileBody : Bytes :=
  "Wathever content you would like.\n".toList.map fun c => UInt8.ofNat c.toNat

/-- `st_size`, which a block device does not have. -/
def Device.stSize (d : Device) : UInt64 :=
  match d.kind with
  | .regular => UInt64.ofNat d.data.length
  | .block => 0

/-- The superblock for a device. The product is computed in `off_t`. -/
def sbFor (junk : Uninitialised) (stSize : UInt64) : SbInfo where
  version := 1
  magic := magic
  blockSize := defaultBlockSize
  inodesCount := junk.inodesCount
  freeBlocks := junk.freeBlocks
  maxFileSize := (stSize / defaultBlockSize - 2) * defaultBlockSize
  padding := junk.sbPadding

/-- The inode of the file, with `S_IFREG` and `SINGLEFILEFS_FILE_INODE_NUMBER`. -/
def fileInode (junk : Uninitialised) : OnefilefsInode where
  mode := 0x8000
  gap := junk.inodeGap
  inodeNo := 1
  dataBlockNumber := junk.dataBlockNumber
  fileSize := UInt64.ofNat fileBody.length

/-- `main` of `singlefilemakefs`: the device and the result, for a superblock that was not
written that of its `write`. -/
def makefsMain (c : MakefsCalls) (junk : Uninitialised) (argc : ℕ) (d : Device) :
    Device × ℤ :=
  if argc ≠ 2 then (d, -1)
  else if !c.opened then (d, -1)
  else if !c.fstat then (d, -1)
  else
    let sb := d.write c.writeSb (sbFor junk d.stSize).toBytes
    if sb.2 ≠ some defaultBlockSize.toNat then (sb.1, (sb.2.map Int.ofNat).getD (-1))
    else
      let inode := sb.1.write c.writeInode (fileInode junk).toBytes
      if inode.2 ≠ some (fileInode junk).toBytes.length then (inode.1, -1)
      else
        let padding := inode.1.write c.writePadding junk.blockPadding.1
        if padding.2 ≠ some junk.blockPadding.1.length then (padding.1, -1)
        else
          let body := padding.1.write c.writeBody fileBody
          if body.2 ≠ some fileBody.length then (body.1, -1) else (body.1, 0)

/-- The exit status that a parent gets of the result of `main`. -/
def exitStatus (result : ℤ) : ℕ := (result % 256).toNat

/-- A run of `singlefilemakefs`: the device and the exit status. -/
def singlefilemakefs (c : MakefsCalls) (junk : Uninitialised) (argc : ℕ) (d : Device) :
    Device × ℕ :=
  ((makefsMain c junk argc d).1, exitStatus (makefsMain c junk argc d).2)

/-! ## What the tool writes -/

/-- All that the tool writes, in order. -/
def formatBytes (junk : Uninitialised) (stSize : UInt64) : Bytes :=
  (sbFor junk stSize).toBytes ++ (fileInode junk).toBytes ++ junk.blockPadding.1 ++ fileBody

theorem SbInfo.toBytes_length (sb : SbInfo) : sb.toBytes.length = singlefilefsBlockSize := by
  simp only [toBytes, List.length_append, leBytes_length, sb.padding.2]
  rfl

theorem OnefilefsInode.toBytes_length (inode : OnefilefsInode) : inode.toBytes.length = 32 := by
  simp only [toBytes, List.length_append, leBytes_length, inode.gap.2]

/-- A superblock that is written in part may take a multiple of 256 bytes, which is no failure
in the exit status. -/
def MakefsCalls.FirstWriteTold (c : MakefsCalls) (junk : Uninitialised) (d : Device) : Prop :=
  ∀ n, (d.write c.writeSb (sbFor junk d.stSize).toBytes).2 = some n →
    n = singlefilefsBlockSize ∨ ¬ 256 ∣ n

theorem exitStatus_neg_one : exitStatus (-1) ≠ 0 := by decide

theorem exitStatus_ofNat (n : ℕ) : exitStatus (Int.ofNat n) = n % 256 := by
  show ((n : ℤ) % 256).toNat = n % 256
  omega

/-- An early exit has a status other than zero. -/
theorem of_exit_zero {p : Prop} [Decidable p] {d : Device} {x : ℤ} {rest : Device × ℤ}
    (hx : p → exitStatus x ≠ 0) (h : exitStatus (if p then (d, x) else rest).2 = 0) :
    ¬ p ∧ (if p then (d, x) else rest) = rest ∧ exitStatus rest.2 = 0 := by
  split at h
  · rename_i hp
    exact absurd h (hx hp)
  · rename_i hp
    exact ⟨hp, if_neg hp, h⟩

/-- A tool that ends with status zero has written everything, if its first write does not hide
what is missing. -/
theorem makefsMain_data {c : MakefsCalls} {junk : Uninitialised} {argc : ℕ} {d : Device}
    (hfirst : c.FirstWriteTold junk d) (h : exitStatus (makefsMain c junk argc d).2 = 0) :
    (makefsMain c junk argc d).1.data =
      overwrite d.data d.pos (formatBytes junk d.stSize) := by
  have hminus := exitStatus_neg_one
  unfold makefsMain at h ⊢
  obtain ⟨-, hargc, h⟩ := of_exit_zero (fun _ => hminus) h
  rw [hargc]
  obtain ⟨-, hopened, h⟩ := of_exit_zero (fun _ => hminus) h
  rw [hopened]
  obtain ⟨-, hfstat, h⟩ := of_exit_zero (fun _ => hminus) h
  rw [hfstat]
  simp only at h ⊢
  have hsbExit : (d.write c.writeSb (sbFor junk d.stSize).toBytes).2 ≠
      some defaultBlockSize.toNat → exitStatus
        (((d.write c.writeSb (sbFor junk d.stSize).toBytes).2.map Int.ofNat).getD (-1)) ≠ 0 := by
    intro hcut
    cases hcount : (d.write c.writeSb (sbFor junk d.stSize).toBytes).2 with
    | none => exact hminus
    | some n =>
      rw [Option.map_some, Option.getD_some, exitStatus_ofNat]
      intro hzero
      rcases hfirst n hcount with rfl | hdvd
      · exact hcut hcount
      · exact hdvd (Nat.dvd_of_mod_eq_zero hzero)
  obtain ⟨hsb, hsbEq, h⟩ := of_exit_zero hsbExit h
  rw [hsbEq]
  obtain ⟨hinode, hinodeEq, h⟩ := of_exit_zero (fun _ => hminus) h
  rw [hinodeEq]
  obtain ⟨hpadding, hpaddingEq, h⟩ := of_exit_zero (fun _ => hminus) h
  rw [hpaddingEq]
  obtain ⟨hbody, hbodyEq, -⟩ := of_exit_zero (fun _ => hminus) h
  rw [hbodyEq]
  have hsbFull : (d.write c.writeSb (sbFor junk d.stSize).toBytes).2 =
      some (sbFor junk d.stSize).toBytes.length := by
    rw [SbInfo.toBytes_length]
    exact not_not.mp hsb
  rw [Device.write_full (not_not.mp hbody), Device.write_full (not_not.mp hpadding),
    Device.write_full (not_not.mp hinode), Device.write_full hsbFull]
  dsimp only
  rw [overwrite_append, Nat.add_assoc, ← List.length_append, overwrite_append, overwrite_append,
    ← List.append_assoc, formatBytes]

/-! ## What the device holds -/

theorem exists_flatten {N n : ℕ} (data : Bytes) (h : data.length = N * n) :
    ∃ img : Fin N → Block n, flatten img = data := by
  have hblock (i : Fin N) : (blockAt n data i).length = n := by
    have hend : ((i : ℕ) + 1) * n ≤ N * n := Nat.mul_le_mul_right n i.isLt
    rw [Nat.succ_mul] at hend
    rw [blockAt, List.length_take, List.length_drop]
    omega
  refine ⟨fun i => ⟨blockAt n data i, hblock i⟩, List.ext_getElem? fun j => ?_⟩
  by_cases hj : j < N * n
  · have hn : 0 < n := Nat.pos_of_mul_pos_left (Nat.zero_lt_of_lt hj)
    have hi : j / n < N := Nat.div_lt_of_lt_mul (by rwa [Nat.mul_comm])
    have hmod : j % n < n := Nat.mod_lt j hn
    have hget := block_getElem? (fun i : Fin N => (⟨blockAt n data i, hblock i⟩ : Block n))
      ⟨j / n, hi⟩ hmod
    rw [blockAt_getElem?, if_pos hmod] at hget
    rw [← Nat.div_add_mod' j n]
    exact hget.symm
  · rw [List.getElem?_eq_none (by rw [flatten_length]; omega), List.getElem?_eq_none (by omega)]

theorem flatten_split {M : ℕ} (image : Image (M + 2)) :
    flatten image =
      (image 0).1 ++ ((image 1).1 ++ flatten (OneFile.fileBlocks image)) := by
  simp only [flatten, List.ofFn_succ, flattenBlocks_cons]
  rfl

theorem sbMagic_toBytes {sb : SbInfo} {block : CapturedBlock} (h : block.1 = sb.toBytes) :
    sbMagic block = sb.magic := by
  have hfield := SnapblockFileHdr.field_append (leBytes 8 sb.version.toNat)
    (leBytes 8 sb.blockSize.toNat ++ leBytes 8 sb.inodesCount.toNat ++
      leBytes 8 sb.freeBlocks.toNat ++ leBytes 8 sb.maxFileSize.toNat ++ sb.padding.1)
    sb.magic 1 (leBytes_length 8 _)
  rw [sbMagic, h, SbInfo.toBytes]
  simpa only [List.append_assoc] using hfield

theorem sbMaxFileSize_toBytes {sb : SbInfo} {block : CapturedBlock} (h : block.1 = sb.toBytes) :
    sbMaxFileSize block = sb.maxFileSize := by
  rw [sbMaxFileSize, h, SbInfo.toBytes]
  apply SnapblockFileHdr.field_append
  simp only [List.length_append, leBytes_length]

theorem inodeFileSize_toBytes {inode : OnefilefsInode} {block : CapturedBlock} {rest : Bytes}
    (h : block.1 = inode.toBytes ++ rest) : inodeFileSize block = inode.fileSize := by
  rw [inodeFileSize, h, OnefilefsInode.toBytes]
  apply SnapblockFileHdr.field_append
  simp only [List.length_append, leBytes_length, inode.gap.2]

/-- A device whose blocks are a superblock, the block of an inode and the content it tells. -/
theorem OneFile.holds_of_blocks {M : ℕ} {image : Image (M + 2)} {sb : SbInfo}
    {inode : OnefilefsInode} {padding content rest : Bytes} (hint : M + 2 ≤ 2 ^ 31)
    (hsb : (image 0).1 = sb.toBytes) (hinode : (image 1).1 = inode.toBytes ++ padding)
    (hfile : flatten (fileBlocks image) = content ++ rest) (hmagic : sb.magic = magic)
    (hmax : sb.maxFileSize.toNat = M * singlefilefsBlockSize)
    (hsize : inode.fileSize.toNat = content.length) :
    (⟨image, inode.fileSize⟩ : OneFile (M + 2)).Holds ⟨content, content.length⟩ where
  intBlocks := hint
  magic := (sbMagic_toBytes hsb).trans hmagic
  maxFileSize := by
    show (sbMaxFileSize (image 0)).toNat = _
    rw [sbMaxFileSize_toBytes hsb, hmax]
  durable := by
    show (inodeFileSize (image 1)).toNat = _
    rw [inodeFileSize_toBytes hinode, hsize]
  durable_le := le_rfl
  size := hsize
  size_le := by
    have harea := area_length image
    rw [hfile, List.length_append] at harea
    exact (Nat.le_add_right _ _).trans_eq harea
  content := by
    show content = (flatten (fileBlocks image)).take content.length
    rw [hfile, List.take_left]

/-- The file may take all blocks of the device but two. -/
theorem maxFileSize_toNat {size M : ℕ} (hsize : size = (M + 2) * singlefilefsBlockSize)
    (hint : M + 2 ≤ 2 ^ 31) :
    ((UInt64.ofNat size / defaultBlockSize - 2) * defaultBlockSize).toNat =
      M * singlefilefsBlockSize := by
  simp only [singlefilefsBlockSize] at hsize ⊢
  have hunit : defaultBlockSize.toNat = 4096 := rfl
  have htwo : (2 : UInt64).toNat = 2 := rfl
  have hdiv : (UInt64.ofNat size / defaultBlockSize).toNat = M + 2 := by
    rw [UInt64.toNat_div, UInt64.toNat_ofNat', hunit, Nat.mod_eq_of_lt (by omega), hsize]
    exact Nat.mul_div_cancel _ (by decide)
  have hsub : (UInt64.ofNat size / defaultBlockSize - 2).toNat = M := by
    rw [UInt64.toNat_sub_of_le _ _ (by rw [UInt64.le_iff_toNat_le, hdiv, htwo]; omega), hdiv, htwo]
    omega
  rw [UInt64.toNat_mul, hsub, hunit, Nat.mod_eq_of_lt (by omega)]

/-- A device file of at least three whole blocks that the tool has formatted with status zero
holds the first content, with all of it durable. -/
theorem singlefilemakefs_holds {c : MakefsCalls} {junk : Uninitialised} {argc : ℕ}
    {d d' : Device} (hkind : d.kind = .regular) (hpos : d.pos = 0) {M : ℕ} (hM : 1 ≤ M)
    (hint : M + 2 ≤ 2 ^ 31) (hsize : d.data.length = (M + 2) * singlefilefsBlockSize)
    (hfirst : c.FirstWriteTold junk d) (h : singlefilemakefs c junk argc d = (d', 0)) :
    ∃ image : Image (M + 2), d'.data = flatten image ∧
      (⟨image, UInt64.ofNat fileBody.length⟩ : OneFile (M + 2)).Holds
        ⟨fileBody, fileBody.length⟩ := by
  obtain ⟨rfl, hexit⟩ := Prod.mk.inj h
  have hdata := makefsMain_data hfirst hexit
  have hbody : fileBody.length = 33 := by decide
  set fmt := formatBytes junk d.stSize with hfmt
  have hlen : fmt.length = 2 * singlefilefsBlockSize + fileBody.length := by
    simp only [hfmt, formatBytes, List.length_append, SbInfo.toBytes_length,
      OnefilefsInode.toBytes_length, junk.blockPadding.2, singlefilefsBlockSize]
  have hfits : fmt.length ≤ d.data.length := by
    rw [hlen, hbody, hsize]
    simp only [singlefilefsBlockSize]
    omega
  have hne : fmt ≠ [] := by
    intro hnil
    rw [hnil, List.length_nil] at hlen
    omega
  -- what follows the format bytes on the device
  set rest := d.data.drop fmt.length with hrest
  have hwritten : (makefsMain c junk argc d).1.data = fmt ++ rest := by
    rw [hdata, hpos, overwrite, if_neg hne, List.take_zero, List.nil_append, Nat.zero_add]
  obtain ⟨image, himage⟩ := exists_flatten (N := M + 2) (n := singlefilefsBlockSize)
    (fmt ++ rest) (by
      rw [List.length_append, hrest, List.length_drop]
      omega)
  have hsplit : (image 0).1 ++ ((image 1).1 ++ flatten (OneFile.fileBlocks image)) =
      (sbFor junk d.stSize).toBytes ++ (((fileInode junk).toBytes ++ junk.blockPadding.1) ++
        (fileBody ++ rest)) := by
    rw [← flatten_split, himage, hfmt, formatBytes]
    simp only [List.append_assoc]
  obtain ⟨hsb, hsplit⟩ := List.append_inj hsplit (by rw [(image 0).2, SbInfo.toBytes_length])
  obtain ⟨hinode, hfile⟩ := List.append_inj hsplit (by
    rw [(image 1).2, List.length_append, OnefilefsInode.toBytes_length, junk.blockPadding.2]
    rfl)
  refine ⟨image, hwritten.trans himage.symm, ?_⟩
  refine OneFile.holds_of_blocks hint hsb hinode hfile rfl ?_ ?_
  · rw [sbFor, Device.stSize, hkind, maxFileSize_toNat hsize hint]
  · show (UInt64.ofNat fileBody.length).toNat = fileBody.length
    rw [hbody]
    rfl

/-- A block of zeros. -/
def zeroBlock (n : ℕ) : Block n := ⟨List.replicate n 0, List.length_replicate⟩

/-- Memory of zeros. -/
def Uninitialised.zero : Uninitialised :=
  ⟨0, 0, zeroBlock 4048, zeroBlock 4, 0, zeroBlock 4064⟩

/-- A file of three blocks. -/
theorem singlefilemakefs_holds_small :
    let d : Device := ⟨.regular, List.replicate 12288 0, 0⟩
    let c : MakefsCalls := ⟨true, true, .done, .done, .done, .done⟩
    ∃ image : Image 3, (singlefilemakefs c .zero 2 d).1.data = flatten image ∧
      (⟨image, UInt64.ofNat fileBody.length⟩ : OneFile 3).Holds ⟨fileBody, fileBody.length⟩ := by
  intro d c
  have hzero : (singlefilemakefs c .zero 2 d).2 = 0 := by decide +kernel
  have hexit : singlefilemakefs c .zero 2 d = ((singlefilemakefs c .zero 2 d).1, 0) :=
    Prod.mk.eta.symm.trans (congrArg (Prod.mk _) hzero)
  have hwhole : (d.write c.writeSb (sbFor .zero d.stSize).toBytes).2 =
      some singlefilefsBlockSize := by decide +kernel
  have hfirst : c.FirstWriteTold .zero d :=
    fun n hn => .inl (Option.some.inj (hn.symm.trans hwhole))
  exact singlefilemakefs_holds rfl rfl le_rfl (by decide) List.length_replicate hfirst hexit

/-! ## Operations on a device that holds a file -/

/-- A device with the first content and no other data. -/
def newDevice : Image 3 := fun i =>
  (zeroBlock singlefilefsBlockSize).patch 0
    (if i = 0 then (sbFor .zero 12288).toBytes
    else if i = 1 then (fileInode .zero).toBytes
    else fileBody)

theorem newDevice_holds :
    (⟨newDevice, 33⟩ : OneFile 3).Holds ⟨fileBody, fileBody.length⟩ where
  intBlocks := by decide
  magic := by decide +kernel
  maxFileSize := by decide +kernel
  durable := by decide +kernel
  durable_le := le_rfl
  size := by decide
  size_le := by decide
  content := by decide +kernel

/-- On a device that holds a file, any operations of its file system in any order, with any
outcomes of block reads and copies, return what those of the bounded file return, and the
device holds the file behind them. -/
theorem answers_eq_boundedFile (bdev : UInt32) {M : ℕ} (fs : OneFile (M + 2)) (f : BoundedFile)
    (h : fs.Holds f) (ops : List (FileOp ReadIo WriteIo)) :
    (OneFile.store bdev (M + 2)).operations.answers fs ops =
        (BoundedFile.store M).operations.answers f ops ∧
      ((OneFile.store bdev (M + 2)).operations.after fs ops).Holds
        ((BoundedFile.store M).operations.after f ops) := by
  have hsim := (OneFile.store_simulates bdev M).operations
  exact ⟨hsim.answers h ops, hsim.after h ops⟩

/-- A write of three bytes, the last of which cannot be copied, and a read behind it. -/
theorem answers_eq_boundedFile_new :
    let io : WriteIo := ⟨true, true, true, 1, []⟩
    let ops : List (FileOp ReadIo WriteIo) := [.fillSuper ⟨true, true, true⟩,
      .lookup ⟨true, true⟩, .write ⟨0, by decide⟩ ⟨[1, 2, 3], by decide⟩ io, .llseek 1 seekSet,
      .read ⟨8, by decide⟩ ⟨1, by decide⟩ ⟨true, 0⟩]
    (OneFile.store 0x700000 3).operations.answers ⟨newDevice, 33⟩ ops =
        (BoundedFile.store 1).operations.answers ⟨fileBody, fileBody.length⟩ ops ∧
      ((OneFile.store 0x700000 3).operations.after ⟨newDevice, 33⟩ ops).Holds
        ((BoundedFile.store 1).operations.after ⟨fileBody, fileBody.length⟩ ops) := by
  intro io ops
  exact answers_eq_boundedFile 0x700000 ⟨newDevice, 33⟩ ⟨fileBody, fileBody.length⟩
    newDevice_holds ops

end BlkdevSnapshot

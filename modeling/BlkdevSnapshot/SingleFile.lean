import BlkdevSnapshot.BoundedFile
import BlkdevSnapshot.EndToEnd
import BlkdevSnapshot.OneFileVfs

/-!
# The single-file file system

The file system of the demo on a device of `N` blocks: a superblock, a block with the inode
of the file, and the blocks of the file. The handlers get the outcomes of their block reads
and of the copies from and to user memory. The image is what the block reads deliver; the
writing back of dirty buffers is not modelled.
-/
namespace BlkdevSnapshot
open LittleEndian

/-- `DEFAULT_BLOCK_SIZE` -/
def defaultBlockSize : UInt64 := 4096

/-- `MAGIC` -/
def magic : UInt64 := 0x42424242

/-- `SB_BLOCK_NUMBER` and `SINGLEFILEFS_INODES_BLOCK_NUMBER` -/
def sbBlockNumber : UInt64 := 0
def singlefilefsInodesBlockNumber : UInt64 := 1

/-- The number of a block in an `int`, and back in a `sector_t`. -/
def intBlock (x : UInt64) : UInt64 := UInt64.ofBitVec ((x.toBitVec.setWidth 32).signExtend 64)

/-- `sb_bread`; behind the end of the device there is nothing to read. -/
def sbBread (N : ℕ) (ok : Bool) (block : UInt64) : Option (Fin N) :=
  if ok then if h : block.toNat < N then some ⟨block.toNat, h⟩ else none else none

/-- The buffer of a block of an image. -/
def bufferOf {N : ℕ} (bdev : UInt32) (image : Image N) (b : Fin N) : BufferHead where
  toBufferPlace := wholeBlock bdev (UInt64.ofNat b)
  bData := (image b).1
  length_eq := (image b).2

/-- The words of a block: `magic` and `max_file_size` of `struct onefilefs_sb_info`, and
`file_size` of `struct onefilefs_inode`. -/
def sbMagic (block : CapturedBlock) : UInt64 := SnapblockFileHdr.field block.1 1
def sbMaxFileSize (block : CapturedBlock) : UInt64 := SnapblockFileHdr.field block.1 5
def inodeFileSize (block : CapturedBlock) : UInt64 := SnapblockFileHdr.field block.1 3

/-- A store to `file_size`. -/
def setInodeFileSize (block : CapturedBlock) (size : UInt64) : CapturedBlock :=
  block.patch 24 (leBytes 8 size.toNat)

/-- The device and `i_size` of the inode in memory. -/
structure OneFile (N : ℕ) where
  image : Image N
  iSize : UInt64

/-- What a read of the file meets: whether the block can be read, and how many bytes
`copy_to_user` leaves out. -/
structure ReadIo where
  bread : Bool
  left : ℕ

/-- What a write of the file meets: which of its three block reads succeed, how many bytes
`copy_from_user` leaves out and replaces by zeros, and the blocks that its page faults read. -/
structure WriteIo where
  sbBread : Bool
  bread : Bool
  inodeBread : Bool
  left : ℕ
  faults : List BufferHead

namespace OneFile
variable {N : ℕ}

/-- `singlefilefs_fill_super`, which reads through the result of `sb_bread` unchecked. -/
def fillSuper (fs : OneFile N) (io : MountIo) : MountEnd :=
  match sbBread N io.bread sbBlockNumber with
  | none => .oops
  | some b =>
    if sbMagic (fs.image b) ≠ magic then .error ebadf
    else if !io.iget then .error enomem
    else if !io.makeRoot then .error enomem
    else .mounted

/-- `onefilefs_lookup` of the file when its inode is not in memory. -/
def lookup (fs : OneFile N) (io : LookupIo) : OneFile N × LookupEnd :=
  if !io.iget then (fs, .error enomem false)
  else
    match sbBread N io.bread singlefilefsInodesBlockNumber with
    | none => (fs, .error eio true)
    | some b => ({ fs with iSize := inodeFileSize (fs.image b) }, .found)

/-- The block of the device that an offset of the file is in. -/
def blockToAccess (off : UInt64) : UInt64 := intBlock (off / defaultBlockSize + 2)

/-- A length cut at the end of the block that it starts in. -/
def cutToBlock (off len : UInt64) : UInt64 :=
  let offset := off % defaultBlockSize
  if defaultBlockSize < offset + len then defaultBlockSize - offset else len

/-- `onefilefs_read` -/
def read (fs : OneFile N) (io : ReadIo) (len off : UInt64) : Except Errno Bytes :=
  if fs.iSize ≤ off then .ok []
  else
    let len := if fs.iSize < off + len then fs.iSize - off else len
    let len := cutToBlock off len
    match sbBread N io.bread (blockToAccess off) with
    | none => .error eio
    | some b =>
      .ok (((fs.image b).1.drop (off % defaultBlockSize).toNat).take (len.toNat - io.left))

/-- The tail of `onefilefs_write`, with the offset behind the written bytes and the calls so
far: a file that grows gets its size into the block of the inode. -/
def growTo (bdev : UInt32) (fs : OneFile N) (io : WriteIo) (off : UInt64) (n : ℕ)
    (ops : List (BufferOp BufferHead)) : OneFile N × WriteEnd × List (BufferOp BufferHead) :=
  if loff fs.iSize < loff off then
    let fs := { fs with iSize := off }
    match sbBread N io.inodeBread singlefilefsInodesBlockNumber with
    | none => (fs, .error eio, ops)
    | some b =>
      let image := Function.update fs.image b (setInodeFileSize (fs.image b) fs.iSize)
      ({ fs with image := image }, .wrote n,
        ops ++ [.bread (bufferOf bdev fs.image b), .writeDirtyBuffer (bufferOf bdev image b)])
  else (fs, .wrote n, ops)

/-- `onefilefs_write` with its calls of `sb_bread` and `write_dirty_buffer`. Without the
superblock it takes the lock of the inode a second time. -/
def write (bdev : UInt32) (fs : OneFile N) (io : WriteIo) (off : UInt64) (buf : Bytes) :
    OneFile N × WriteEnd × List (BufferOp BufferHead) :=
  match sbBread N io.sbBread sbBlockNumber with
  | none => (fs, .hang, [])
  | some sb =>
    let ops := [.bread (bufferOf bdev fs.image sb)]
    let maxFileSize := sbMaxFileSize (fs.image sb)
    let len := UInt64.ofNat buf.length
    if maxFileSize < off then (fs, .error enomem, ops)
    else if fs.iSize < off then (fs, .wrote 0, ops)
    else
      let len := if maxFileSize < off + len then maxFileSize - off else len
      let len := (cutToBlock off len).toNat
      match sbBread N io.bread (blockToAccess off) with
      | none => (fs, .error eio, ops)
      | some b =>
        let ret := min io.left len
        let copied := buf.take (len - ret) ++ List.replicate ret 0
        let image := Function.update fs.image b
          ((fs.image b).patch (off % defaultBlockSize).toNat copied)
        growTo bdev { fs with image := image } io (off + UInt64.ofNat (len - ret)) (len - ret)
          (ops ++ [.bread (bufferOf bdev fs.image b)] ++ io.faults.map .bread ++
            [.writeDirtyBuffer (bufferOf bdev image b)])

/-- The operations of the file system on a device. -/
def store (bdev : UInt32) (N : ℕ) : FileStore (OneFile N) ReadIo WriteIo where
  fillSuper := fillSuper
  lookup := lookup
  iSize := iSize
  read := read
  write fs io off buf :=
    let r := fs.write bdev io off buf
    (r.1, r.2.1)

end OneFile
end BlkdevSnapshot

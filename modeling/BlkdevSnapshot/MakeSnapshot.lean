import BlkdevSnapshot.Snapblocks
import BlkdevSnapshot.LruNg
import Mathlib.Data.List.DropRight

/-!
# The deferred snapshot work

`make_snapshot` and what it calls, over the cache of the epoch, the handle of its
snapshot directory and the snapblocks file of every directory. The outcome of
each kernel call comes from a `WorkOutcomes`. The result is `none` when the work
never returns: the scan of the file runs past the fuel, or an error pointer is
used as a file.
-/
namespace BlkdevSnapshot
open LruNg RecencyList

/-- A C string, without its terminator. -/
abbrev CStr := List Char

/-- `snprintf` into a buffer of `size` bytes, for a format whose text is `s`. -/
def snprintf (size : ℕ) (s : CStr) : CStr := s.take (size - 1)

/-- `kbasename`: the text after the last slash. -/
def kbasename (path : CStr) : CStr := path.rtakeWhile (· ≠ '/')

/-- `MNT_FMT_DATE_LEN`, the size of `"-9999-12-31_23:59:59"` with its terminator. -/
def mntFmtDateLen : ℕ := 21

/-- The name that `ensure_path_snapdir_ok` formats for a device and a mount date. -/
def subdirname (devname mountdate : CStr) : CStr :=
  snprintf (devname.length + mntFmtDateLen + 1) (kbasename devname ++ mountdate)

/-- What the medium does with the three writes of a record. -/
structure WriteOutcomes where
  mandatoryHdr : IoOutcome
  extendedHdr : IoOutcome
  payload : IoOutcome

/-- What the kernel calls of one `make_snapshot` return. -/
structure WorkOutcomes where
  lruAlloc : Bool
  dirHealthy : Bool
  subdirnameAlloc : Bool
  initPath : Bool
  pathLookup : Bool
  create : Bool
  dentryOpen : Bool
  headerRead : ℕ → Bool
  write : WriteOutcomes
  nodeAlloc : Bool

/-- `ensure_cached_blocks_lru_ok` -/
def ensureCachedBlocksLruOk (alloc : Bool) : Option LruNg → Option LruNg
  | some lru => some lru
  | none => if alloc then some LruNg.init else none

/-- The branch of `ensure_path_snapdir_ok` that names and opens the directory;
`none` is a false result, with `*path_snapdir` left NULL. -/
def initPathSnapdir (o : WorkOutcomes) (devname mountdate : CStr) : Option CStr :=
  if o.subdirnameAlloc && o.initPath then some (subdirname devname mountdate) else none

/-- `ensure_path_snapdir_ok`; a broken handle is dropped and made anew. -/
def ensurePathSnapdirOk (o : WorkOutcomes) (pathSnapdir : Option CStr)
    (devname mountdate : CStr) : Option CStr :=
  match pathSnapdir with
  | some dir => if o.dirHealthy then some dir else initPathSnapdir o devname mountdate
  | none => initPathSnapdir o devname mountdate

/-- How `ensure_snapblocks_file_ok` ends. With `errPtr` it returned true, but
`dentry_open` had put an error pointer in `*out_filp`. -/
inductive SnapblocksFile where
  | failed
  | opened (content : Bytes)
  | errPtr

/-- `create_snapblocks_file`, with the file that the directory holds afterwards. -/
def createSnapblocksFile (o : WorkOutcomes) : Option Bytes → SnapblocksFile × Option Bytes
  | some content => (.failed, some content)
  | none =>
    if !o.create then (.failed, none)
    else if !o.dentryOpen then (.failed, some [])
    else (.opened [], some [])

/-- `ensure_snapblocks_file_ok` -/
def ensureSnapblocksFileOk (o : WorkOutcomes) (file : Option Bytes) :
    SnapblocksFile × Option Bytes :=
  match file with
  | some content =>
    if o.pathLookup then
      (if o.dentryOpen then .opened content else .errPtr, some content)
    else createSnapblocksFile o (some content)
  | none => createSnapblocksFile o none

/-- `read_snapblock_mandatory_header`; `kernel_read` refuses a negative offset. -/
def readSnapblockMandatoryHeader (ok : Bool) (file : Bytes) (foff : UInt64) :
    Option SnapblockFileHdr :=
  let buf := readAt file foff.toNat sizeofHdr
  if !ok || loff foff < 0 || buf.length ≠ sizeofHdr then none
  else
    let outHdr := SnapblockFileHdr.ofBytes buf
    if outHdr.magic ≠ snapblockMagic then none else some outHdr

/-- The loop of `file_lookup` from offset `foff`; `i` counts the header reads. -/
def fileLookupFrom (headerRead : ℕ → Bool) (file : Bytes) (blknr : UInt64) :
    ℕ → ℕ → UInt64 → Option Bool
  | 0, _, _ => none
  | fuel + 1, i, foff =>
    match readSnapblockMandatoryHeader (headerRead i) file foff with
    | none => some false
    | some h =>
      if h.blknr = blknr then some true
      else fileLookupFrom headerRead file blknr fuel (i + 1) (foff + (h.payldOff + h.payldsiz))

/-- `file_lookup`; `none` when `fuel` header reads do not end the loop. -/
def fileLookup (fuel : ℕ) (headerRead : ℕ → Bool) (blknr : UInt64) (file : Bytes) : Option Bool :=
  fileLookupFrom headerRead file blknr fuel 0 0

/-- `struct write_snapblock_args` -/
structure WriteSnapblockArgs where
  mandatoryHdr : SnapblockFileHdr
  extendedHdr : Option Bytes
  payload : Bytes

/-- Everything that a complete `write_snapblock` appends. -/
def WriteSnapblockArgs.bytes (a : WriteSnapblockArgs) : Bytes :=
  a.mandatoryHdr.toBytes ++ a.extendedHdr.getD [] ++ a.payload

/-- One `kernel_write` of `write_snapblock`, with the test of its result. -/
def writePart (o : IoOutcome) (file buf : Bytes) : Bytes × Bool :=
  let w := kernelWrite o file buf
  (w.1, w.2 == some buf.length)

/-- `write_snapblock`: the file afterwards and the returned truth value. -/
def writeSnapblock (o : WriteOutcomes) (file : Bytes) (wargs : WriteSnapblockArgs) :
    Bytes × Bool :=
  let hdr := writePart o.mandatoryHdr file wargs.mandatoryHdr.toBytes
  if !hdr.2 then hdr
  else
    let ext := match wargs.extendedHdr with
      | some e => if 0 < e.length then writePart o.extendedHdr hdr.1 e else hdr
      | none => hdr
    if !ext.2 then ext else writePart o.payload ext.1 wargs.payload

/-- `struct make_snapshot_work`; the block has `blocksize` bytes, an `unsigned` count. -/
structure MakeSnapshotWork where
  blockNr : UInt64
  block : Bytes
  originalDevName : CStr
  firstMountDate : CStr
  block_lt : block.length < 2 ^ 32

namespace MakeSnapshotWork

def blocksize (w : MakeSnapshotWork) : UInt64 := UInt64.ofNat w.block.length

/-- The directory of the epoch that the work was queued for. -/
def dir (w : MakeSnapshotWork) : CStr := subdirname w.originalDevName w.firstMountDate

/-- `DEFINE_SNAPBLOCK_FILE_HDR` -/
def fileHdr (w : MakeSnapshotWork) : SnapblockFileHdr where
  magic := snapblockMagic
  blknr := w.blockNr
  payldsiz := w.blocksize
  payldType := snapblockPayloadTypeRaw
  payldOff := UInt64.ofNat sizeofHdr

/-- `DEFINE_WRITE_SNAPBLOCK_ARGS` -/
def wargs (w : MakeSnapshotWork) : WriteSnapblockArgs := ⟨w.fileHdr, none, w.block⟩

theorem sizeofHdr_add_block_le (w : MakeSnapshotWork) :
    sizeofHdr + w.block.length ≤ maxLfsFilesize := by
  have h := w.block_lt
  have hm : 2 ^ 32 + 40 ≤ maxLfsFilesize := by decide
  simp only [sizeofHdr]
  omega

/-- The record that the work is to write. -/
def record (w : MakeSnapshotWork) : Record := .raw w.blockNr w.block w.sizeofHdr_add_block_le

@[simp] theorem record_blknr (w : MakeSnapshotWork) : w.record.blknr = w.blockNr := rfl

@[simp] theorem record_payload (w : MakeSnapshotWork) : w.record.payload = w.block := rfl

/-- A complete `write_snapblock` appends the encoded record. -/
theorem wargs_bytes (w : MakeSnapshotWork) : w.wargs.bytes = w.record.encode := rfl

end MakeSnapshotWork

/-- What snapshot works of an epoch share: the cache and the directory handle of
the epoch, and the content of the snapblocks file of each directory. -/
structure WorkState where
  cachedBlocks : Option LruNg
  pathSnapdir : Option CStr
  snapblocks : CStr → Option Bytes

/-- The exit that a work takes. -/
inductive WorkEnd where
  | lruFailed
  | hit
  | dirFailed
  | fileFailed
  | found
  | written
  | writeFailed
  deriving DecidableEq, Repr

variable (hash : UInt64 → ℕ) (maxEntries : ℕ)

/-- `make_snapshot` after the snapblocks file of `dir` was opened. -/
def snapshotInto (fuel : ℕ) (o : WorkOutcomes) (w : MakeSnapshotWork) (lru : LruNg) (dir : CStr)
    (content : Bytes) (s : WorkState) : Option (WorkState × WorkEnd) :=
  let added := some (lruNgAdd hash maxEntries o.nodeAlloc lru w.blockNr).2
  match fileLookup fuel o.headerRead w.blockNr content with
  | none => none
  | some true => some ({ s with cachedBlocks := added }, .found)
  | some false =>
    let wrote := writeSnapblock o.write content w.wargs
    let snapblocks := Function.update s.snapblocks dir (some wrote.1)
    -- the source tests `write_snapblock(..) != 0`, and true is non-zero
    if wrote.2 then some ({ s with snapblocks := snapblocks }, .written)
    else some ({ s with cachedBlocks := added, snapblocks := snapblocks }, .writeFailed)

/-- `make_snapshot` -/
def makeSnapshot (fuel : ℕ) (o : WorkOutcomes) (w : MakeSnapshotWork) (s : WorkState) :
    Option (WorkState × WorkEnd) :=
  match ensureCachedBlocksLruOk o.lruAlloc s.cachedBlocks with
  | none => some (s, .lruFailed)
  | some lru₀ =>
    let looked := lruNgLookup hash lru₀ w.blockNr
    let s := { s with cachedBlocks := some looked.2 }
    if looked.1 then some (s, .hit)
    else
      match ensurePathSnapdirOk o s.pathSnapdir w.originalDevName w.firstMountDate with
      | none => some ({ s with pathSnapdir := none }, .dirFailed)
      | some dir =>
        let setup := ensureSnapblocksFileOk o (s.snapblocks dir)
        let s := { s with
          pathSnapdir := some dir
          snapblocks := Function.update s.snapblocks dir setup.2 }
        match setup.1 with
        | .failed => some (s, .fileFailed)
        | .errPtr => none
        | .opened content => snapshotInto hash maxEntries fuel o w looked.2 dir content s

end BlkdevSnapshot

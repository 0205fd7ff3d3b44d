import BlkdevSnapshot.Snapblocks

/-!
# The restore tool

`do_restore` from the point where both files are open. The state holds both file
offsets, the device, the unread standard input and a log of what was read,
asked and written. The outcome of each system call of one loop iteration comes
from an `IterOutcomes`; results of `lseek` are not consulted, as in the source.
-/
namespace BlkdevSnapshot

/-- The option variables of the tool. -/
structure RestoreOpts where
  restoreAll : Bool
  restoreOnlyBlknum : UInt64
  ask : Bool
  deriving DecidableEq, Repr

inductive DeviceKind where
  | regular
  | block
  deriving DecidableEq, Repr

/-- The file behind `device_fd` and its offset. -/
structure Device where
  kind : DeviceKind
  data : Bytes
  pos : ℕ
  deriving DecidableEq, Repr

namespace Device

/-- `lseek(device_fd, off, SEEK_SET)`: a negative offset is refused, and on a
block device also an offset beyond its end. -/
def lseekSet (d : Device) (off : UInt64) : Device :=
  if loff off < 0 ∨ (d.kind = .block ∧ (d.data.length : ℤ) < loff off) then d
  else { d with pos := (loff off).toNat }

/-- The bytes that fit behind the offset. -/
def room (d : Device) : ℕ :=
  match d.kind with
  | .regular => maxLfsFilesize - d.pos
  | .block => d.data.length - d.pos

/-- `write(device_fd, buf, ..)`: the device afterwards and the result. -/
def write (o : IoOutcome) (d : Device) (buf : Bytes) : Device × Option ℕ :=
  match o.count (min buf.length (min maxRwCount d.room)) with
  | none => (d, none)
  | some n => ({ d with data := overwrite d.data d.pos (buf.take n), pos := d.pos + n }, some n)

end Device

/-- What the tool does that can be seen from outside. -/
inductive RestoreEvent where
  | header (off : ℕ) (hdr : SnapblockFileHdr)
  | prompt (blknr : UInt64) (ans : Bytes)
  | write (off : ℕ) (bytes : Bytes)
  deriving DecidableEq, Repr

/-- What the system calls of one loop iteration return. -/
structure IterOutcomes where
  headerRead : IoOutcome
  malloc : Bool
  payloadRead : IoOutcome
  devWrite : IoOutcome

/-- Every system call of an iteration succeeds. -/
def IterOutcomes.allDone : IterOutcomes := ⟨.done, true, .done, .done⟩

structure RestoreState where
  snapsPos : ℕ
  dev : Device
  stdin : Bytes
  log : List RestoreEvent

/-- How an iteration of the loop ends: another one, the end of the loop, or
`exit(EXIT_FAILURE)`. -/
inductive RestoreFlow where
  | next
  | leave
  | exitFailure
  deriving DecidableEq, Repr

/-- `read(fd, buf, n)` at an offset; `none` is a negative result. -/
def sysRead (o : IoOutcome) (file : Bytes) (pos n : ℕ) : Option Bytes :=
  (o.count (readAt file pos n).length).map fun k => (readAt file pos n).take k

/-- `fgets(ans, size, stdin)`: the bytes stored in the buffer and the rest of the input. -/
def fgets (size : ℕ) (stdin : Bytes) : Bytes × Bytes :=
  let chunk := stdin.take (size - 1)
  let line := chunk.take (chunk.findIdx (· == 10) + 1)
  (line, stdin.drop line.length)

/-- `strcmp(ans, "yes\n") == 0` on a zeroed buffer that `fgets` filled. -/
def isYes (ans : Bytes) : Bool := ans.takeWhile (· ≠ 0) == [121, 101, 115, 10]

namespace RestoreState

def seekSnaps (s : RestoreState) (off : UInt64) : RestoreState :=
  { s with snapsPos := lseekCur s.snapsPos off }

/-- `seek_nexthdr` -/
def seekNexthdr (s : RestoreState) (h : SnapblockFileHdr) : RestoreState :=
  s.seekSnaps (h.payldOff + h.payldsiz - UInt64.ofNat sizeofHdr)

def emit (s : RestoreState) (e : RestoreEvent) : RestoreState := { s with log := s.log ++ [e] }

end RestoreState

/-- `__do_restore_rawblocks`; `malloc` refuses sizes above `PTRDIFF_MAX`. -/
def doRestoreRawblocks (o : IterOutcomes) (snaps : Bytes) (h : SnapblockFileHdr)
    (s : RestoreState) : RestoreState × RestoreFlow :=
  let s := s.seekSnaps (h.payldOff - UInt64.ofNat sizeofHdr)
  if !o.malloc || 2 ^ 63 ≤ h.payldsiz.toNat then (s.seekSnaps h.payldsiz, .next)
  else
    match sysRead o.payloadRead snaps s.snapsPos h.payldsiz.toNat with
    | none => (s.seekSnaps h.payldsiz, .next)
    | some buf =>
      let s := { s with snapsPos := s.snapsPos + buf.length }
      if buf.length ≠ h.payldsiz.toNat then (s, .exitFailure)
      else
        let dev := s.dev.lseekSet (h.blknr * h.payldsiz)
        let w := dev.write o.devWrite buf
        let s := { s with dev := w.1 }.emit (.write dev.pos (buf.take (w.2.getD 0)))
        (s, if w.2 = some buf.length then .next else .exitFailure)

/-- `restore_by_type` -/
def restoreByType (o : IterOutcomes) (snaps : Bytes) (h : SnapblockFileHdr)
    (s : RestoreState) : RestoreState × RestoreFlow :=
  if h.payldType = snapblockPayloadTypeRaw then doRestoreRawblocks o snaps h s
  else (s.seekNexthdr h, .next)

/-- The question of ask mode; without it the answer is yes. -/
def askUser (opts : RestoreOpts) (h : SnapblockFileHdr) (s : RestoreState) : Bool × RestoreState :=
  if opts.ask then
    let got := fgets 10 s.stdin
    (isYes got.1, { s with stdin := got.2 }.emit (.prompt h.blknr got.1))
  else (true, s)

/-- The loop body of `do_restore` for a header with the right magic number. -/
def restoreRecord (opts : RestoreOpts) (o : IterOutcomes) (snaps : Bytes)
    (h : SnapblockFileHdr) (s : RestoreState) : RestoreState × RestoreFlow :=
  if !opts.restoreAll && opts.restoreOnlyBlknum != h.blknr then (s.seekNexthdr h, .next)
  else
    let asked := askUser opts h s
    if !asked.1 then (asked.2.seekNexthdr h, .next)
    else
      let restored := restoreByType o snaps h asked.2
      if restored.2 = .next ∧ (!opts.restoreAll && opts.restoreOnlyBlknum == h.blknr) then
        (restored.1, .leave)
      else restored

/-- One iteration of the loop of `do_restore`, the header read included. -/
def restoreIter (opts : RestoreOpts) (o : IterOutcomes) (snaps : Bytes) (s : RestoreState) :
    RestoreState × RestoreFlow :=
  match sysRead o.headerRead snaps s.snapsPos sizeofHdr with
  | none => (s, .leave)
  | some buf =>
    let off := s.snapsPos
    let s := { s with snapsPos := s.snapsPos + buf.length }
    let h := SnapblockFileHdr.ofBytes buf
    if buf.length ≠ sizeofHdr ∨ h.magic ≠ snapblockMagic then (s, .leave)
    else restoreRecord opts o snaps h (s.emit (.header off h))

/-- At most `n` iterations of the loop of `do_restore`; `i` numbers the first one. -/
def restoreLoop (opts : RestoreOpts) (outs : ℕ → IterOutcomes) (snaps : Bytes) :
    ℕ → ℕ → RestoreState → RestoreState × RestoreFlow
  | 0, _, s => (s, .next)
  | n + 1, i, s =>
    match restoreIter opts (outs i) snaps s with
    | (s', .next) => restoreLoop opts outs snaps n (i + 1) s'
    | (s', .leave) => (s', .leave)
    | (s', .exitFailure) => (s', .exitFailure)

/-- The state in which the loop of `do_restore` starts. -/
def RestoreState.start (kind : DeviceKind) (data stdin : Bytes) : RestoreState :=
  ⟨0, ⟨kind, data, 0⟩, stdin, []⟩

/-- `do_restore`; `none` when `fuel` iterations do not end the loop, and a false
truth value for `exit(EXIT_FAILURE)`. -/
def doRestore (opts : RestoreOpts) (outs : ℕ → IterOutcomes) (fuel : ℕ) (snaps : Bytes)
    (s : RestoreState) : Option (RestoreState × Bool) :=
  match restoreLoop opts outs snaps fuel 0 s with
  | (_, .next) => none
  | (s', .leave) => some (s', true)
  | (s', .exitFailure) => some (s', false)

end BlkdevSnapshot

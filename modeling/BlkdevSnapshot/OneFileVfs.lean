import BlkdevSnapshot.AnsweringMachine
import BlkdevSnapshot.ByteFile
import BlkdevSnapshot.DeviceRegistry

/-!
# Calls on a file system of one file

The operations of a file system that has a single file, and what the VFS does between them
and the system calls of processes while the file system is mounted: descriptors with their
positions, the checks of positions and sizes, the cached inode and its lock. The file system
itself is a parameter, and a simulation between two of them carries over to all sequences of
its operations and to all system calls.
-/
namespace BlkdevSnapshot

def eio : Errno := ⟨5, by decide⟩
def ebadf : Errno := ⟨9, by decide⟩

/-- How `fill_super` ends. -/
inductive MountEnd where
  | mounted
  | error (e : Errno)
  | oops
  deriving DecidableEq

/-- How `lookup` of the file ends. An inode that is still new keeps later lookups waiting. -/
inductive LookupEnd where
  | found
  | error (e : Errno) (isNew : Bool)
  deriving DecidableEq

/-- How the `write` of a file ends. -/
inductive WriteEnd where
  | hang
  | error (e : Errno)
  | wrote (n : ℕ)
  deriving DecidableEq

/-- What reading the superblock and making the root meet. -/
structure MountIo where
  bread : Bool
  iget : Bool
  makeRoot : Bool

/-- What looking the file up meets. -/
structure LookupIo where
  iget : Bool
  bread : Bool

/-- The operations of a file system of one file. -/
structure FileStore (φ ρ ω : Type*) where
  fillSuper : φ → MountIo → MountEnd
  lookup : φ → LookupIo → φ × LookupEnd
  iSize : φ → UInt64
  read : φ → ρ → UInt64 → UInt64 → Except Errno Bytes
  write : φ → ω → UInt64 → Bytes → φ × WriteEnd

/-- `SEEK_SET` and `SEEK_MAX` -/
def seekSet : ℕ := 0
def seekMax : ℕ := 4

/-- What the VFS hands to `read` and `write`: a position that is not negative, and no more
than `MAX_RW_COUNT` bytes. -/
abbrev FilePos := {off : UInt64 // off.toNat < 2 ^ 63}
abbrev RwCount := {len : UInt64 // len.toNat ≤ maxRwCount}
abbrev RwBuffer := {buf : Bytes // buf.length ≤ maxRwCount}

/-- One call of an operation. `lookup` is that of a file whose inode is not in memory. -/
inductive FileOp (ρ ω : Type*) where
  | fillSuper (io : MountIo)
  | lookup (io : LookupIo)
  | llseek (off : UInt64) (whence : ℕ)
  | read (len : RwCount) (off : FilePos) (io : ρ)
  | write (off : FilePos) (buf : RwBuffer) (io : ω)

/-- What an operation returns. -/
inductive FileOpEnd where
  | fillSuper (e : MountEnd)
  | lookup (e : LookupEnd)
  | llseek (r : Except Errno UInt64)
  | read (r : Except Errno Bytes)
  | write (e : WriteEnd)

inductive InodeCache where
  | absent
  | isNew
  | ready
  deriving DecidableEq

/-- A mounted file system. The open descriptors are given by their positions. `locked` says
that a call that never returns holds the lock of the inode. -/
structure Vfs (φ : Type*) where
  file : φ
  inode : InodeCache
  locked : Bool
  files : ℕ → Option UInt64

/-- The system calls: an `open` with `O_RDWR` alone that gets the descriptor `fd`, and the
calls on descriptors. `accessOk` says that a buffer lies in the address space of the user,
as `buf` does. -/
inductive FileCall (ρ ω : Type*) where
  | openFile (fd : ℕ) (io : LookupIo)
  | close (fd : ℕ)
  | lseek (fd : ℕ) (off : UInt64) (whence : ℕ)
  | read (fd : ℕ) (len : UInt64) (accessOk : Bool) (io : ρ)
  | write (fd : ℕ) (buf : Bytes) (io : ω)

inductive FileAnswer where
  | done
  | data (b : Bytes)
  | count (n : ℕ)
  | offset (off : UInt64)
  | error (e : Errno)
  | blocked
  deriving DecidableEq

/-- The operation `llseek` of the file, which refuses what lies behind the end. -/
def FileStore.llseek {φ ρ ω : Type*} (B : FileStore φ ρ ω) (f : φ) (off : UInt64) (whence : ℕ) :
    Except Errno UInt64 :=
  if loff (B.iSize f) < loff off ∨ whence ≠ seekSet then .error einval else .ok off

namespace Vfs
variable {φ ψ ρ ω : Type*}

def openFile (B : FileStore φ ρ ω) (v : Vfs φ) (fd : ℕ) (io : LookupIo) : Vfs φ × FileAnswer :=
  let opened : Vfs φ := { v with inode := .ready, files := Function.update v.files fd (some 0) }
  match v.inode with
  | .ready => (opened, .done)
  | .isNew => (v, .blocked)
  | .absent =>
    match B.lookup v.file io with
    | (file, .found) => ({ opened with file := file }, .done)
    | (file, .error e isNew) =>
      ({ v with file := file, inode := if isNew then .isNew else .absent }, .error e)

def close (v : Vfs φ) (fd : ℕ) : Vfs φ × FileAnswer :=
  match v.files fd with
  | none => (v, .error ebadf)
  | some _ => ({ v with files := Function.update v.files fd none }, .done)

def lseek (B : FileStore φ ρ ω) (v : Vfs φ) (fd : ℕ) (off : UInt64) (whence : ℕ) :
    Vfs φ × FileAnswer :=
  match v.files fd with
  | none => (v, .error ebadf)
  | some _ =>
    if seekMax < whence then (v, .error einval)
    else if v.locked then (v, .blocked)
    else
      match B.llseek v.file off whence with
      | .error e => (v, .error e)
      | .ok off => ({ v with files := Function.update v.files fd (some off) }, .offset off)

/-- What `rw_verify_area` refuses: a position, a length or an end that is negative. -/
def AreaRefused (pos : UInt64) (len : ℕ) : Prop := 2 ^ 63 ≤ pos.toNat + len

instance (pos : UInt64) (len : ℕ) : Decidable (AreaRefused pos len) :=
  inferInstanceAs (Decidable (_ ≤ _))

theorem lt_of_not_areaRefused {pos : UInt64} {len : ℕ} (h : ¬ AreaRefused pos len) :
    pos.toNat < 2 ^ 63 := by
  unfold AreaRefused at h
  omega

/-- `count` cut to `MAX_RW_COUNT`. -/
def cutCount (count : UInt64) : UInt64 :=
  if UInt64.ofNat maxRwCount < count then UInt64.ofNat maxRwCount else count

theorem cutCount_le (count : UInt64) : (cutCount count).toNat ≤ maxRwCount := by
  unfold cutCount
  split
  · exact le_of_eq (by decide)
  · rename_i h
    rw [UInt64.lt_iff_toNat_lt] at h
    have hmax : (UInt64.ofNat maxRwCount).toNat = maxRwCount := by decide
    omega

/-- `read` of at most `len` bytes at the position of the descriptor. -/
def read (B : FileStore φ ρ ω) (v : Vfs φ) (fd : ℕ) (len : UInt64) (accessOk : Bool) (io : ρ) :
    Vfs φ × FileAnswer :=
  match v.files fd with
  | none => (v, .error ebadf)
  | some pos =>
    if !accessOk then (v, .error efault)
    else if AreaRefused pos len.toNat then (v, .error einval)
    else if v.locked then (v, .blocked)
    else
      match B.read v.file io (cutCount len) pos with
      | .error e => (v, .error e)
      | .ok b =>
        ({ v with files := Function.update v.files fd (some (pos + UInt64.ofNat b.length)) },
          .data b)

/-- `write` of a buffer at the position of the descriptor, which an error leaves alone. -/
def write (B : FileStore φ ρ ω) (v : Vfs φ) (fd : ℕ) (buf : Bytes) (io : ω) :
    Vfs φ × FileAnswer :=
  match v.files fd with
  | none => (v, .error ebadf)
  | some pos =>
    if AreaRefused pos buf.length then (v, .error einval)
    else if v.locked then (v, .blocked)
    else
      match B.write v.file io pos (buf.take maxRwCount) with
      | (file, .hang) => ({ v with file := file, locked := true }, .blocked)
      | (file, .error e) => ({ v with file := file }, .error e)
      | (file, .wrote n) =>
        ({ v with
          file := file
          files := Function.update v.files fd (some (pos + UInt64.ofNat n)) }, .count n)

end Vfs

section Machine
variable {φ ψ ρ ω : Type*}

/-- All sequences of operations. -/
def FileStore.operations (B : FileStore φ ρ ω) : AnsweringMachine φ (FileOp ρ ω) FileOpEnd where
  serve
    | f, .fillSuper io => (f, .fillSuper (B.fillSuper f io))
    | f, .lookup io => ((B.lookup f io).1, .lookup (B.lookup f io).2)
    | f, .llseek off whence => (f, .llseek (B.llseek f off whence))
    | f, .read len off io => (f, .read (B.read f io len.1 off.1))
    | f, .write off buf io =>
      ((B.write f io off.1 buf.1).1, .write (B.write f io off.1 buf.1).2)

/-- All system calls on the mounted file system. -/
def FileStore.machine (B : FileStore φ ρ ω) :
    AnsweringMachine (Vfs φ) (FileCall ρ ω) FileAnswer where
  serve
    | v, .openFile fd io => v.openFile B fd io
    | v, .close fd => v.close fd
    | v, .lseek fd off whence => v.lseek B fd off whence
    | v, .read fd len accessOk io => v.read B fd len accessOk io
    | v, .write fd buf io => v.write B fd buf io

/-- `R` relates contents on which the operations of two file systems agree. -/
structure FileStore.Simulates (C : FileStore φ ρ ω) (A : FileStore ψ ρ ω) (R : φ → ψ → Prop) :
    Prop where
  fillSuper : ∀ f g io, R f g → C.fillSuper f io = A.fillSuper g io
  lookup : ∀ f g io, R f g →
    (C.lookup f io).2 = (A.lookup g io).2 ∧ R (C.lookup f io).1 (A.lookup g io).1
  iSize : ∀ f g, R f g → C.iSize f = A.iSize g
  read : ∀ f g io len off, R f g → len.toNat ≤ maxRwCount → off.toNat < 2 ^ 63 →
    C.read f io len off = A.read g io len off
  write : ∀ f g io off buf, R f g → off.toNat < 2 ^ 63 → buf.length ≤ maxRwCount →
    (C.write f io off buf).2 = (A.write g io off buf).2 ∧
      R (C.write f io off buf).1 (A.write g io off buf).1

/-- States that differ in the file system only, with related contents. -/
structure Vfs.Related (R : φ → ψ → Prop) (v : Vfs φ) (w : Vfs ψ) : Prop where
  file : R v.file w.file
  inode : v.inode = w.inode
  locked : v.locked = w.locked
  files : v.files = w.files

variable {C : FileStore φ ρ ω} {A : FileStore ψ ρ ω} {R : φ → ψ → Prop}

/-- Both answers are the same and the states related again. -/
def Agree (R : φ → ψ → Prop) (x : Vfs φ × FileAnswer) (y : Vfs ψ × FileAnswer) : Prop :=
  x.2 = y.2 ∧ x.1.Related R y.1

namespace FileStore.Simulates
variable {v : Vfs φ} {w : Vfs ψ}

theorem llseek (h : C.Simulates A R) {f : φ} {g : ψ} (hR : R f g) (off : UInt64) (whence : ℕ) :
    C.llseek f off whence = A.llseek g off whence := by
  simp only [FileStore.llseek, h.iSize f g hR]

/-- File systems that agree on related contents agree on every sequence of operations. -/
theorem operations (h : C.Simulates A R) : C.operations.Simulates A.operations R where
  answer f g op hR := by
    cases op with
    | fillSuper io => exact congrArg FileOpEnd.fillSuper (h.fillSuper f g io hR)
    | lookup io => exact congrArg FileOpEnd.lookup (h.lookup f g io hR).1
    | llseek off whence => exact congrArg FileOpEnd.llseek (h.llseek hR off whence)
    | read len off io => exact congrArg FileOpEnd.read (h.read f g io _ _ hR len.2 off.2)
    | write off buf io => exact congrArg FileOpEnd.write (h.write f g io _ _ hR off.2 buf.2).1
  keeps f g op hR := by
    cases op with
    | fillSuper io => exact hR
    | lookup io => exact (h.lookup f g io hR).2
    | llseek off whence => exact hR
    | read len off io => exact hR
    | write off buf io => exact (h.write f g io _ _ hR off.2 buf.2).2

theorem agree_openFile (h : C.Simulates A R) (hvw : v.Related R w) (fd : ℕ) (io : LookupIo) :
    Agree R (v.openFile C fd io) (w.openFile A fd io) := by
  obtain ⟨f, inode, locked, files⟩ := v
  obtain ⟨g, _, _, _⟩ := w
  obtain ⟨hR, rfl, rfl, rfl⟩ := hvw
  simp only [Vfs.openFile]
  cases inode with
  | ready => exact ⟨rfl, hR, rfl, rfl, rfl⟩
  | isNew => exact ⟨rfl, hR, rfl, rfl, rfl⟩
  | absent =>
    obtain ⟨hend, hkeep⟩ := h.lookup f g io hR
    generalize C.lookup f io = x at hend hkeep
    generalize A.lookup g io = y at hend hkeep
    obtain ⟨f', e⟩ := x
    obtain ⟨g', e'⟩ := y
    obtain rfl : e = e' := hend
    cases e with
    | found => exact ⟨rfl, hkeep, rfl, rfl, rfl⟩
    | error e isNew => exact ⟨rfl, hkeep, rfl, rfl, rfl⟩

theorem agree_close (hvw : v.Related R w) (fd : ℕ) : Agree R (v.close fd) (w.close fd) := by
  obtain ⟨f, inode, locked, files⟩ := v
  obtain ⟨g, _, _, _⟩ := w
  obtain ⟨hR, rfl, rfl, rfl⟩ := hvw
  simp only [Vfs.close]
  cases files fd with
  | none => exact ⟨rfl, hR, rfl, rfl, rfl⟩
  | some pos => exact ⟨rfl, hR, rfl, rfl, rfl⟩

theorem agree_lseek (h : C.Simulates A R) (hvw : v.Related R w) (fd : ℕ) (off : UInt64)
    (whence : ℕ) : Agree R (v.lseek C fd off whence) (w.lseek A fd off whence) := by
  obtain ⟨f, inode, locked, files⟩ := v
  obtain ⟨g, _, _, _⟩ := w
  obtain ⟨hR, rfl, rfl, rfl⟩ := hvw
  simp only [Vfs.lseek, h.llseek hR]
  cases files fd with
  | none => exact ⟨rfl, hR, rfl, rfl, rfl⟩
  | some pos =>
    simp only
    split_ifs with hmax hlocked
    · exact ⟨rfl, hR, rfl, rfl, rfl⟩
    · exact ⟨rfl, hR, rfl, rfl, rfl⟩
    · cases A.llseek g off whence with
      | error e => exact ⟨rfl, hR, rfl, rfl, rfl⟩
      | ok off => exact ⟨rfl, hR, rfl, rfl, rfl⟩

theorem agree_read (h : C.Simulates A R) (hvw : v.Related R w) (fd : ℕ) (len : UInt64)
    (accessOk : Bool) (io : ρ) :
    Agree R (v.read C fd len accessOk io) (w.read A fd len accessOk io) := by
  obtain ⟨f, inode, locked, files⟩ := v
  obtain ⟨g, _, _, _⟩ := w
  obtain ⟨hR, rfl, rfl, rfl⟩ := hvw
  simp only [Vfs.read]
  cases files fd with
  | none => exact ⟨rfl, hR, rfl, rfl, rfl⟩
  | some pos =>
    simp only
    split_ifs with haccess harea hlocked
    · exact ⟨rfl, hR, rfl, rfl, rfl⟩
    · exact ⟨rfl, hR, rfl, rfl, rfl⟩
    · exact ⟨rfl, hR, rfl, rfl, rfl⟩
    · have hpos := Vfs.lt_of_not_areaRefused harea
      rw [h.read f g io _ pos hR (Vfs.cutCount_le len) hpos]
      cases A.read g io (Vfs.cutCount len) pos with
      | error e => exact ⟨rfl, hR, rfl, rfl, rfl⟩
      | ok b => exact ⟨rfl, hR, rfl, rfl, rfl⟩

theorem agree_write (h : C.Simulates A R) (hvw : v.Related R w) (fd : ℕ) (buf : Bytes) (io : ω) :
    Agree R (v.write C fd buf io) (w.write A fd buf io) := by
  obtain ⟨f, inode, locked, files⟩ := v
  obtain ⟨g, _, _, _⟩ := w
  obtain ⟨hR, rfl, rfl, rfl⟩ := hvw
  simp only [Vfs.write]
  cases files fd with
  | none => exact ⟨rfl, hR, rfl, rfl, rfl⟩
  | some pos =>
    simp only
    split_ifs with harea hlocked
    · exact ⟨rfl, hR, rfl, rfl, rfl⟩
    · exact ⟨rfl, hR, rfl, rfl, rfl⟩
    · have hbuf : (buf.take maxRwCount).length ≤ maxRwCount := List.length_take_le _ _
      obtain ⟨hend, hkeep⟩ := h.write f g io pos _ hR (Vfs.lt_of_not_areaRefused harea) hbuf
      generalize C.write f io pos (buf.take maxRwCount) = x at hend hkeep
      generalize A.write g io pos (buf.take maxRwCount) = y at hend hkeep
      obtain ⟨f', e⟩ := x
      obtain ⟨g', e'⟩ := y
      obtain rfl : e = e' := hend
      cases e with
      | hang => exact ⟨rfl, hkeep, rfl, rfl, rfl⟩
      | error e => exact ⟨rfl, hkeep, rfl, rfl, rfl⟩
      | wrote n => exact ⟨rfl, hkeep, rfl, rfl, rfl⟩

/-- File systems that agree on related contents agree on every system call. -/
theorem machine (h : C.Simulates A R) : C.machine.Simulates A.machine (Vfs.Related R) := by
  have hagree (v : Vfs φ) (w : Vfs ψ) (a : FileCall ρ ω) (hvw : v.Related R w) :
      Agree R (C.machine.serve v a) (A.machine.serve w a) := by
    cases a with
    | openFile fd io => exact h.agree_openFile hvw fd io
    | close fd => exact agree_close hvw fd
    | lseek fd off whence => exact h.agree_lseek hvw fd off whence
    | read fd len accessOk io => exact h.agree_read hvw fd len accessOk io
    | write fd buf io => exact h.agree_write hvw fd buf io
  exact ⟨fun v w a hvw => (hagree v w a hvw).1, fun v w a hvw => (hagree v w a hvw).2⟩

end FileStore.Simulates
end Machine
end BlkdevSnapshot

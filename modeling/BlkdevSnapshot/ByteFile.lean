import Mathlib.Data.List.Basic
import Mathlib.Tactic

/-!
# Byte files, transfers and offsets

A file is its list of bytes. A transfer is cut by the kernel's own limits and
by an outcome of the medium, which may serve the request, serve a prefix of it
or fail. Offsets are 64-bit words read as signed numbers where C does so.
-/
namespace BlkdevSnapshot

abbrev Bytes := List UInt8

/-- `MAX_LFS_FILESIZE` of a 64-bit kernel, the largest file size and offset; a file system may
set its own limit below it. -/
def maxLfsFilesize : ℕ := 2 ^ 63 - 1

/-- `MAX_RW_COUNT`, the most bytes that one read or write call transfers. -/
def maxRwCount : ℕ := 0x7ffff000

/-- A 64-bit word as the signed `loff_t` or `off_t` that C converts it to. -/
def loff (x : UInt64) : ℤ := x.toBitVec.toInt

theorem loff_of_lt {x : UInt64} (h : x.toNat < 2 ^ 63) : loff x = x.toNat := by
  have h' : 2 * x.toBitVec.toNat < 2 ^ 64 := by simpa using (by omega : 2 * x.toNat < 2 ^ 64)
  simp [loff, BitVec.toInt_eq_toNat_of_lt h']

/-- What the medium makes of one transfer. -/
inductive IoOutcome where
  | done
  | short (k : ℕ)
  | error
  deriving DecidableEq, Repr

/-- Bytes moved by a transfer of `n` bytes; `none` is a negative return value. -/
def IoOutcome.count : IoOutcome → ℕ → Option ℕ
  | .done, n => some n
  | .short k, n => some (min k n)
  | .error, _ => none

theorem IoOutcome.count_le {o : IoOutcome} {n k : ℕ} (h : o.count n = some k) : k ≤ n := by
  cases o with
  | done => simp only [count, Option.some.injEq] at h; omega
  | short j => simp only [count, Option.some.injEq] at h; omega
  | error => simp [count] at h

/-- Bytes that a read of `n` bytes at `pos` finds. -/
def readAt (file : Bytes) (pos n : ℕ) : Bytes := (file.drop pos).take (min n maxRwCount)

theorem readAt_append (pre buf post : Bytes) (h : buf.length ≤ maxRwCount) :
    readAt (pre ++ buf ++ post) pre.length buf.length = buf := by
  rw [readAt, List.append_assoc, List.drop_left, min_eq_left h, List.take_left]

theorem readAt_length_le (file : Bytes) (pos n : ℕ) :
    (readAt file pos n).length ≤ file.length - pos := by
  simp [readAt]

/-- `kernel_write` on a file opened with `O_APPEND`: the file afterwards, and
the number of bytes written or `none` for an error. -/
def kernelWrite (o : IoOutcome) (file buf : Bytes) : Bytes × Option ℕ :=
  if buf = [] then (file, some 0)
  else
    match o.count (min buf.length (min maxRwCount (maxLfsFilesize - file.length))) with
    | none => (file, none)
    | some n => (file ++ buf.take n, some n)

/-- `file'` is `file` with a prefix of `buf` appended, the whole of it exactly
when `ok` says so, and stays within the file size limit. -/
structure Appends (file buf : Bytes) (ok : Bool) (file' : Bytes) : Prop where
  content : ∃ k ≤ buf.length, file' = file ++ buf.take k ∧ (ok = true ↔ k = buf.length)
  bounded : file.length ≤ maxLfsFilesize → file'.length ≤ maxLfsFilesize

theorem Appends.eq_append {file buf file' : Bytes} (h : Appends file buf true file') :
    file' = file ++ buf := by
  obtain ⟨k, -, hk, hfull⟩ := h.content
  rw [hk, hfull.mp rfl, List.take_length]

/-- A complete append followed by another one appends the concatenation. -/
theorem Appends.trans {file a b file' file'' : Bytes} {ok : Bool} (ha : Appends file a true file')
    (hb : Appends file' b ok file'') : Appends file (a ++ b) ok file'' := by
  refine ⟨?_, fun h => hb.bounded (ha.bounded h)⟩
  obtain ⟨k, hk, heq, hok⟩ := hb.content
  refine ⟨a.length + k, by simpa using hk, ?_, by simpa using hok⟩
  rw [heq, ha.eq_append, List.take_length_add_append, List.append_assoc]

/-- An incomplete append of a first part leaves out everything after it. -/
theorem Appends.stop {file a file' : Bytes} (ha : Appends file a false file') (b : Bytes) :
    Appends file (a ++ b) false file' := by
  refine ⟨?_, ha.bounded⟩
  obtain ⟨k, hk, heq, hok⟩ := ha.content
  have hlt : k < a.length := lt_of_le_of_ne hk fun he => by simpa using hok.mpr he
  refine ⟨k, by simp; omega, ?_, by simp; omega⟩
  rw [heq, List.take_append_of_le_length hk]

theorem kernelWrite_appends (o : IoOutcome) (file buf : Bytes) :
    Appends file buf ((kernelWrite o file buf).2 == some buf.length)
      (kernelWrite o file buf).1 := by
  unfold kernelWrite
  split
  · rename_i hnil
    subst hnil
    exact ⟨⟨0, by simp⟩, by simp⟩
  · rename_i hne
    have hpos : buf.length ≠ 0 := by simpa using hne
    cases h : o.count (min buf.length (min maxRwCount (maxLfsFilesize - file.length))) with
    | none => exact ⟨⟨0, by simp [Ne.symm hpos]⟩, by simp⟩
    | some n =>
      have hn := IoOutcome.count_le h
      exact ⟨⟨n, by omega, rfl, by simp⟩, by simp; omega⟩

/-- A healthy medium takes every buffer that the kernel's limits admit. -/
theorem kernelWrite_done {file buf : Bytes} (hrw : buf.length ≤ maxRwCount)
    (hfit : file.length + buf.length ≤ maxLfsFilesize) :
    kernelWrite .done file buf = (file ++ buf, some buf.length) := by
  have h : min buf.length (min maxRwCount (maxLfsFilesize - file.length)) = buf.length := by omega
  by_cases hne : buf = []
  · simp [kernelWrite, hne]
  · simp [kernelWrite, hne, IoOutcome.count, h]

/-- One call takes a whole buffer only within `MAX_RW_COUNT`. -/
theorem kernelWrite_full_le {o : IoOutcome} {file buf : Bytes}
    (h : (kernelWrite o file buf).2 = some buf.length) : buf.length ≤ maxRwCount := by
  unfold kernelWrite at h
  split at h
  · rename_i hnil
    simp [hnil]
  · cases hcount : o.count (min buf.length (min maxRwCount (maxLfsFilesize - file.length))) with
    | none => simp [hcount] at h
    | some n =>
      have hn := IoOutcome.count_le hcount
      simp only [hcount, Option.some.injEq] at h
      omega

/-- A call that takes no byte leaves the file alone. -/
theorem kernelWrite_nothing {o : IoOutcome} {file buf : Bytes}
    (h : (kernelWrite o file buf).2.getD 0 = 0) : (kernelWrite o file buf).1 = file := by
  unfold kernelWrite at h ⊢
  split at h
  · rename_i hnil
    rw [if_pos hnil]
  · rename_i hne
    rw [if_neg hne]
    cases hcount : o.count (min buf.length (min maxRwCount (maxLfsFilesize - file.length))) with
    | none => rfl
    | some n =>
      obtain rfl : n = 0 := by simpa [hcount] using h
      simp

/-- `lseek(fd, off, SEEK_CUR)` on a regular file; a refused seek keeps the position. -/
def lseekCur (pos : ℕ) (off : UInt64) : ℕ :=
  let target : ℤ := pos + loff off
  if 0 ≤ target ∧ target ≤ maxLfsFilesize then target.toNat else pos

theorem lseekCur_of_le (pos : ℕ) (off : UInt64) (h : pos + off.toNat ≤ maxLfsFilesize) :
    lseekCur pos off = pos + off.toNat := by
  have hm : maxLfsFilesize < 2 ^ 63 := by decide
  have hoff : loff off = off.toNat := loff_of_lt (by omega)
  have hin : 0 ≤ (pos : ℤ) + loff off ∧ (pos : ℤ) + loff off ≤ maxLfsFilesize := by
    rw [hoff]; omega
  simp only [lseekCur, if_pos hin]
  rw [hoff]
  omega

/-- The bytes of a file after `buf` was put at `pos`; a gap is filled with zeros. -/
def overwrite (file : Bytes) (pos : ℕ) (buf : Bytes) : Bytes :=
  if buf = [] then file
  else (file ++ List.replicate (pos - file.length) 0).take pos ++ buf ++
    file.drop (pos + buf.length)

@[simp] theorem overwrite_nil (file : Bytes) (pos : ℕ) : overwrite file pos [] = file := by
  simp [overwrite]

theorem overwrite_length {file buf : Bytes} {pos : ℕ} (h : pos + buf.length ≤ file.length) :
    (overwrite file pos buf).length = file.length := by
  unfold overwrite
  split
  · rfl
  · simp only [List.length_append, List.length_take, List.length_drop, List.length_replicate]
    omega

/-- Overwriting inside the file replaces a segment of the same length. -/
theorem overwrite_segment (pre old buf post : Bytes) (h : old.length = buf.length) :
    overwrite (pre ++ old ++ post) pre.length buf = pre ++ buf ++ post := by
  by_cases hb : buf = []
  · subst hb
    have : old = [] := List.eq_nil_of_length_eq_zero (by simpa using h)
    simp [this]
  · have hgap : pre.length - (pre ++ old ++ post).length = 0 := by simp
    have hdrop : pre.length + buf.length = (pre ++ old).length := by simp [h]
    simp only [overwrite, if_neg hb, hgap, List.replicate_zero, List.append_nil]
    rw [hdrop, List.drop_left, List.append_assoc pre old post, List.take_left]

end BlkdevSnapshot

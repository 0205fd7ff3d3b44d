import BlkdevSnapshot.BlockImage

/-!
# Bounded files with transfers inside one unit

A file is its content, of which a reader of the medium finds the first `durable` bytes. One
transfer stops at the next multiple of a unit, so a longer one takes several. Below it are
the facts about segments of flat images that such files are stored in.
-/
namespace BlkdevSnapshot

structure BoundedFile where
  content : Bytes
  durable : ℕ
  deriving DecidableEq

theorem overwrite_eq {file buf : Bytes} {pos : ℕ} (h : pos ≤ file.length) :
    overwrite file pos buf = file.take pos ++ (buf ++ file.drop (pos + buf.length)) := by
  by_cases hbuf : buf = []
  · rw [hbuf, overwrite_nil, List.length_nil, Nat.add_zero, List.nil_append,
      List.take_append_drop]
  · rw [overwrite, if_neg hbuf, Nat.sub_eq_zero_of_le h, List.replicate_zero, List.append_nil,
      List.append_assoc]

namespace BoundedFile

/-- The length of a transfer at `off` that stops at the next multiple of `unit`. -/
def span (unit off len : ℕ) : ℕ := min len (unit - off % unit)

/-- The content after `bytes` and `pad` zeros were put at `off`. Zeros do not extend it. -/
def put (content : Bytes) (off : ℕ) (bytes : Bytes) (pad : ℕ) : Bytes :=
  (overwrite content off (bytes ++ List.replicate pad 0)).take
    (max content.length (off + bytes.length))

theorem span_le (unit off len : ℕ) : span unit off len ≤ len := min_le_left len _

/-- From an offset before a multiple of `unit` there is room for the rest of its unit. -/
theorem room_of_lt {unit off M : ℕ} (h : off < M * unit) :
    off + (unit - off % unit) ≤ M * unit := by
  have hunit : 0 < unit := Nat.pos_of_mul_pos_left (Nat.zero_lt_of_lt h)
  have hdiv : off / unit < M := Nat.div_lt_of_lt_mul (by rwa [Nat.mul_comm])
  have hnext : (off / unit + 1) * unit ≤ M * unit := Nat.mul_le_mul_right unit hdiv
  have hsplit := Nat.div_add_mod' off unit
  have hmod := Nat.mod_lt off hunit
  rw [Nat.succ_mul] at hnext
  omega

/-! ## Putting bytes over padding -/

section Put
variable {content bytes rest : Bytes} {off pad : ℕ}

theorem put_length (bytes : Bytes) (pad : ℕ) (hoff : off ≤ content.length) :
    (put content off bytes pad).length = max content.length (off + bytes.length) := by
  rw [put, overwrite_eq hoff]
  simp only [List.length_take, List.length_append, List.length_drop, List.length_replicate]
  omega

theorem take_put (hoff : off ≤ content.length) :
    (put content off bytes pad).take (off + bytes.length) = content.take off ++ bytes := by
  have hlen : (content.take off).length = off := by rw [List.length_take, min_eq_left hoff]
  have hpre : (content.take off ++ bytes).length = off + bytes.length := by
    rw [List.length_append, hlen]
  rw [put, overwrite_eq hoff, List.take_take, min_eq_left (le_max_right _ _), List.append_assoc,
    ← List.append_assoc, ← hpre, List.take_left]

theorem drop_put {k : ℕ} (hoff : off ≤ content.length) (hk : off + bytes.length + pad ≤ k) :
    (put content off bytes pad).drop k = content.drop k := by
  have hlen : (content.take off).length = off := by rw [List.length_take, min_eq_left hoff]
  have hbuf : (bytes ++ List.replicate pad 0).length = bytes.length + pad := by
    rw [List.length_append, List.length_replicate]
  have hpre : (content.take off ++ (bytes ++ List.replicate pad 0)).length =
      off + (bytes.length + pad) := by
    rw [List.length_append, hlen, hbuf]
  have hskip : k = off + (bytes.length + pad) + (k - (off + (bytes.length + pad))) := by omega
  rw [put, overwrite_eq hoff, List.drop_take, ← List.append_assoc, hskip, ← hpre,
    List.drop_length_add_append, List.drop_drop, hpre, hbuf, ← hskip, List.take_of_length_le]
  rw [List.length_drop]
  omega

/-- What follows the bytes that were put may as well have been put with them. -/
theorem overwrite_put (bytes : Bytes) (hoff : off ≤ content.length) (hpad : pad ≤ rest.length) :
    overwrite (put content off bytes pad) (off + bytes.length) rest =
      overwrite content off (bytes ++ rest) := by
  have hend : off + bytes.length ≤ (put content off bytes pad).length := by
    rw [put_length bytes pad hoff]
    exact le_max_right _ _
  rw [overwrite_eq hend, overwrite_eq hoff, take_put hoff, drop_put hoff (by omega),
    List.length_append, List.append_assoc, List.append_assoc, Nat.add_assoc]

end Put
end BoundedFile

/-! ## Segments of flat images -/

section Segments
variable {N n : ℕ} (img : Fin N → Block n) (i : Fin N)

theorem blockAt_flatten : blockAt n (flatten img) i = (img i).1 := by
  have hself := overwrite_flatten img i (img i)
  rw [Function.update_eq_self] at hself
  rw [← hself]
  exact blockAt_overwrite_self (img i).2

theorem block_getElem? {k : ℕ} (hk : k < n) : (img i).1[k]? = (flatten img)[i * n + k]? := by
  rw [← blockAt_flatten, blockAt_getElem?, if_pos hk]

/-- A segment of a block is a segment of the flat image. -/
theorem take_drop_block {off k : ℕ} (h : off + k ≤ n) :
    ((img i).1.drop off).take k = ((flatten img).drop (i * n + off)).take k := by
  apply List.ext_getElem?
  intro j
  rw [List.getElem?_take, List.getElem?_take, List.getElem?_drop, List.getElem?_drop]
  by_cases hj : j < k
  · rw [if_pos hj, if_pos hj, block_getElem? img i (by omega), Nat.add_assoc]
  · rw [if_neg hj, if_neg hj]

theorem Block.patch_length (b : Block n) {off : ℕ} {buf : Bytes} (h : off + buf.length ≤ n) :
    (overwrite b.1 off buf).length = n := by
  rw [overwrite_length (by rw [b.2]; exact h), b.2]

/-- A block with `buf` at `off`, if it fits. -/
def Block.patch (b : Block n) (off : ℕ) (buf : Bytes) : Block n :=
  if h : off + buf.length ≤ n then ⟨overwrite b.1 off buf, Block.patch_length b h⟩ else b

theorem Block.patch_val (b : Block n) {off : ℕ} {buf : Bytes} (h : off + buf.length ≤ n) :
    (b.patch off buf).1 = overwrite b.1 off buf := by
  rw [patch, dif_pos h]

/-- Patching a block overwrites a segment of the flat image. -/
theorem flatten_patch {off : ℕ} {buf : Bytes} (h : off + buf.length ≤ n) :
    flatten (Function.update img i ((img i).patch off buf)) =
      overwrite (flatten img) (i * n + off) buf := by
  rw [← overwrite_flatten, Block.patch_val _ h]
  by_cases hbuf : buf = []
  · rw [hbuf, overwrite_nil, overwrite_nil, overwrite_flatten, Function.update_eq_self]
  · apply List.ext_getElem?
    intro j
    have hpatch : (overwrite (img i).1 off buf).length = n := Block.patch_length _ h
    have hpos : 0 < buf.length := List.length_pos_iff.mpr hbuf
    have hne : overwrite (img i).1 off buf ≠ [] := by
      intro hnil
      rw [hnil, List.length_nil] at hpatch
      omega
    have hend : (i + 1) * n ≤ (flatten img).length := by
      rw [flatten_length]
      exact Nat.mul_le_mul_right n i.isLt
    rw [Nat.succ_mul] at hend
    rw [overwrite_getElem? _ _ _ _ hne, overwrite_getElem? _ _ (i * n + off) _ hbuf, hpatch]
    by_cases hin : i * n ≤ j ∧ j < i * n + n
    · have hk : j - i * n < n := by omega
      have hj : i * n + (j - i * n) = j := by omega
      rw [if_pos hin, overwrite_getElem? _ _ _ _ hbuf, (img i).2, if_pos hk,
        block_getElem? img i hk, hj]
      by_cases hcovered : off ≤ j - i * n ∧ j - i * n < off + buf.length
      · rw [if_pos hcovered, if_pos (by omega)]
        congr 1
        omega
      · rw [if_neg hcovered, if_neg (by omega), if_pos (by omega)]
    · rw [if_neg hin]
      by_cases hj : j < (flatten img).length
      · rw [if_pos hj, if_neg (by omega), if_pos hj]
      · rw [if_neg hj, if_neg (by omega), if_neg hj, if_neg (by omega), if_neg (by omega)]

end Segments

/-- What an overwrite that starts in the first `s` bytes makes of them and of the bytes that
it puts does not depend on the rest. -/
theorem overwrite_take {area buf : Bytes} {s off m : ℕ} (hs : s ≤ area.length) (hoff : off ≤ s)
    (hm : m ≤ max s (off + buf.length)) :
    (overwrite (area.take s) off buf).take m = (overwrite area off buf).take m := by
  by_cases hbuf : buf = []
  · have hms : m ≤ s := by simpa [hbuf, hoff] using hm
    rw [hbuf, overwrite_nil, overwrite_nil, List.take_take, min_eq_left hms]
  · apply List.ext_getElem?
    intro j
    rw [List.getElem?_take, List.getElem?_take]
    by_cases hj : j < m
    · rw [if_pos hj, if_pos hj, overwrite_getElem? _ _ _ _ hbuf, overwrite_getElem? _ _ _ _ hbuf]
      by_cases hin : off ≤ j ∧ j < off + buf.length
      · rw [if_pos hin, if_pos hin]
      · have hjs : j < s := by omega
        rw [if_neg hin, if_neg hin, List.length_take, if_pos (by omega), if_pos (by omega),
          List.getElem?_take, if_pos hjs]
    · rw [if_neg hj, if_neg hj]

end BlkdevSnapshot

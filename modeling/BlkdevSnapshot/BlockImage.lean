import BlkdevSnapshot.ByteFile

/-!
# Block images

A device of `N` blocks of `n` bytes each, and the flat byte image that a file
or a block device node gives of it. Writing one block changes one segment of
the flat image.
-/
namespace BlkdevSnapshot

/-- A block of `n` bytes. -/
abbrev Block (n : ℕ) := {b : Bytes // b.length = n}

/-- The bytes of a list of blocks, one after the other. -/
def flattenBlocks {n : ℕ} (bs : List (Block n)) : Bytes := bs.flatMap Subtype.val

/-- The bytes of a device. -/
def flatten {N n : ℕ} (img : Fin N → Block n) : Bytes := flattenBlocks (List.ofFn img)

@[simp] theorem flattenBlocks_append {n : ℕ} (as bs : List (Block n)) :
    flattenBlocks (as ++ bs) = flattenBlocks as ++ flattenBlocks bs := by
  simp [flattenBlocks]

@[simp] theorem flattenBlocks_cons {n : ℕ} (b : Block n) (bs : List (Block n)) :
    flattenBlocks (b :: bs) = b.val ++ flattenBlocks bs := rfl

@[simp] theorem flattenBlocks_length {n : ℕ} (bs : List (Block n)) :
    (flattenBlocks bs).length = bs.length * n := by
  induction bs with
  | nil => simp [flattenBlocks]
  | cons b bs ih =>
    rw [flattenBlocks_cons, List.length_append, ih, b.property, List.length_cons]
    ring

@[simp] theorem flatten_length {N n : ℕ} (img : Fin N → Block n) :
    (flatten img).length = N * n := by
  simp [flatten]

/-- Overwriting a block of the flat image. -/
theorem overwrite_flattenBlocks {n : ℕ} (bs : List (Block n)) (i : ℕ) (hi : i < bs.length)
    (b : Block n) :
    overwrite (flattenBlocks bs) (i * n) b.val = flattenBlocks (bs.set i b) := by
  have hsplit : bs = bs.take i ++ bs[i] :: bs.drop (i + 1) := by
    rw [List.getElem_cons_drop, List.take_append_drop]
  have hflat : flattenBlocks bs = flattenBlocks (bs.take i) ++ (bs[i]).val ++
      flattenBlocks (bs.drop (i + 1)) := by
    conv_lhs => rw [hsplit]
    rw [flattenBlocks_append, flattenBlocks_cons, List.append_assoc]
  have hpre : (flattenBlocks (bs.take i)).length = i * n := by
    rw [flattenBlocks_length, List.length_take, min_eq_left hi.le]
  have hlen : (bs[i]).val.length = b.val.length := by
    rw [(bs[i]).property, b.property]
  rw [hflat, ← hpre, overwrite_segment _ _ _ _ hlen, List.set_eq_take_append_cons_drop, if_pos hi,
    flattenBlocks_append, flattenBlocks_cons, List.append_assoc]

theorem overwrite_flatten {N n : ℕ} (img : Fin N → Block n) (i : Fin N) (b : Block n) :
    overwrite (flatten img) (i * n) b.val = flatten (Function.update img i b) := by
  have hset : (List.ofFn img).set i b = List.ofFn (Function.update img i b) := by
    apply List.ext_getElem (by simp)
    intro j h₁ h₂
    have hj : j < N := by simpa using h₂
    by_cases hij : i = (⟨j, hj⟩ : Fin N)
    · subst hij
      simp
    · have hne : (i : ℕ) ≠ j := fun he => hij (Fin.ext he)
      simp [hne, Function.update_of_ne (Ne.symm hij)]
  rw [flatten, overwrite_flattenBlocks _ _ (by simp), hset]
  rfl

/-! ## Blocks of a file of any length -/

/-- Block `b` of a file of blocks of `n` bytes. -/
def blockAt (n : ℕ) (file : Bytes) (b : ℕ) : Bytes := (file.drop (b * n)).take n

section BlockAt
variable {n b c : ℕ} {file buf : Bytes}

theorem overwrite_getElem? (file buf : Bytes) (pos i : ℕ) (hbuf : buf ≠ []) :
    (overwrite file pos buf)[i]? =
      if pos ≤ i ∧ i < pos + buf.length then buf[i - pos]?
      else if i < file.length then file[i]?
      else if i < pos then some 0 else none := by
  have hhead : ((file ++ List.replicate (pos - file.length) 0).take pos).length = pos := by
    rw [List.length_take, List.length_append, List.length_replicate]
    omega
  rw [overwrite, if_neg hbuf, List.append_assoc]
  by_cases hi : i < pos
  · rw [List.getElem?_append_left (by omega), List.getElem?_take_of_lt hi, if_neg (by omega)]
    by_cases hfile : i < file.length
    · rw [List.getElem?_append_left hfile, if_pos hfile]
    · rw [List.getElem?_append_right (by omega), if_neg hfile, if_pos hi,
        List.getElem?_replicate, if_pos (by omega)]
  · rw [List.getElem?_append_right (by omega), hhead]
    by_cases hin : i < pos + buf.length
    · rw [List.getElem?_append_left (by omega), if_pos ⟨by omega, hin⟩]
    · rw [List.getElem?_append_right (by omega), List.getElem?_drop, if_neg (by omega), if_neg hi]
      have hidx : pos + buf.length + (i - pos - buf.length) = i := by omega
      rw [hidx]
      by_cases hfile : i < file.length
      · rw [if_pos hfile]
      · rw [if_neg hfile, List.getElem?_eq_none (by omega)]

theorem blockAt_getElem? (n : ℕ) (file : Bytes) (b i : ℕ) :
    (blockAt n file b)[i]? = if i < n then file[b * n + i]? else none := by
  rw [blockAt, List.getElem?_take, List.getElem?_drop]

/-- The block that was written. -/
theorem blockAt_overwrite_self (h : buf.length = n) :
    blockAt n (overwrite file (b * n) buf) b = buf := by
  by_cases hbuf : buf = []
  · obtain rfl : n = 0 := by rw [← h, hbuf, List.length_nil]
    rw [blockAt, List.take_zero, hbuf]
  · apply List.ext_getElem?
    intro i
    rw [blockAt_getElem?, overwrite_getElem? _ _ _ _ hbuf, h]
    by_cases hi : i < n
    · rw [if_pos hi, if_pos ⟨by omega, by omega⟩]
      congr 1
      omega
    · rw [if_neg hi, List.getElem?_eq_none (by omega)]

/-- Another block that lay in the file. -/
theorem blockAt_overwrite_ne (h : buf.length = n) (hne : c ≠ b) (hin : (c + 1) * n ≤ file.length) :
    blockAt n (overwrite file (b * n) buf) c = blockAt n file c := by
  by_cases hbuf : buf = []
  · rw [hbuf, overwrite_nil]
  · apply List.ext_getElem?
    intro i
    rw [blockAt_getElem?, blockAt_getElem?, overwrite_getElem? _ _ _ _ hbuf, h]
    by_cases hi : i < n
    · have hapart : ¬ (b * n ≤ c * n + i ∧ c * n + i < b * n + n) := by
        rintro ⟨hle, hlt⟩
        rw [← Nat.succ_mul] at hlt
        have hcb : c < b + 1 :=
          Nat.lt_of_mul_lt_mul_right (lt_of_le_of_lt (Nat.le_add_right _ i) hlt)
        have hbc : b < c + 1 := by
          apply Nat.lt_of_mul_lt_mul_right (a := n)
          rw [Nat.succ_mul]
          omega
        omega
      rw [Nat.succ_mul] at hin
      rw [if_pos hi, if_pos hi, if_neg hapart, if_pos (by omega)]
    · rw [if_neg hi, if_neg hi]

theorem le_overwrite_length (file buf : Bytes) (pos : ℕ) :
    file.length ≤ (overwrite file pos buf).length := by
  unfold overwrite
  split
  · exact le_rfl
  · simp only [List.length_append, List.length_take, List.length_drop, List.length_replicate]
    omega

/-- A block that was written lies in the file. -/
theorem succ_mul_le_overwrite_length (h : buf.length = n) :
    (b + 1) * n ≤ (overwrite file (b * n) buf).length := by
  rw [Nat.succ_mul]
  unfold overwrite
  split
  · rename_i hbuf
    obtain rfl : n = 0 := by rw [← h, hbuf, List.length_nil]
    simp
  · simp only [List.length_append, List.length_take, List.length_drop, List.length_replicate]
    omega

end BlockAt

end BlkdevSnapshot

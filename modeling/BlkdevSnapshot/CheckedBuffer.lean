import Mathlib.Data.List.DropRight
import Mathlib.Tactic

/-!
# Buffers with checked accesses

A buffer has a size and holds values in its first cells. Loads and stores reach these
cells only: any other access is a fault, and the end of the computation. The functions on
C strings below load one cell after the other, so a result without a fault says that
they stay in the filled part of the buffer.
-/
namespace BlkdevSnapshot.CheckedBuffer

/-- What is wrong with an access: it is outside the buffer, or to a cell without a value. -/
inductive AccessFault where
  | outside
  | unset
  deriving DecidableEq, Repr

structure Buffer where
  size : ℕ
  cells : List UInt8
  fits : cells.length ≤ size

namespace Buffer

/-- A buffer without values. -/
def empty (size : ℕ) : Buffer := ⟨size, [], Nat.zero_le size⟩

/-- A buffer of given values. -/
def filled (cells : List UInt8) : Buffer := ⟨cells.length, cells, le_rfl⟩

def faultAt (b : Buffer) (i : ℕ) : AccessFault := if i < b.size then .unset else .outside

def load (b : Buffer) (i : ℕ) : Except AccessFault UInt8 :=
  match b.cells[i]? with
  | some x => .ok x
  | none => .error (b.faultAt i)

theorem set_fits (b : Buffer) (i : ℕ) (x : UInt8) : (b.cells.set i x).length ≤ b.size := by
  rw [List.length_set]
  exact b.fits

def store (b : Buffer) (i : ℕ) (x : UInt8) : Except AccessFault Buffer :=
  if i < b.cells.length then .ok ⟨b.size, b.cells.set i x, b.set_fits i x⟩
  else .error (b.faultAt i)

theorem overwrite_fits (b : Buffer) {xs : List UInt8} (h : xs.length ≤ b.size) :
    (xs ++ b.cells.drop xs.length).length ≤ b.size := by
  have hfits := b.fits
  rw [List.length_append, List.length_drop]
  omega

/-- Values for the first cells. -/
def overwrite (b : Buffer) (xs : List UInt8) : Except AccessFault Buffer :=
  if h : xs.length ≤ b.size then .ok ⟨b.size, xs ++ b.cells.drop xs.length, b.overwrite_fits h⟩
  else .error .outside

/-- At most `n` turns of a loop that loads cell after cell until `stop` holds of one. -/
def scanFor (b : Buffer) (stop : UInt8 → Bool) : ℕ → ℕ → Except AccessFault ℕ
  | 0, i => .error (b.faultAt i)
  | n + 1, i => do
    let x ← b.load i
    if stop x then .ok i else scanFor b stop n (i + 1)

/-- The loop from cell `i` on. It faults before it runs out of turns. -/
def scan (b : Buffer) (stop : UInt8 → Bool) (i : ℕ) : Except AccessFault ℕ :=
  b.scanFor stop (b.cells.length + 1) i

/-- The C string at `s`. -/
def cstr (b : Buffer) (s : ℕ) : Except AccessFault (List UInt8) := do
  let last ← b.scan (· == 0) s
  .ok ((b.cells.drop s).take (last - s))

/-- `strchr` -/
def strchr (b : Buffer) (s : ℕ) (c : UInt8) : Except AccessFault (Option ℕ) := do
  let i ← b.scan (fun x => x == c || x == 0) s
  let x ← b.load i
  .ok (if x = c then some i else none)

/-- `strlen` -/
def strlen (b : Buffer) (s : ℕ) : Except AccessFault ℕ := do
  let last ← b.scan (· == 0) s
  .ok (last - s)

/-- `skip_spaces` -/
def skipSpaces (space : UInt8 → Bool) (b : Buffer) (s : ℕ) : Except AccessFault ℕ :=
  b.scan (fun x => !space x) s

/-- The loop of `strim` that goes back over white space: the number of cells behind `s`
that are left of `n`. -/
def trimEnd (space : UInt8 → Bool) (b : Buffer) (s : ℕ) : ℕ → Except AccessFault ℕ
  | 0 => .ok 0
  | n + 1 => do
    let x ← b.load (s + n)
    if space x then trimEnd space b s n else .ok (n + 1)

/-- `strim` -/
def strim (space : UInt8 → Bool) (b : Buffer) (s : ℕ) : Except AccessFault (ℕ × Buffer) := do
  let size ← b.strlen s
  if size = 0 then .ok (s, b)
  else
    let n ← trimEnd space b s size
    let b' ← b.store (s + n) 0
    let first ← skipSpaces space b' s
    .ok (first, b')

end Buffer

/-- A text without the white space at its ends. -/
def trim (space : UInt8 → Bool) (text : List UInt8) : List UInt8 :=
  (text.rdropWhile space).dropWhile space

section Rules
variable {b : Buffer} {pre as bs : List UInt8} {x : UInt8} {stop space : UInt8 → Bool}

theorem Buffer.load_ok {i : ℕ} (h : b.cells[i]? = some x) : b.load i = .ok x := by
  rw [Buffer.load, h]

/-- The buffer is filled as far as it is written. -/
theorem Buffer.overwrite_empty {size : ℕ} {xs : List UInt8} (h : xs.length ≤ size) :
    ∃ b, (Buffer.empty size).overwrite xs = .ok b ∧ b.size = size ∧ b.cells = xs :=
  ⟨_, dif_pos h, rfl, by simp [Buffer.empty]⟩

theorem Buffer.overwrite_empty_self (xs : List UInt8) :
    (Buffer.empty xs.length).overwrite xs = .ok (.filled xs) := by
  obtain ⟨⟨size, cells, fits⟩, hwrite, hsize, hcells⟩ :=
    Buffer.overwrite_empty (le_refl xs.length)
  obtain rfl : size = xs.length := hsize
  obtain rfl : cells = xs := hcells
  exact hwrite

theorem Buffer.scanFor_append (hcells : b.cells = pre ++ (as ++ x :: bs))
    (has : ∀ a ∈ as, stop a = false) (hx : stop x = true) {n : ℕ} (hn : as.length < n) :
    b.scanFor stop n pre.length = .ok (pre.length + as.length) := by
  induction as generalizing pre n with
  | nil =>
    obtain ⟨n, rfl⟩ := Nat.exists_eq_succ_of_ne_zero (Nat.ne_of_gt hn)
    have hload : b.load pre.length = .ok x := Buffer.load_ok (by simp [hcells])
    simp only [Buffer.scanFor, hload, bind, Except.bind, hx, if_true, List.length_nil, Nat.add_zero]
  | cons a as ih =>
    obtain ⟨n, rfl⟩ := Nat.exists_eq_succ_of_ne_zero (Nat.ne_of_gt (Nat.zero_lt_of_lt hn))
    have hload : b.load pre.length = .ok a := Buffer.load_ok (by simp [hcells])
    have ha : stop a = false := has a List.mem_cons_self
    have hcells' : b.cells = (pre ++ [a]) ++ (as ++ x :: bs) := by simp [hcells]
    have hturns : as.length < n := by simpa using hn
    have hrest := ih hcells' (fun y hy => has y (List.mem_cons_of_mem _ hy)) hturns
    rw [List.length_append, List.length_singleton] at hrest
    simp only [Buffer.scanFor, hload, bind, Except.bind, ha, Bool.false_eq_true, if_false, hrest,
      List.length_cons]
    congr 1
    omega

/-- A scan stops at the first cell that it looks for. -/
theorem Buffer.scan_append (stop : UInt8 → Bool) (hcells : b.cells = pre ++ (as ++ x :: bs))
    (has : ∀ a ∈ as, stop a = false) (hx : stop x = true) :
    b.scan stop pre.length = .ok (pre.length + as.length) :=
  Buffer.scanFor_append hcells has hx (by
    rw [hcells]
    simp only [List.length_append, List.length_cons]
    omega)

theorem Buffer.store_append (hcells : b.cells = pre ++ x :: bs) (y : UInt8) :
    ∃ b', b.store pre.length y = .ok b' ∧ b'.size = b.size ∧ b'.cells = pre ++ y :: bs := by
  refine ⟨_, if_pos ?_, rfl, ?_⟩
  · simp [hcells]
  · simp [hcells]

/-- The C string in front of a zero. -/
theorem Buffer.cstr_append {text : List UInt8} (hcells : b.cells = pre ++ (text ++ 0 :: bs))
    (htext : 0 ∉ text) : b.cstr pre.length = .ok text := by
  have hscan := Buffer.scan_append (· == 0) hcells
    (fun a ha => by simpa using ne_of_mem_of_not_mem ha htext) rfl
  have hlen : pre.length + text.length - pre.length = text.length := by omega
  simp only [Buffer.cstr, hscan, bind, Except.bind, hcells, List.drop_left, hlen, List.take_left]

theorem Buffer.strlen_append {text : List UInt8} (hcells : b.cells = pre ++ (text ++ 0 :: bs))
    (htext : 0 ∉ text) : b.strlen pre.length = .ok text.length := by
  have hscan := Buffer.scan_append (· == 0) hcells
    (fun a ha => by simpa using ne_of_mem_of_not_mem ha htext) rfl
  have hlen : pre.length + text.length - pre.length = text.length := by omega
  simp only [Buffer.strlen, hscan, bind, Except.bind, hlen]

/-- `strchr` stops at the character or at the end of the string, whichever comes first. -/
theorem Buffer.strchr_append (c : UInt8) (hcells : b.cells = pre ++ (as ++ x :: bs))
    (has : ∀ a ∈ as, a ≠ c ∧ a ≠ 0) (hx : x = c ∨ x = 0) :
    b.strchr pre.length c = .ok (if x = c then some (pre.length + as.length) else none) := by
  have hscan := Buffer.scan_append (fun x => x == c || x == 0) hcells
    (fun a ha => by simpa using has a ha) (by simpa using hx)
  have hload : b.load (pre.length + as.length) = .ok x := Buffer.load_ok (by simp [hcells])
  simp only [Buffer.strchr, hscan, hload, bind, Except.bind]

/-- Going back over white space ends at the last other character. -/
theorem Buffer.trimEnd_append {kept : List UInt8}
    (hkept : ∀ h : kept ≠ [], ¬ space (kept.getLast h)) (has : ∀ a ∈ as, space a = true)
    (hcells : b.cells = pre ++ (kept ++ (as ++ bs))) :
    Buffer.trimEnd space b pre.length (kept.length + as.length) = .ok kept.length := by
  induction as using List.reverseRecOn generalizing bs with
  | nil =>
    rcases List.eq_nil_or_concat kept with rfl | ⟨front, y, rfl⟩
    · rfl
    · have hload : b.load (pre.length + front.length) = .ok y := Buffer.load_ok (by simp [hcells])
      have hy : space y = false := by simpa using hkept (by simp)
      simp [Buffer.trimEnd, hload, bind, Except.bind, hy]
  | append_singleton as a ih =>
    have hload : b.load (pre.length + (kept.length + as.length)) = .ok a :=
      Buffer.load_ok (by simp [hcells])
    have ha : space a = true := has a (by simp)
    have hcells' : b.cells = pre ++ (kept ++ (as ++ a :: bs)) := by simp [hcells]
    have hrest := ih (fun y hy => has y (by simp [hy])) hcells'
    rw [List.length_append, List.length_singleton, ← Nat.add_assoc]
    simp only [Buffer.trimEnd, hload, bind, Except.bind, ha, if_true]
    exact hrest

/-- Only white space is trimmed to nothing. -/
theorem trim_eq_nil_iff {text : List UInt8} :
    trim space text = [] ↔ ∀ x ∈ text, space x = true := by
  rw [trim, List.dropWhile_eq_nil_iff]
  constructor
  · intro h
    have hnil : text.rdropWhile space = [] := by
      by_contra hne
      exact List.rdropWhile_last_not space text hne (h _ (List.getLast_mem hne))
    exact List.rdropWhile_eq_nil_iff.mp hnil
  · intro h
    rw [List.rdropWhile_eq_nil_iff.mpr h]
    simp

/-- A text is trimmed to itself if it has no white space at its ends. -/
theorem trim_eq_self_iff {text : List UInt8} : trim space text = text ↔
    (∀ x ∈ text.head?, space x = false) ∧ ∀ x ∈ text.getLast?, space x = false := by
  constructor
  · intro h
    have hprefix : text.rdropWhile space <+: text := text.rdropWhile_prefix space
    have hsuffix : trim space text <:+ text.rdropWhile space := List.dropWhile_suffix _
    have hback : text.rdropWhile space = text := by
      have hle := hsuffix.length_le
      rw [h] at hle
      exact hprefix.eq_of_length_le hle
    have hfront : text.dropWhile space = text := by rwa [trim, hback] at h
    refine ⟨fun x hx => ?_, fun x hx => ?_⟩
    · have hhead := List.head?_dropWhile_not space text
      rw [hfront, Option.mem_def.mp hx] at hhead
      simpa using hhead
    · have hne : text ≠ [] := List.ne_nil_of_mem (List.mem_of_getLast? hx)
      have hlast := List.rdropWhile_eq_self_iff.mp hback hne
      have hx' : text.getLast hne = x := by
        rw [Option.mem_def, List.getLast?_eq_some_getLast hne] at hx
        exact Option.some.inj hx
      rw [hx'] at hlast
      exact Bool.eq_false_of_not_eq_true hlast
  · rintro ⟨hhead, hlast⟩
    have hback : text.rdropWhile space = text := List.rdropWhile_eq_self_iff.mpr fun hne => by
      simp [hlast _ (List.getLast?_eq_some_getLast hne)]
    rw [trim, hback]
    cases text with
    | nil => rfl
    | cons x xs =>
      have hx : space x = false := hhead x rfl
      simp [hx]

theorem zero_notMem_trim {text : List UInt8} (h : 0 ∉ text) : 0 ∉ trim space text := fun hm =>
  h ((text.rdropWhile_prefix space).subset ((List.dropWhile_sublist _).subset hm))

/-- `strim` leaves the trimmed string in place, with its zero, and nothing changed behind
the end of the string. -/
theorem Buffer.strim_append {text : List UInt8} (hzero : space 0 = false) (htext : 0 ∉ text)
    (hcells : b.cells = pre ++ (text ++ 0 :: bs)) :
    ∃ b' front gap, Buffer.strim space b pre.length = .ok (pre.length + front.length, b') ∧
      b'.size = b.size ∧ b'.cells = pre ++ (front ++ (trim space text ++ 0 :: (gap ++ bs))) ∧
      front.length + (trim space text).length + gap.length = text.length := by
  have hlen := Buffer.strlen_append hcells htext
  by_cases hempty : text = []
  · subst hempty
    refine ⟨b, [], [], ?_, rfl, by simpa [trim] using hcells, by simp [trim]⟩
    simp only [Buffer.strim, hlen, bind, Except.bind]
    rfl
  · let kept := text.rdropWhile space
    let blank := text.rtakeWhile space
    let front := kept.takeWhile space
    have hsplit : kept ++ blank = text := List.rdropWhile_append_rtakeWhile
    have hkeep : front ++ trim space text = kept := List.takeWhile_append_dropWhile
    have hblank : ∀ a ∈ blank, space a = true := fun a ha => List.mem_rtakeWhile_imp ha
    have hback : Buffer.trimEnd space b pre.length text.length = .ok kept.length := by
      rw [← hsplit, List.append_assoc] at hcells
      rw [← hsplit, List.length_append]
      exact Buffer.trimEnd_append (List.rdropWhile_last_not _ _) hblank hcells
    -- the cell that takes the zero, and what stays between it and the end of the string
    obtain ⟨y, gap, hgap, hgaplen⟩ :
        ∃ y gap, blank ++ 0 :: bs = y :: (gap ++ bs) ∧ gap.length = blank.length := by
      cases blank with
      | nil => exact ⟨0, [], rfl, rfl⟩
      | cons y ys => exact ⟨y, ys ++ [0], by simp, by simp⟩
    have hcells₀ : b.cells = (pre ++ kept) ++ y :: (gap ++ bs) := by
      rw [hcells, ← hsplit, ← hgap]
      simp
    obtain ⟨b', hstore, hsize, hcells'⟩ := Buffer.store_append hcells₀ 0
    have hfinal : b'.cells = pre ++ (front ++ (trim space text ++ 0 :: (gap ++ bs))) := by
      rw [hcells', ← hkeep]
      simp
    have hskip : Buffer.skipSpaces space b' pre.length = .ok (pre.length + front.length) := by
      have hfront : ∀ a ∈ front, (!space a) = false := fun a ha => by
        simpa using List.mem_takeWhile_imp ha
      have hhead := List.head?_dropWhile_not space kept
      cases htrim : trim space text with
      | nil =>
        rw [htrim] at hfinal
        exact Buffer.scan_append _ hfinal hfront (by simpa using hzero)
      | cons z zs =>
        rw [htrim, List.cons_append] at hfinal
        have hz : space z = false := by
          have hdrop : kept.dropWhile space = z :: zs := htrim
          simpa [hdrop] using hhead
        exact Buffer.scan_append _ hfinal hfront (by simpa using hz)
    refine ⟨b', front, gap, ?_, hsize, hfinal, ?_⟩
    · rw [List.length_append] at hstore
      have hne : text.length ≠ 0 := by simpa using hempty
      simp only [Buffer.strim, hlen, bind, Except.bind, if_neg hne, hback, hstore, hskip]
    · have hkeptlen := congrArg List.length hkeep
      have hsplitlen := congrArg List.length hsplit
      rw [List.length_append] at hkeptlen hsplitlen
      omega

end Rules

end BlkdevSnapshot.CheckedBuffer

import BlkdevSnapshot.MakeSingleFileFs

/-!
# The tool that writes to the file

The program of the demo that puts a text at an offset of the file, with as many calls of
`write` as it takes. On a bounded file its result is that of one overwrite, even where
`copy_from_user` leaves zeros behind: the next call writes over them.
-/
namespace BlkdevSnapshot

/-- How the program ends, if it does. -/
inductive ToolEnd where
  | exit (status : ℕ)
  | blocked
  | running
  deriving DecidableEq

section Tool
variable {ρ ω : Type*}

/-- The loop of `main` from `redo` on. `io i` is what its `i`-th call meets. -/
def redo (fd : ℕ) (io : ℕ → ω) : ℕ → ℕ → Bytes → Client (FileCall ρ ω) FileAnswer ToolEnd
  | 0, _, _ => .ret .running
  | fuel + 1, i, p => .call (.write fd p (io i)) fun
    | .count n => if 0 < p.length - n then redo fd io fuel (i + 1) (p.drop n) else .ret (.exit 0)
    | .error _ => .ret (.exit 1)
    | _ => .ret .blocked

/-- Whether the result of `lseek` is -1 in an `int`. The C library also makes -1 of the last
4095 values. -/
def seekFailed (off : UInt64) : Bool :=
  off.toNat % 2 ^ 32 = 2 ^ 32 - 1 || 2 ^ 64 - 4095 ≤ off.toNat

/-- `main` of `user` behind the test of `argc` and `strtol`, with the descriptor that `open`
returns. -/
def writeToolMain (fd : ℕ) (openIo : LookupIo) (io : ℕ → ω) (fuel : ℕ) (text : Bytes)
    (off : UInt64) : Client (FileCall ρ ω) FileAnswer ToolEnd :=
  .call (.openFile fd openIo) fun
    | .done => .call (.lseek fd off seekSet) fun
      | .offset off => if seekFailed off then .ret (.exit 1) else redo fd io fuel 0 text
      | .error _ => .ret (.exit 1)
      | _ => .ret .blocked
    | .error _ => .ret (.exit 1)
    | _ => .ret .blocked

end Tool

/-! ## One write -/

/-- All block reads succeed and the whole buffer is copied. -/
structure WriteIo.Healthy (io : WriteIo) : Prop where
  sbBread : io.sbBread = true
  bread : io.bread = true
  inodeBread : io.inodeBread = true
  left : io.left = 0

namespace BoundedFile

/-- What a write that returns a count has done. -/
theorem writeAtOff_wrote {M : ℕ} {f f' : BoundedFile} {io : WriteIo} {off n : ℕ} {buf : Bytes}
    (hoff : off ≤ f.content.length) (h : f.writeAtOff M io off buf = (f', .wrote n)) :
    ∃ pad, n + pad ≤ buf.length ∧ f'.content = put f.content off (buf.take n) pad ∧
      (f.durable = f.content.length → f'.durable = f'.content.length) := by
  have hspan := span_le singlefilefsBlockSize off buf.length
  set len := span singlefilefsBlockSize off buf.length with hlen
  have hbytes : (buf.take (len - io.left)).length = len - io.left := by
    rw [List.length_take]
    omega
  have hput := put_length (buf.take (len - io.left)) (len - (len - io.left)) hoff
  rw [hbytes] at hput
  simp only [writeAtOff, ← hlen] at h
  split_ifs at h with hsb hlimit hbehind hblock hgrow hinode
  · simp at h
  · simp at h
  · omega
  · simp at h
  · obtain ⟨rfl, hn⟩ := Prod.mk.inj h
    obtain rfl := WriteEnd.wrote.inj hn
    refine ⟨len - (len - io.left), by omega, rfl, fun _ => ?_⟩
    show off + (len - io.left) = (put _ _ _ _).length
    rw [hput]
    omega
  · simp at h
  · obtain ⟨rfl, hn⟩ := Prod.mk.inj h
    obtain rfl := WriteEnd.wrote.inj hn
    refine ⟨len - (len - io.left), by omega, rfl, fun hdurable => ?_⟩
    show f.durable = (put _ _ _ _).length
    rw [hput, hdurable]
    omega

/-- A healthy write before the limit moves something. -/
theorem writeAtOff_healthy {M : ℕ} {f : BoundedFile} {io : WriteIo} {off : ℕ} (buf : Bytes)
    (hio : io.Healthy) (hoff : off ≤ f.content.length) (hlimit : off < M * singlefilefsBlockSize) :
    ∃ f', f.writeAtOff M io off buf =
      (f', .wrote (span singlefilefsBlockSize off buf.length)) := by
  obtain ⟨hsb, hbread, hinode, hleft⟩ := hio
  have hne : off ≠ M * singlefilefsBlockSize := hlimit.ne
  simp only [writeAtOff, hsb, hbread, hinode, hleft, Bool.not_true, Bool.false_eq_true, if_false,
    if_neg hlimit.not_gt, if_neg hoff.not_gt, hne, decide_false, Bool.or_false, Nat.sub_zero,
    if_true]
  split
  · exact ⟨_, rfl⟩
  · exact ⟨_, rfl⟩

end BoundedFile

/-! ## The loop -/

section Loop
variable {M fd : ℕ} {v v' : Vfs BoundedFile} {pos : UInt64}

/-- A `write` at a position in the file that returns a count. -/
theorem write_count {p : Bytes} {io : WriteIo} {n : ℕ} (hpos : v.files fd = some pos)
    (hoff : pos.toNat ≤ v.file.content.length)
    (h : v.write (BoundedFile.store M) fd p io = (v', .count n)) :
    ∃ pad, n + pad ≤ p.length ∧
      v'.file.content = BoundedFile.put v.file.content pos.toNat (p.take n) pad ∧
      (v.file.durable = v.file.content.length → v'.file.durable = v'.file.content.length) ∧
      ∃ pos', v'.files fd = some pos' ∧ pos'.toNat = pos.toNat + n := by
  simp only [Vfs.write, hpos] at h
  split_ifs at h with harea hlocked
  · simp at h
  · simp at h
  · have hlt := Vfs.lt_of_not_areaRefused harea
    generalize hx : (BoundedFile.store M).write v.file io pos (p.take maxRwCount) = x at h
    obtain ⟨f', e⟩ := x
    cases e with
    | hang => simp at h
    | error e => simp at h
    | wrote k =>
      obtain ⟨rfl, hk⟩ := Prod.mk.inj h
      obtain rfl := FileAnswer.count.inj hk
      obtain ⟨pad, hpad, hcontent, hclean⟩ := BoundedFile.writeAtOff_wrote hoff hx
      have hlen : (p.take maxRwCount).length ≤ maxRwCount := List.length_take_le _ _
      have hle : (p.take maxRwCount).length ≤ p.length := List.length_take_le' _ _
      have hmax : maxRwCount < 2 ^ 32 := by decide
      rw [List.take_take, min_eq_left (by omega)] at hcontent
      refine ⟨pad, by omega, hcontent, hclean, pos + UInt64.ofNat k, ?_, ?_⟩
      · exact Function.update_self _ _ _
      · rw [UInt64.toNat_add, UInt64.toNat_ofNat']
        omega

/-- A loop that exits with zero has overwritten the file from its position on. -/
theorem redo_exit {io : ℕ → WriteIo} {fuel i : ℕ} {p : Bytes} (hpos : v.files fd = some pos)
    (hoff : pos.toNat ≤ v.file.content.length)
    (h : (BoundedFile.store M).machine.runClient v (redo fd io fuel i p) = (v', .exit 0)) :
    v'.file.content = overwrite v.file.content pos.toNat p ∧
      (v.file.durable = v.file.content.length → v'.file.durable = v'.file.content.length) := by
  induction fuel generalizing v pos i p with
  | zero =>
    have hend := congrArg Prod.snd h
    simp [redo, AnsweringMachine.runClient] at hend
  | succ fuel ih =>
    simp only [redo, AnsweringMachine.runClient] at h
    generalize hx : (BoundedFile.store M).machine.serve v (.write fd p (io i)) = x at h
    obtain ⟨w, ans⟩ := x
    cases ans with
    | count n =>
      obtain ⟨pad, hpad, hcontent, hclean, pos', hpos', hnext⟩ := write_count hpos hoff hx
      have hbytes : (p.take n).length = n := by
        rw [List.length_take]
        omega
      have hrest : (p.drop n).length = p.length - n := List.length_drop
      have hput := BoundedFile.overwrite_put (p.take n) hoff
        (by omega : pad ≤ (p.drop n).length)
      rw [hbytes, List.take_append_drop, ← hcontent] at hput
      simp only at h
      split_ifs at h with hmore
      · have hlen : pos'.toNat ≤ w.file.content.length := by
          rw [hcontent, BoundedFile.put_length _ _ hoff, hbytes, hnext]
          exact le_max_right _ _
        obtain ⟨hfinal, hclean'⟩ := ih hpos' hlen h
        rw [hfinal, hnext, hput]
        exact ⟨rfl, fun hdurable => by
          have h' := hclean' (hclean hdurable)
          rwa [hfinal, hnext, hput] at h'⟩
      · have hdone : p.drop n = [] := List.drop_of_length_le (by omega)
        rw [hdone, overwrite_nil] at hput
        obtain rfl : w = v' := congrArg Prod.fst h
        exact ⟨hput, hclean⟩
    | _ => simp [AnsweringMachine.runClient] at h

/-- A healthy `write` before the limit returns what fits in its block. -/
theorem write_healthy {p : Bytes} {io : WriteIo} (hio : io.Healthy) (hpos : v.files fd = some pos)
    (hlocked : v.locked = false) (hoff : pos.toNat ≤ v.file.content.length)
    (hint : M + 2 ≤ 2 ^ 31) (hp : p ≠ [])
    (hfit : pos.toNat + p.length ≤ M * singlefilefsBlockSize) :
    ∃ v', v.write (BoundedFile.store M) fd p io = (v', .count (BoundedFile.span
        singlefilefsBlockSize pos.toNat (p.take maxRwCount).length)) ∧ v'.locked = false := by
  have hlen := List.length_pos_iff.mpr hp
  have hlimit : pos.toNat < M * singlefilefsBlockSize := by omega
  have harea : ¬ Vfs.AreaRefused pos p.length := by
    simp only [singlefilefsBlockSize] at hfit
    unfold Vfs.AreaRefused
    omega
  obtain ⟨f', hwrite⟩ := BoundedFile.writeAtOff_healthy (p.take maxRwCount) hio hoff hlimit
  have hstore : (BoundedFile.store M).write v.file io pos (p.take maxRwCount) =
      (f', .wrote (BoundedFile.span singlefilefsBlockSize pos.toNat
        (p.take maxRwCount).length)) := hwrite
  simp only [Vfs.write, hpos, if_neg harea, hlocked, Bool.false_eq_true, if_false, hstore]
  exact ⟨_, rfl, rfl⟩

/-- A healthy loop that stays before the limit exits with zero, after at most as many calls
as there are bytes. -/
theorem redo_healthy {io : ℕ → WriteIo} (hio : ∀ i, (io i).Healthy) (hint : M + 2 ≤ 2 ^ 31)
    {fuel i : ℕ} {p : Bytes} (hp : p ≠ []) (hfuel : p.length ≤ fuel)
    (hpos : v.files fd = some pos) (hlocked : v.locked = false)
    (hoff : pos.toNat ≤ v.file.content.length)
    (hfit : pos.toNat + p.length ≤ M * singlefilefsBlockSize) :
    ((BoundedFile.store M).machine.runClient v (redo fd io fuel i p)).2 = .exit 0 := by
  have hlen := List.length_pos_iff.mpr hp
  induction fuel generalizing v pos i p with
  | zero => omega
  | succ fuel ih =>
    obtain ⟨w, hwrite, hunlocked⟩ :=
      write_healthy (hio i) hpos hlocked hoff hint hp hfit
    have hstep : 0 < BoundedFile.span singlefilefsBlockSize pos.toNat
        (p.take maxRwCount).length := by
      have hmod := Nat.mod_lt pos.toNat singlefilefsBlockSize_pos
      simp only [BoundedFile.span, List.length_take, maxRwCount]
      omega
    set n := BoundedFile.span singlefilefsBlockSize pos.toNat (p.take maxRwCount).length
    obtain ⟨pad, hpad, hcontent, -, pos', hpos', hnext⟩ := write_count hpos hoff hwrite
    have hserve : (BoundedFile.store M).machine.serve v (.write fd p (io i)) =
        (w, .count n) := hwrite
    simp only [redo, AnsweringMachine.runClient, hserve]
    split_ifs with hmore
    · have hrest : (p.drop n).length = p.length - n := List.length_drop
      have hbytes : (p.take n).length = n := by
        rw [List.length_take]
        omega
      refine ih (List.ne_nil_of_length_pos (by omega)) (by omega) hpos' hunlocked ?_ (by omega)
        (by omega)
      rw [hcontent, BoundedFile.put_length _ _ hoff, hbytes, hnext]
      exact le_max_right _ _
    · rfl

end Loop

/-! ## The whole program -/

section Main
variable {M fd : ℕ} {v w : Vfs BoundedFile} {off : UInt64}

/-- A file that is durable to its end is opened as it is. -/
theorem openFile_done {io : LookupIo} (hclean : v.file.durable = v.file.content.length)
    (h : v.openFile (BoundedFile.store M) fd io = (w, .done)) :
    w.file = v.file ∧ w.files fd = some 0 ∧ w.locked = v.locked := by
  have hload : (⟨v.file.content.take v.file.durable, v.file.durable⟩ : BoundedFile) = v.file := by
    rw [List.take_of_length_le hclean.ge]
  simp only [Vfs.openFile] at h
  split at h
  · obtain ⟨rfl, -⟩ := Prod.mk.inj h
    exact ⟨rfl, Function.update_self _ _ _, rfl⟩
  · simp at h
  · simp only [BoundedFile.store] at h
    split_ifs at h with higet hbread
    · simp at h
    · simp at h
    · obtain ⟨rfl, -⟩ := Prod.mk.inj h
      exact ⟨hload, Function.update_self _ _ _, rfl⟩

/-- A position that `lseek` accepts is not behind the end, if it is not negative. -/
theorem lseek_offset {off' : UInt64} (hsize : v.file.content.length < 2 ^ 63)
    (h : v.lseek (BoundedFile.store M) fd off seekSet = (w, .offset off')) :
    off' = off ∧ w.file = v.file ∧ w.files fd = some off ∧
      (off.toNat < 2 ^ 63 → off.toNat ≤ v.file.content.length) := by
  unfold Vfs.lseek at h
  split at h
  · simp at h
  · simp only [FileStore.llseek] at h
    split_ifs at h with hmax hlocked hrefused
    · simp at h
    · simp at h
    · simp at h
    · obtain ⟨rfl, hoff⟩ := Prod.mk.inj h
      obtain rfl := FileAnswer.offset.inj hoff
      refine ⟨rfl, rfl, Function.update_self _ _ _, fun hpos => ?_⟩
      rw [not_or] at hrefused
      have hend : ¬ loff (UInt64.ofNat v.file.content.length) < loff off := hrefused.1
      have hlen : (UInt64.ofNat v.file.content.length).toNat = v.file.content.length := by
        rw [UInt64.toNat_ofNat', Nat.mod_eq_of_lt (by omega)]
      rw [loff_of_lt hpos, loff_of_lt (by omega), hlen] at hend
      omega

/-- A loop at a negative position fails. -/
theorem redo_negative {io : ℕ → WriteIo} {fuel i : ℕ} {p : Bytes} (hpos : v.files fd = some off)
    (hneg : ¬ off.toNat < 2 ^ 63) :
    ((BoundedFile.store M).machine.runClient v (redo fd io fuel i p)).2 ≠ .exit 0 := by
  cases fuel with
  | zero => simp [redo, AnsweringMachine.runClient]
  | succ fuel =>
    have harea : Vfs.AreaRefused off p.length := by
      unfold Vfs.AreaRefused
      omega
    have hserve : (BoundedFile.store M).machine.serve v (.write fd p (io i)) =
        (v, .error einval) := by
      show v.write _ _ _ _ = _
      simp only [Vfs.write, hpos, if_pos harea]
    simp [redo, AnsweringMachine.runClient, hserve]

theorem writeToolMain_content {openIo : LookupIo} {io : ℕ → WriteIo} {fuel : ℕ} {text : Bytes}
    (hclean : v.file.durable = v.file.content.length) (hsize : v.file.content.length < 2 ^ 63)
    (h : (BoundedFile.store M).machine.runClient v (writeToolMain fd openIo io fuel text off) =
      (w, .exit 0)) :
    w.file.content = overwrite v.file.content off.toNat text ∧
      w.file.durable = w.file.content.length := by
  simp only [writeToolMain, AnsweringMachine.runClient] at h
  generalize hopen : (BoundedFile.store M).machine.serve v (.openFile fd openIo) = x at h
  obtain ⟨v₁, ans⟩ := x
  cases ans with
  | done =>
    obtain ⟨hfile₁, -, -⟩ := openFile_done hclean hopen
    simp only [AnsweringMachine.runClient] at h
    generalize hseek : (BoundedFile.store M).machine.serve v₁ (.lseek fd off seekSet) = y at h
    obtain ⟨v₂, ans⟩ := y
    cases ans with
    | offset off' =>
      obtain ⟨rfl, hfile₂, hpos, hend⟩ := lseek_offset (by rwa [hfile₁]) hseek
      simp only at h
      split at h
      · simp [AnsweringMachine.runClient] at h
      · by_cases hneg : off'.toNat < 2 ^ 63
        · have hoff : off'.toNat ≤ v₂.file.content.length := by
            rw [hfile₂]
            exact hend hneg
          obtain ⟨hcontent, hdurable⟩ := redo_exit hpos hoff h
          rw [hfile₂, hfile₁] at hcontent hdurable
          exact ⟨hcontent, hdurable hclean⟩
        · exact absurd (congrArg Prod.snd h) (redo_negative hpos hneg)
    | _ => simp [AnsweringMachine.runClient] at h
  | _ => simp [AnsweringMachine.runClient] at h

/-- What the program needs for success: a file whose inode is not stuck and whose lock is free,
block reads and copies that succeed, and a text that starts in the file and ends before the
limit. -/
structure ToolHealthy {φ : Type*} (M : ℕ) (v : Vfs φ) (size : ℕ) (openIo : LookupIo)
    (io : ℕ → WriteIo) (fuel : ℕ) (text : Bytes) (off : UInt64) : Prop where
  inode : v.inode ≠ .isNew
  unlocked : v.locked = false
  iget : openIo.iget = true
  bread : openIo.bread = true
  writes : ∀ i, (io i).Healthy
  nonempty : text ≠ []
  start : off.toNat ≤ size
  fits : off.toNat + text.length ≤ M * singlefilefsBlockSize
  seek : seekFailed off = false
  fuel : text.length ≤ fuel

theorem openFile_healthy (M fd : ℕ) {io : LookupIo}
    (hinode : v.inode ≠ .isNew) (higet : io.iget = true) (hbread : io.bread = true) :
    ∃ w, v.openFile (BoundedFile.store M) fd io = (w, .done) := by
  unfold Vfs.openFile
  simp only
  cases hcache : v.inode with
  | absent => simp [BoundedFile.store, higet, hbread]
  | isNew => exact absurd hcache hinode
  | ready => exact ⟨_, rfl⟩

theorem lseek_healthy {pos : UInt64} (hpos : v.files fd = some pos) (hlocked : v.locked = false)
    (hsize : v.file.content.length < 2 ^ 63) (hoff : off.toNat ≤ v.file.content.length) :
    ∃ w, v.lseek (BoundedFile.store M) fd off seekSet = (w, .offset off) ∧ w.locked = false := by
  have hlen : (UInt64.ofNat v.file.content.length).toNat = v.file.content.length := by
    rw [UInt64.toNat_ofNat', Nat.mod_eq_of_lt (by omega)]
  have hend : ¬ loff (UInt64.ofNat v.file.content.length) < loff off := by
    rw [loff_of_lt (by omega), loff_of_lt (by omega), hlen]
    omega
  have haccept : ¬ (loff ((BoundedFile.store M).iSize v.file) < loff off ∨ seekSet ≠ seekSet) :=
    not_or.mpr ⟨hend, not_not.mpr rfl⟩
  have hmax : ¬ seekMax < seekSet := by decide
  simp only [Vfs.lseek, FileStore.llseek, hpos, hlocked, Bool.false_eq_true, if_false, if_neg hmax,
    if_neg haccept]
  exact ⟨_, rfl, rfl⟩

theorem writeToolMain_healthy {openIo : LookupIo} {io : ℕ → WriteIo} {fuel : ℕ} {text : Bytes}
    (hint : M + 2 ≤ 2 ^ 31) (hclean : v.file.durable = v.file.content.length)
    (hsize : v.file.content.length < 2 ^ 63)
    (h : ToolHealthy M v v.file.content.length openIo io fuel text off) :
    ((BoundedFile.store M).machine.runClient v
      (writeToolMain fd openIo io fuel text off)).2 = .exit 0 := by
  obtain ⟨v₁, hopen⟩ := openFile_healthy M fd h.inode h.iget h.bread
  obtain ⟨hfile₁, hpos₁, hlocked₁⟩ := openFile_done hclean hopen
  obtain ⟨v₂, hseek, hlocked₂⟩ := lseek_healthy (M := M) hpos₁ (hlocked₁.trans h.unlocked)
    (by rwa [hfile₁]) (by rw [hfile₁]; exact h.start)
  obtain ⟨-, hfile₂, hpos₂, -⟩ := lseek_offset (by rwa [hfile₁]) hseek
  have hserve₁ : (BoundedFile.store M).machine.serve v (.openFile fd openIo) = (v₁, .done) := hopen
  have hserve₂ : (BoundedFile.store M).machine.serve v₁ (.lseek fd off seekSet) =
      (v₂, .offset off) := hseek
  simp only [writeToolMain, AnsweringMachine.runClient, hserve₁, hserve₂, h.seek,
    Bool.false_eq_true, if_false]
  refine redo_healthy h.writes hint h.nonempty h.fuel hpos₂ hlocked₂ ?_ h.fits
  rw [hfile₂, hfile₁]
  exact h.start

end Main

/-- On a device that holds a file, the program exits with zero only when the file is the old one
with the text over it, with all of it durable, whatever the block reads and the copies return.
It does exit with zero when these succeed and the text fits. -/
theorem writeTool_correct (bdev : UInt32) {M : ℕ} (v : Vfs (OneFile (M + 2))) (f : BoundedFile)
    (h : v.file.Holds f) (hclean : f.durable = f.content.length) (fd : ℕ) (openIo : LookupIo)
    (io : ℕ → WriteIo) (fuel : ℕ) (text : Bytes) (off : UInt64) :
    let r := (OneFile.store bdev (M + 2)).machine.runClient v
      (writeToolMain fd openIo io fuel text off)
    (r.2 = .exit 0 → ∃ f', r.1.file.Holds f' ∧
      f'.content = overwrite f.content off.toNat text ∧ f'.durable = f'.content.length) ∧
    (ToolHealthy M v f.content.length openIo io fuel text off → r.2 = .exit 0) := by
  intro r
  have hlimit := h.limit_lt
  have hsize : f.content.length < 2 ^ 63 := by
    have hle := h.size_le
    omega
  set w : Vfs BoundedFile := ⟨f, v.inode, v.locked, v.files⟩ with hw
  have hrelated : Vfs.Related OneFile.Holds v w := ⟨h, rfl, rfl, rfl⟩
  obtain ⟨hend, hkeeps⟩ := (OneFile.store_simulates bdev M).machine.runClient hrelated
    (writeToolMain fd openIo io fuel text off)
  constructor
  · intro hexit
    have hrun : (BoundedFile.store M).machine.runClient w
        (writeToolMain fd openIo io fuel text off) = (_, .exit 0) :=
      Prod.ext rfl (hend.symm.trans hexit)
    obtain ⟨hcontent, hdurable⟩ := writeToolMain_content (v := w) hclean hsize hrun
    exact ⟨_, hkeeps.file, hcontent, hdurable⟩
  · intro hhealthy
    refine hend.trans (writeToolMain_healthy (v := w) h.intBlocks hclean hsize ?_)
    exact ⟨hhealthy.inode, hhealthy.unlocked, hhealthy.iget, hhealthy.bread, hhealthy.writes,
      hhealthy.nonempty, hhealthy.start, hhealthy.fits, hhealthy.seek, hhealthy.fuel⟩

/-- Three bytes behind the first content. -/
theorem writeTool_correct_appended :
    let v : Vfs (OneFile (1 + 2)) := ⟨⟨newDevice, 33⟩, .absent, false, fun _ => none⟩
    let io : WriteIo := ⟨true, true, true, 0, []⟩
    ∃ f', ((OneFile.store 0x700000 (1 + 2)).machine.runClient v
        (writeToolMain 3 ⟨true, true⟩ (fun _ => io) 3 [97, 98, 99] 33)).1.file.Holds f' ∧
      f'.content = overwrite fileBody (UInt64.toNat 33) [97, 98, 99] ∧
      f'.durable = f'.content.length := by
  intro v io
  have hhealthy : ToolHealthy 1 v fileBody.length ⟨true, true⟩ (fun _ => io) 3 [97, 98, 99] 33 :=
    ⟨by decide, rfl, rfl, rfl, fun _ => ⟨rfl, rfl, rfl, rfl⟩, by decide, by decide, by decide,
      by decide, by decide⟩
  have h := writeTool_correct 0x700000 v ⟨fileBody, fileBody.length⟩ newDevice_holds rfl 3
    ⟨true, true⟩ (fun _ => io) 3 [97, 98, 99] 33
  exact h.1 (h.2 hhealthy)

end BlkdevSnapshot

import BlkdevSnapshot.CaptureTable
import Mathlib.Data.List.Range

/-!
# The windows of the periodic sweep

Every run of `periodic_taskcheck_xkpblocks_ht` examines the buckets of a window and moves
the cursor. Between two runs threads come and go, and nodes are inserted and removed at
will. The number of buckets is a parameter; where the windows lie depends on it alone.
-/
namespace BlkdevSnapshot

/-- `__do_taskcheck_on` in a process table. -/
def doTaskcheckOn (pids : UInt64 → Option Task) (key : XkpblocksKey) : Bool :=
  match pids key.tid with
  | none => false
  | some p => if p.tstart ≠ key.tstart ∨ p.exited = true then false else true

theorem CaptureState.doTaskcheckOn_eq (s : CaptureState) (key : XkpblocksKey) :
    s.doTaskcheckOn key = BlkdevSnapshot.doTaskcheckOn s.pids key := rfl

section Windows
variable (size : ℕ) (nextBktnr : UInt32)

/-- `end`; the sum is one of `u32`. -/
def sweepStop : ℕ := min (nextBktnr + 50).toNat size

/-- The buckets that a run examines. -/
def sweepWindow : List ℕ :=
  List.range' nextBktnr.toNat (sweepStop size nextBktnr - nextBktnr.toNat)

/-- `next_bktnr` after a run. -/
def sweepNext : UInt32 :=
  if sweepStop size nextBktnr < size then
    nextBktnr + UInt32.ofNat (sweepStop size nextBktnr)
  else 0

/-- `next_bktnr` before run `n`. -/
def cursorAt : ℕ → UInt32
  | 0 => nextBktnr
  | n + 1 => sweepNext size (cursorAt n)

end Windows

/-- The inner loop over one chain. -/
def sweepChain (pids : UInt64 → Option Task) (T : ChainedTable XkpblocksKey) (bktnr : ℕ) :
    ChainedTable XkpblocksKey :=
  (T.chains bktnr).foldl
    (fun T cur => if !doTaskcheckOn pids cur.key then T.unlink cur.addr else T) T

/-- The processes, the table and the cursor between two runs. -/
structure SweepState where
  pids : UInt64 → Option Task
  table : ChainedTable XkpblocksKey
  nextBktnr : UInt32

/-- What happens to the table: other threads' doings, and a run of the sweep. -/
inductive SweepAct where
  | tasks (pids : UInt64 → Option Task)
  | insert (key : XkpblocksKey)
  | unlink (addr : ℕ)
  | periodic

def SweepAct.isPeriodic : SweepAct → Bool
  | periodic => true
  | _ => false

namespace SweepState
variable {size : ℕ} (hash : XkpblocksKey → Fin size)

/-- `periodic_taskcheck_xkpblocks_ht` -/
def periodicTaskcheck (size : ℕ) (s : SweepState) : SweepState where
  pids := s.pids
  table := (sweepWindow size s.nextBktnr).foldl (sweepChain s.pids) s.table
  nextBktnr := sweepNext size s.nextBktnr

/-- Nodes are in the chains of their keys, at addresses of their own. -/
structure Linked (hash : XkpblocksKey → Fin size) (T : ChainedTable XkpblocksKey) : Prop where
  hashed : ∀ b, ∀ e ∈ T.chains b, (hash e.key : ℕ) = b
  addrs : ∀ e ∈ T, ∀ e' ∈ T, e.addr = e'.addr → e = e'
  fresh : ∀ e ∈ T, e.addr < T.nextAddr

end SweepState

/-- All sequences of runs and of doings of other threads, from any table. -/
def sweepMachine {size : ℕ} (hash : XkpblocksKey → Fin size) : Machine SweepState SweepAct where
  init s := SweepState.Linked hash s.table ∧ s.nextBktnr = 0
  step
    | s, .tasks pids => some { s with pids := pids }
    | s, .insert key => some { s with table := s.table.insert (fun key => hash key) key }
    | s, .unlink addr => some { s with table := s.table.unlink addr }
    | s, .periodic => some (s.periodicTaskcheck size)

/-- In a table of `size` buckets, `runs` runs are a full sweep. -/
structure SweepsWhole (size runs : ℕ) : Prop where
  pos : 0 < runs
  /-- The last of the runs resets the cursor, and no earlier one does. -/
  resets : cursorAt size 0 runs = 0
  first : ∀ n, 0 < n → n < runs → cursorAt size 0 n ≠ 0
  /-- Every bucket is examined exactly once. -/
  examines :
    ((List.range runs).flatMap fun n => sweepWindow size (cursorAt size 0 n)).Perm
      (List.range size)
  repeats : ∀ n, cursorAt size 0 (n + runs) = cursorAt size 0 n
  /-- A node whose thread stays dead is gone after the runs. -/
  removesDead : ∀ hash : XkpblocksKey → Fin size, ∀ s acts s',
    (sweepMachine hash).init s → acts.countP SweepAct.isPeriodic = runs →
    (sweepMachine hash).run s acts = some s' → ∀ e ∈ s.table,
    (sweepMachine hash).Throughout (fun t => doTaskcheckOn t.pids e.key = false) s acts →
    e ∉ s'.table
  /-- No run removes a node of a living thread. -/
  keepsLiving : ∀ hash : XkpblocksKey → Fin size, ∀ s s', (sweepMachine hash).init s → ∀ acts t,
    (sweepMachine hash).run s acts = some t → (sweepMachine hash).step t .periodic = some s' →
    ∀ e ∈ t.table, doTaskcheckOn t.pids e.key = true → e ∈ s'.table

namespace SweepState
variable {size : ℕ} {hash : XkpblocksKey → Fin size} {T : ChainedTable XkpblocksKey}
variable {s s' : SweepState}

theorem Linked.mem_chain {e : Entry XkpblocksKey} (h : Linked hash T) (he : e ∈ T) :
    e ∈ T.chains (hash e.key) := by
  obtain ⟨b, hb⟩ := he
  exact (h.hashed b e hb).symm ▸ hb

theorem Linked.unlink (h : Linked hash T) (addr : ℕ) : Linked hash (T.unlink addr) where
  hashed b e he := h.hashed b e (List.mem_of_mem_filter he)
  addrs e he e' he' :=
    h.addrs e (ChainedTable.mem_unlink.mp he).1 e' (ChainedTable.mem_unlink.mp he').1
  fresh e he := h.fresh e (ChainedTable.mem_unlink.mp he).1

theorem Linked.insert (h : Linked hash T) (key : XkpblocksKey) :
    Linked hash (T.insert (fun key => hash key) key) where
  hashed b e hb := by
    by_cases hk : b = (hash key : ℕ)
    · subst hk
      simp only [ChainedTable.insert, Function.update_self, List.mem_cons] at hb
      rcases hb with rfl | hb
      · rfl
      · exact h.hashed _ e hb
    · simp only [ChainedTable.insert, Function.update_of_ne hk] at hb
      exact h.hashed b e hb
  addrs e he e' he' haddr := by
    rcases ChainedTable.mem_insert.mp he with rfl | he
    · rcases ChainedTable.mem_insert.mp he' with rfl | he'
      · rfl
      · exact absurd haddr.symm (Nat.ne_of_lt (h.fresh e' he'))
    · rcases ChainedTable.mem_insert.mp he' with rfl | he'
      · exact absurd haddr (Nat.ne_of_lt (h.fresh e he))
      · exact h.addrs e he e' he' haddr
  fresh e he := by
    rcases ChainedTable.mem_insert.mp he with rfl | he
    · exact Nat.lt_succ_self _
    · exact Nat.lt_trans (h.fresh e he) (Nat.lt_succ_self _)

section Loops
variable (pids : UInt64 → Option Task) (e : Entry XkpblocksKey)

/-- The inner loop unlinks the nodes of dead threads among those it goes over. -/
theorem mem_foldl_unlink (L : List (Entry XkpblocksKey)) (h : Linked hash T) :
    Linked hash (L.foldl
      (fun T cur => if !doTaskcheckOn pids cur.key then T.unlink cur.addr else T) T) ∧
    (L.foldl (fun T cur => if !doTaskcheckOn pids cur.key then T.unlink cur.addr else T)
      T).nextAddr = T.nextAddr ∧
    (e ∈ L.foldl (fun T cur => if !doTaskcheckOn pids cur.key then T.unlink cur.addr else T) T ↔
      e ∈ T ∧ ∀ cur ∈ L, doTaskcheckOn pids cur.key = false → e.addr ≠ cur.addr) := by
  induction L generalizing T with
  | nil => exact ⟨h, rfl, by simp⟩
  | cons cur L ih =>
    rw [List.foldl_cons]
    cases hcheck : doTaskcheckOn pids cur.key with
    | true =>
      obtain ⟨hlinked, hnext, hmem⟩ := ih h
      simp only [Bool.not_true, Bool.false_eq_true, if_false]
      refine ⟨hlinked, hnext, hmem.trans ?_⟩
      simp [hcheck]
    | false =>
      obtain ⟨hlinked, hnext, hmem⟩ := ih (h.unlink cur.addr)
      simp only [Bool.not_false, if_true]
      refine ⟨hlinked, hnext, hmem.trans ?_⟩
      rw [ChainedTable.mem_unlink, List.forall_mem_cons, and_assoc]
      simp [hcheck]

/-- One bucket loses exactly the nodes of dead threads. -/
theorem mem_sweepChain (h : Linked hash T) (b : ℕ) :
    Linked hash (sweepChain pids T b) ∧ (sweepChain pids T b).nextAddr = T.nextAddr ∧
    (e ∈ sweepChain pids T b ↔
      e ∈ T ∧ ((hash e.key : ℕ) = b → doTaskcheckOn pids e.key = true)) := by
  obtain ⟨hlinked, hnext, hmem⟩ := mem_foldl_unlink pids e (T.chains b) h
  refine ⟨hlinked, hnext, hmem.trans (and_congr_right fun he => ⟨?_, ?_⟩)⟩
  · intro hleft hb
    by_contra hdead
    exact hleft e (hb ▸ h.mem_chain he) (Bool.eq_false_iff.mpr hdead) rfl
  · intro hlive cur hcur hdead haddr
    obtain rfl := h.addrs e he cur ⟨b, hcur⟩ haddr
    rw [hlive (h.hashed b e hcur)] at hdead
    cases hdead

/-- A run removes exactly the nodes of dead threads in its window. -/
theorem mem_sweepChains (bs : List ℕ) (h : Linked hash T) :
    Linked hash (bs.foldl (sweepChain pids) T) ∧
    (bs.foldl (sweepChain pids) T).nextAddr = T.nextAddr ∧
    (e ∈ bs.foldl (sweepChain pids) T ↔
      e ∈ T ∧ ((hash e.key : ℕ) ∈ bs → doTaskcheckOn pids e.key = true)) := by
  induction bs generalizing T with
  | nil => exact ⟨h, rfl, by simp⟩
  | cons b bs ih =>
    rw [List.foldl_cons]
    obtain ⟨hchain, hnext, hmem⟩ := mem_sweepChain pids e h b
    obtain ⟨hlinked, hnext', hmem'⟩ := ih hchain
    refine ⟨hlinked, hnext'.trans hnext, ?_⟩
    rw [hmem', hmem, List.mem_cons, or_imp, and_assoc]

end Loops

variable {a : SweepAct} {e : Entry XkpblocksKey}

theorem Linked.step (h : Linked hash s.table) (hstep : (sweepMachine hash).step s a = some s') :
    Linked hash s'.table := by
  cases a with
  | tasks pids =>
    cases hstep
    exact h
  | insert key =>
    cases hstep
    exact h.insert key
  | unlink addr =>
    cases hstep
    exact h.unlink addr
  | periodic =>
    cases hstep
    exact (mem_sweepChains s.pids ⟨0, ⟨0, 0⟩⟩ _ h).1

theorem linked_run {acts : List SweepAct} (h : Linked hash s.table)
    (hrun : (sweepMachine hash).run s acts = some s') : Linked hash s'.table := by
  induction acts generalizing s with
  | nil =>
    cases hrun
    exact h
  | cons a acts ih =>
    simp only [Machine.run, Option.bind_eq_some_iff] at hrun
    obtain ⟨t, ht, hrun⟩ := hrun
    exact ih (h.step ht) hrun

theorem nextAddr_step (h : Linked hash s.table)
    (hstep : (sweepMachine hash).step s a = some s') :
    s.table.nextAddr ≤ s'.table.nextAddr := by
  cases a with
  | tasks pids =>
    cases hstep
    exact le_rfl
  | insert key =>
    cases hstep
    exact Nat.le_succ _
  | unlink addr =>
    cases hstep
    exact le_rfl
  | periodic =>
    cases hstep
    exact (mem_sweepChains s.pids ⟨0, ⟨0, 0⟩⟩ (sweepWindow size s.nextBktnr) h).2.1.ge

/-- A node that is gone does not come back: addresses are not handed out twice. -/
theorem gone_step (h : Linked hash s.table) (hstep : (sweepMachine hash).step s a = some s')
    (hold : e.addr < s.table.nextAddr) (hgone : e ∉ s.table) : e ∉ s'.table := by
  intro hin
  cases a with
  | tasks pids =>
    cases hstep
    exact hgone hin
  | insert key =>
    cases hstep
    have hin' : e ∈ s.table.insert (fun key => hash key) key := hin
    rcases ChainedTable.mem_insert.mp hin' with rfl | hin
    · exact Nat.lt_irrefl _ hold
    · exact hgone hin
  | unlink addr =>
    cases hstep
    exact hgone (ChainedTable.mem_unlink.mp hin).1
  | periodic =>
    cases hstep
    exact hgone ((mem_sweepChains s.pids e _ h).2.2.mp hin).1

theorem gone_run {acts : List SweepAct} (h : Linked hash s.table)
    (hrun : (sweepMachine hash).run s acts = some s') (hold : e.addr < s.table.nextAddr)
    (hgone : e ∉ s.table) : e ∉ s'.table := by
  induction acts generalizing s with
  | nil =>
    cases hrun
    exact hgone
  | cons a acts ih =>
    simp only [Machine.run, Option.bind_eq_some_iff] at hrun
    obtain ⟨t, ht, hrun⟩ := hrun
    exact ih (h.step ht) hrun (hold.trans_le (nextAddr_step h ht)) (gone_step h ht hold hgone)

theorem nextBktnr_step (hstep : (sweepMachine hash).step s a = some s') :
    s'.nextBktnr = if a.isPeriodic then sweepNext size s.nextBktnr else s.nextBktnr := by
  cases a <;> cases hstep <;> rfl

theorem cursorAt_succ (size : ℕ) (c : UInt32) (n : ℕ) :
    cursorAt size (sweepNext size c) n = cursorAt size c (n + 1) := by
  induction n with
  | zero => rfl
  | succ n ih => rw [cursorAt, ih, ← cursorAt]

/-- A node of a dead thread is gone after a run of the sweep over its bucket. -/
theorem removed_run {acts : List SweepAct} (h : Linked hash s.table)
    (hrun : (sweepMachine hash).run s acts = some s') (hold : e.addr < s.table.nextAddr)
    (hdead : (sweepMachine hash).Throughout (fun t => doTaskcheckOn t.pids e.key = false) s acts)
    {n : ℕ} (hn : n < acts.countP SweepAct.isPeriodic)
    (hwindow : (hash e.key : ℕ) ∈ sweepWindow size (cursorAt size s.nextBktnr n)) :
    e ∉ s'.table := by
  induction acts generalizing s n with
  | nil => simp at hn
  | cons a acts ih =>
    simp only [Machine.run, Option.bind_eq_some_iff] at hrun
    obtain ⟨t, ht, hrun⟩ := hrun
    have hcursor := nextBktnr_step ht
    rw [List.countP_cons] at hn
    have hlt := hold.trans_le (nextAddr_step h ht)
    cases hp : a.isPeriodic with
    | false =>
      rw [hp, if_neg Bool.false_ne_true] at hcursor hn
      exact ih (h.step ht) hrun hlt (hdead.2 t ht) hn (hcursor ▸ hwindow)
    | true =>
      rw [hp, if_pos rfl] at hcursor hn
      cases n with
      | zero =>
        obtain rfl : a = .periodic := by cases a <;> simp_all [SweepAct.isPeriodic]
        refine gone_run (h.step ht) hrun hlt fun hin => ?_
        cases ht
        have hlive := (mem_sweepChains s.pids e _ h).2.2.mp hin |>.2 hwindow
        rw [hdead.head] at hlive
        cases hlive
      | succ n =>
        refine ih (h.step ht) hrun hlt (hdead.2 t ht) (Nat.lt_of_succ_lt_succ hn) ?_
        rw [hcursor, cursorAt_succ]
        exact hwindow

end SweepState
section Cursor
variable {size : ℕ}

/-- In a table of at most 50 buckets every run resets the cursor. -/
theorem sweepNext_one (h : size ≤ 50) : sweepNext size 0 = 0 := by
  have hstop : ¬ sweepStop size 0 < size := by
    have hend : ((0 : UInt32) + 50).toNat = 50 := by decide
    rw [sweepStop, hend]
    omega
  rw [sweepNext, if_neg hstop]

/-- With at most 100 buckets the second window starts where the first one stops. -/
theorem sweepNext_two (hlow : 50 < size) (h : size ≤ 100) :
    sweepNext size 0 = 50 ∧ sweepNext size 50 = 0 := by
  have hend : ((0 : UInt32) + 50).toNat = 50 := by decide
  have hend' : ((50 : UInt32) + 50).toNat = 100 := by decide
  constructor
  · have hstop : sweepStop size 0 = 50 := by rw [sweepStop, hend, min_eq_left hlow.le]
    rw [sweepNext, hstop, if_pos hlow]
    decide
  · have hstop : ¬ sweepStop size 50 < size := by rw [sweepStop, hend']; omega
    rw [sweepNext, if_neg hstop]

theorem cursorAt_add {runs : ℕ} (h : cursorAt size 0 runs = 0) (n : ℕ) :
    cursorAt size 0 (n + runs) = cursorAt size 0 n := by
  induction n with
  | zero => rw [Nat.zero_add, h, cursorAt]
  | succ n ih => rw [Nat.succ_add, cursorAt, ih, cursorAt]

/-- The cursors `50 * (2 ^ k - 1)` modulo `2 ^ 32`. -/
def sweepCursors : List UInt32 := (List.range 32).map fun k => UInt32.ofNat (50 * (2 ^ k - 1))

theorem zero_mem_sweepCursors : 0 ∈ sweepCursors := by decide +kernel

theorem double_mem_sweepCursors : ∀ c ∈ sweepCursors, c + (c + 50) ∈ sweepCursors := by
  have hall : (sweepCursors.all fun c => decide (c + (c + 50) ∈ sweepCursors)) = true := by
    decide +kernel
  intro c hc
  exact of_decide_eq_true (List.all_eq_true.mp hall c hc)

theorem sweepCursors_skip :
    ∀ c ∈ sweepCursors, ¬ (c.toNat ≤ 100 ∧ 100 < (c + 50).toNat) := by
  have hall :
      (sweepCursors.all fun c => decide ¬ (c.toNat ≤ 100 ∧ 100 < (c + 50).toNat)) = true := by
    decide +kernel
  intro c hc
  exact of_decide_eq_true (List.all_eq_true.mp hall c hc)

/-- Adding `end` to the cursor instead of storing it doubles the window's place. -/
theorem sweepNext_mem {c : UInt32} (hc : c ∈ sweepCursors) : sweepNext size c ∈ sweepCursors := by
  unfold sweepNext
  split
  · rename_i hlt
    have hstop : sweepStop size c = (c + 50).toNat := by
      simp only [sweepStop] at hlt ⊢
      omega
    rw [hstop, UInt32.ofNat_toNat]
    exact double_mem_sweepCursors c hc
  · exact zero_mem_sweepCursors

theorem cursorAt_mem (size n : ℕ) : cursorAt size 0 n ∈ sweepCursors := by
  induction n with
  | zero => exact zero_mem_sweepCursors
  | succ n ih => exact sweepNext_mem ih

/-- Bucket 100 is in no window. -/
theorem not_mem_sweepWindow (size n : ℕ) : 100 ∉ sweepWindow size (cursorAt size 0 n) := by
  intro hmem
  have hskip := sweepCursors_skip _ (cursorAt_mem size n)
  rw [sweepWindow, List.mem_range'_1, sweepStop] at hmem
  omega

end Cursor

open SweepState

/-- A reset behind windows that make up the table is a full sweep. -/
theorem sweepsWhole_of_windows {size runs : ℕ} (hpos : 0 < runs)
    (hreset : cursorAt size 0 runs = 0)
    (hfirst : ∀ n, 0 < n → n < runs → cursorAt size 0 n ≠ 0)
    (hwindows : ((List.range runs).flatMap fun n => sweepWindow size (cursorAt size 0 n)) =
      List.range size) : SweepsWhole size runs where
  pos := hpos
  resets := hreset
  first := hfirst
  examines := List.Perm.of_eq hwindows
  repeats := cursorAt_add hreset
  removesDead := by
    rintro hash s acts s' ⟨hlinked, hcursor⟩ hcount hrun e he hdead
    have hbucket : (hash e.key : ℕ) ∈ List.range size := List.mem_range.mpr (hash e.key).isLt
    rw [← hwindows] at hbucket
    obtain ⟨n, hn, hwindow⟩ := List.mem_flatMap.mp hbucket
    rw [← hcursor] at hwindow
    exact removed_run hlinked hrun (hlinked.fresh e he) hdead
      (hcount ▸ List.mem_range.mp hn) hwindow
  keepsLiving := by
    rintro hash s s' ⟨hlinked, -⟩ acts t hrun hstep e he hlive
    have hlinked' : Linked hash t.table := linked_run hlinked hrun
    cases hstep
    exact (mem_sweepChains t.pids e _ hlinked').2.2.mpr ⟨he, fun _ => hlive⟩

/-- The runs up to a reset are a full sweep in tables of at most 100 buckets only: behind
the second window the cursor runs away from the windows. -/
theorem sweepsWhole_iff (size : ℕ) : (∃ runs, SweepsWhole size runs) ↔ size ≤ 100 := by
  constructor
  · rintro ⟨runs, h⟩
    by_contra hsize
    have hmem : 100 ∈ List.range size := List.mem_range.mpr (Nat.not_le.mp hsize)
    obtain ⟨n, -, hwindow⟩ := List.mem_flatMap.mp (h.examines.mem_iff.mpr hmem)
    exact not_mem_sweepWindow size n hwindow
  · intro hsize
    have hend : ((0 : UInt32) + 50).toNat = 50 := by decide
    by_cases hlow : size ≤ 50
    · refine ⟨1, sweepsWhole_of_windows Nat.one_pos (sweepNext_one hlow) ?_ ?_⟩
      · intro n hpos hlt
        omega
      · have hwindow : sweepWindow size 0 = List.range size := by
          rw [sweepWindow, sweepStop, hend, min_eq_right hlow, List.range_eq_range']
          rfl
        simp [cursorAt, hwindow]
    · obtain ⟨hone, htwo⟩ := sweepNext_two (Nat.not_le.mp hlow) hsize
      have hcursor : cursorAt size 0 1 = 50 := hone
      refine ⟨2, sweepsWhole_of_windows Nat.two_pos ?_ ?_ ?_⟩
      · rw [cursorAt, hcursor, htwo]
      · intro n hpos hlt
        obtain rfl : n = 1 := by omega
        rw [hcursor]
        decide
      · have hfirst : sweepWindow size 0 = List.range' 0 50 := by
          rw [sweepWindow, sweepStop, hend, min_eq_left (Nat.not_le.mp hlow).le]
          rfl
        have hend' : ((50 : UInt32) + 50).toNat = 100 := by decide
        have hsecond : sweepWindow size 50 = List.range' 50 (size - 50) := by
          rw [sweepWindow, sweepStop, hend', min_eq_right hsize]
          rfl
        have hwindows : ((List.range 2).flatMap fun n => sweepWindow size (cursorAt size 0 n)) =
            sweepWindow size 0 ++ sweepWindow size 50 := by
          rw [← hcursor, List.range_succ, List.range_one, List.flatMap_append,
            List.flatMap_singleton, List.flatMap_singleton]
          rfl
        rw [hwindows, hfirst, hsecond, List.range_eq_range',
          show List.range' 50 (size - 50) = List.range' (0 + 50) (size - 50) from rfl,
          List.range'_append_1, Nat.add_sub_cancel' (Nat.not_le.mp hlow).le]

/-- In the table of the module no number of runs is a full sweep. -/
theorem not_sweepsWhole : ¬ ∃ runs, SweepsWhole xkpblocksHtSize runs := by
  rintro ⟨runs, h⟩
  have hmem : 100 ∈ List.range xkpblocksHtSize := List.mem_range.mpr (by decide)
  obtain ⟨n, -, hwindow⟩ := List.mem_flatMap.mp (h.examines.mem_iff.mpr hmem)
  exact not_mem_sweepWindow xkpblocksHtSize n hwindow

end BlkdevSnapshot

import BlkdevSnapshot.Epoch
import BlkdevSnapshot.Machine

/-!
# Snapshot works and cleanup works in one queue

Any number of calls of `bdsnap_make_snapshot` for one registered device, each cut
at its reads of the shared fields, interleaved with mount and umount events and
with the works of the device's ordered queue. Nothing takes `wq_destroy_lock` for
writing here, so the read lock is always free. A work that was just initialised
is not pending, so `queue_work` queues it.
-/
namespace BlkdevSnapshot

/-- What a queued `struct make_snapshot_work` keeps of an epoch: the epochs whose
fields it points to, `none` for a pointer made from NULL, and the date with the
epoch that it was copied from. -/
structure SnapshotPointers where
  pathSnapdir : Option ℕ
  cachedBlocks : Option ℕ
  dateOf : ℕ
  firstMountDate : CStr
  deriving DecidableEq

/-- The path, the cache and the date come from one epoch. -/
abbrev SnapshotPointers.OneEpoch (msw : SnapshotPointers) : Prop :=
  msw.pathSnapdir = some msw.dateOf ∧ msw.cachedBlocks = some msw.dateOf

/-- A work in the queue of the device; `cleanup` destroys the epoch at its address. -/
inductive QueuedWork where
  | snapshot (msw : SnapshotPointers)
  | cleanup (addr : ℕ)
  deriving DecidableEq

/-- Where a call of `bdsnap_make_snapshot` is, with what it has read so far: before
the two tests without the lock, `read_lock`, the second test of the flag, and then
in `queue_snapshot_work` the test of `obj->e`, the allocations, the three loads of
`obj->e` and `queue_work`, and at last `read_unlock`. -/
inductive CallPc where
  | testE
  | testWq
  | readLock
  | retestWq
  | testObjE
  | kmalloc
  | loadPath
  | loadLru (pathSnapdir : Option ℕ)
  | loadDate (pathSnapdir cachedBlocks : Option ℕ)
  | queueWork (msw : SnapshotPointers)
  | readUnlock (ret : Bool)
  | returned (ret : Bool)
  | fault
  deriving DecidableEq

namespace ObjectData

/-- The address of the open epoch. -/
def current (data : ObjectData) : Option ℕ := data.e.map Epoch.addr

theorem current_eq_none_iff {data : ObjectData} : data.current = none ↔ data.e = none := by
  simp [current]

theorem current_countMount (kzalloc : Option ℕ) (tv : ClockSec) (data : ObjectData) :
    (data.countMount kzalloc tv).current = data.current.or kzalloc := by
  unfold current
  cases he : data.e with
  | some e => simp [countMount_of_some he, Epoch.countMount]
  | none => cases kzalloc <;> simp [countMount_of_none he, Epoch.countMount, Epoch.zeroed]

/-- An umount event never puts an epoch in the place of another. -/
theorem current_countUmount (kmalloc : Bool) (data : ObjectData) :
    (data.countUmount kmalloc).1.current = none ∨
      (data.countUmount kmalloc).1.current = data.current := by
  unfold current countUmount epochEventCbCountUmount
  cases he : data.e with
  | none => exact .inl rfl
  | some e =>
    simp only
    split
    · exact .inr rfl
    · split
      · exact .inl rfl
      · exact .inr rfl

/-- The umount event of the only counted mount ends the epoch. -/
theorem Active.countUmount_ends {data : ObjectData} (h : data.Active) (hone : data.counter = 1)
    (kmalloc : Bool) : ∃ addr, data.current = some addr ∧
      (data.countUmount kmalloc).1.current = none ∧
      (data.countUmount kmalloc).2.map Epoch.addr = if kmalloc then some addr else none := by
  cases he : data.e with
  | none => simp [h.e_eq_none_iff.mp he] at hone
  | some e =>
    have hn : e.nCurrentlyMounted = 1 := by simpa [counter, he] using hone
    rcases h.countUmount_cases he kmalloc with ⟨-, hnone, haddr⟩ | ⟨hmore, -⟩
    · exact ⟨e.addr, by simp [current, he], current_eq_none_iff.mpr hnone, haddr⟩
    · omega

/-- Any other umount event leaves the epoch as it is. -/
theorem Active.countUmount_stays {data : ObjectData} (h : data.Active) (hne : data.counter ≠ 1)
    (kmalloc : Bool) : (data.countUmount kmalloc).1.current = data.current ∧
      (data.countUmount kmalloc).2 = none := by
  cases he : data.e with
  | none => simp [countUmount_of_none he]
  | some e =>
    have hn : data.counter = e.nCurrentlyMounted := by simp [counter, he]
    rcases h.countUmount_cases he kmalloc with ⟨hone, -, -⟩ | ⟨-, left, hleft, hno, -, haddr, -⟩
    · omega
    · exact ⟨by simp [current, hleft, he, haddr], hno⟩

end ObjectData

namespace CallPc

/-- The next step of a call, with the work that it queues. -/
def step (msw block : Bool) (data : ObjectData) : CallPc → Option (CallPc × List QueuedWork)
  | testE => some (if data.e = none then returned false else testWq, [])
  | testWq => some (if data.wqIsDestroyed then returned false else readLock, [])
  | readLock => some (retestWq, [])
  | retestWq => some (if data.wqIsDestroyed then readUnlock false else testObjE, [])
  | testObjE => some (if data.e = none then readUnlock false else kmalloc, [])
  | kmalloc => some (if msw && block then loadPath else readUnlock false, [])
  | loadPath => some (loadLru data.current, [])
  | loadLru path => some (loadDate path data.current, [])
  | loadDate path lru =>
    match data.e with
    | none => some (fault, [])
    | some e => some (queueWork ⟨path, lru, e.addr, e.firstMountDate⟩, [])
  | queueWork msw => some (readUnlock true, [.snapshot msw])
  | readUnlock ret => some (returned ret, [])
  | returned _ => none
  | fault => none

/-- Between its first and its last load of the fields of the epoch. -/
def loading : CallPc → Bool
  | loadLru _ => true
  | loadDate _ _ => true
  | _ => false

/-- About to queue a work made from the epoch at `addr`. -/
def queues (addr : ℕ) : CallPc → Bool
  | queueWork msw => decide (msw.dateOf = addr)
  | _ => false

end CallPc

/-- The device with the calls on it, and the works executed and queued. -/
structure SnapshotQueue where
  data : ObjectData
  nextAddr : ℕ
  calls : List CallPc
  ran : List QueuedWork
  wq : List QueuedWork

/-- A new call, the next step of a call, a mount or umount event, or the execution
of the work at the head of the queue. -/
inductive QueueAct where
  | call
  | step (i : ℕ) (msw block : Bool)
  | mount (kzalloc : Bool) (tv : ClockSec)
  | umount (kmalloc : Bool)
  | work

namespace SnapshotQueue

/-- All works queued so far, in order. -/
def queued (s : SnapshotQueue) : List QueuedWork := s.ran ++ s.wq

end SnapshotQueue

/-- All interleavings of calls, events and works. -/
def queueMachine : Machine SnapshotQueue QueueAct where
  init s := s.data.Active ∧ s.data.e = none ∧ s.calls = [] ∧ s.ran = [] ∧ s.wq = []
  step
    | s, .call => some { s with calls := s.calls ++ [.testE] }
    | s, .step i msw block => s.calls[i]?.bind fun pc => (pc.step msw block s.data).map fun r =>
        { s with calls := s.calls.set i r.1, wq := s.wq ++ r.2 }
    | s, .mount kzalloc tv => some { s with
        data := s.data.countMount (if kzalloc then some s.nextAddr else none) tv
        nextAddr := s.nextAddr + 1 }
    | s, .umount kmalloc => some { s with
        data := (s.data.countUmount kmalloc).1
        wq := s.wq ++ ((s.data.countUmount kmalloc).2.map Epoch.addr).toList.map .cleanup }
    | s, .work =>
      match s.wq with
      | [] => none
      | work :: wq => some { s with ran := s.ran ++ [work], wq := wq }

/-- The first work does not destroy an epoch that the second one needs. -/
def InOrder : QueuedWork → QueuedWork → Prop
  | .cleanup addr, .snapshot msw =>
      msw.dateOf ≠ addr ∧ msw.pathSnapdir ≠ some addr ∧ msw.cachedBlocks ≠ some addr
  | _, _ => True

namespace SnapshotQueue

/-- No call has loaded through NULL, every snapshot work is made from one epoch and
queued ahead of its cleanup, and the works still to run point to no destroyed epoch. -/
structure Safe (s : SnapshotQueue) : Prop where
  noFault : .fault ∉ s.calls
  oneEpoch : ∀ msw, .snapshot msw ∈ s.queued → msw.OneEpoch
  ordered : s.queued.Pairwise InOrder
  alive : ∀ addr msw, .cleanup addr ∈ s.ran → .snapshot msw ∈ s.wq → msw.dateOf ≠ addr

/-- No umount event ends the epoch while a call is loading its fields, nor, when the
cleanup work finds memory, while a call is about to queue a work for it; and a call
does not take the first pointer after the epoch that it tested is gone. -/
def KeepsEpoch (s : SnapshotQueue) : QueueAct → Prop
  | .umount kmalloc => s.data.counter = 1 → ∀ pc ∈ s.calls, pc.loading = false ∧
      (kmalloc = true → ∀ addr ∈ s.data.current, pc.queues addr = false)
  | .step i _ _ => s.calls[i]? = some .loadPath → s.data.e ≠ none
  | _ => True

instance (s : SnapshotQueue) (a : QueueAct) : Decidable (s.KeepsEpoch a) := by
  cases a <;> unfold KeepsEpoch <;> infer_instance

/-- What a call holds belongs to the open epoch until it has the date, and then to
an epoch whose cleanup is not queued. -/
def Holds (s : SnapshotQueue) : CallPc → Prop
  | .loadLru path => ∃ addr, s.data.current = some addr ∧ path = some addr
  | .loadDate path lru => ∃ addr, s.data.current = some addr ∧ path = some addr ∧ lru = some addr
  | .queueWork msw => msw.OneEpoch ∧ msw.dateOf < s.nextAddr ∧ .cleanup msw.dateOf ∉ s.queued
  | .fault => False
  | _ => True

/-- The invariant of guarded runs. -/
structure Inv (s : SnapshotQueue) : Prop where
  active : s.data.Active
  fresh : ∀ addr, s.data.current = some addr → addr < s.nextAddr
  cleaned : ∀ addr, .cleanup addr ∈ s.queued → addr < s.nextAddr ∧ s.data.current ≠ some addr
  holds : ∀ pc ∈ s.calls, s.Holds pc
  oneEpoch : ∀ msw, .snapshot msw ∈ s.queued → msw.OneEpoch
  ordered : s.queued.Pairwise InOrder

/-- The queue order keeps a work from a destroyed epoch. -/
theorem alive_of_ordered {s : SnapshotQueue} (h : s.queued.Pairwise InOrder) {addr : ℕ}
    {msw : SnapshotPointers} (hran : .cleanup addr ∈ s.ran) (hwq : .snapshot msw ∈ s.wq) :
    msw.dateOf ≠ addr := by
  have hpair := (List.pairwise_append.mp h).2.2 _ hran _ hwq
  exact hpair.1

theorem Inv.safe {s : SnapshotQueue} (h : s.Inv) : s.Safe where
  noFault hmem := h.holds _ hmem
  oneEpoch := h.oneEpoch
  ordered := h.ordered
  alive _ _ hran hwq := alive_of_ordered h.ordered hran hwq

variable {s : SnapshotQueue}

theorem inOrder_cleanup (work : QueuedWork) (addr : ℕ) : InOrder work (.cleanup addr) := by
  cases work <;> trivial

/-- A call that goes on without queueing anything. -/
theorem Inv.setCall (h : s.Inv) (i : ℕ) {pc : CallPc} (hpc : s.Holds pc) :
    Inv { s with calls := s.calls.set i pc } := by
  refine ⟨h.active, h.fresh, h.cleaned, fun pc' hpc' => ?_, h.oneEpoch, h.ordered⟩
  rcases List.mem_or_eq_of_mem_set hpc' with hold | rfl
  · exact h.holds pc' hold
  · exact hpc

/-- A snapshot work that is queued while the cleanup of its epoch is not. -/
theorem Inv.queueWork (h : s.Inv) {msw : SnapshotPointers} (hmsw : s.Holds (.queueWork msw)) :
    Inv { s with wq := s.wq ++ [.snapshot msw] } := by
  obtain ⟨hone, hlt, hnot⟩ := hmsw
  have hqueued : queued { s with wq := s.wq ++ [.snapshot msw] } = s.queued ++ [.snapshot msw] :=
    (List.append_assoc _ _ _).symm
  have hcleanup : ∀ addr, .cleanup addr ∈ s.queued ++ [.snapshot msw] →
      .cleanup addr ∈ s.queued := by
    intro addr hmem
    simpa using hmem
  refine ⟨h.active, h.fresh, fun addr hmem => ?_, fun pc hpc => ?_, fun m hmem => ?_, ?_⟩
  · rw [hqueued] at hmem
    exact h.cleaned addr (hcleanup addr hmem)
  · have hholds := h.holds pc hpc
    cases pc with
    | queueWork m =>
      refine ⟨hholds.1, hholds.2.1, fun hmem => hholds.2.2 ?_⟩
      rw [hqueued] at hmem
      exact hcleanup _ hmem
    | _ => exact hholds
  · rw [hqueued, List.mem_append, List.mem_singleton] at hmem
    rcases hmem with hmem | hmem
    · exact h.oneEpoch m hmem
    · cases hmem
      exact hone
  · rw [hqueued, List.pairwise_append]
    refine ⟨h.ordered, List.pairwise_singleton _ _, fun work hwork last hlast => ?_⟩
    obtain rfl := List.mem_singleton.mp hlast
    cases work with
    | snapshot m => trivial
    | cleanup addr =>
      have hne : msw.dateOf ≠ addr := fun heq => hnot (heq ▸ hwork)
      simp only [InOrder, hone.1, hone.2, Option.some.injEq, ne_eq, hne, not_false_eq_true,
        and_self]

theorem Inv.step (h : s.Inv) {i : ℕ} {msw block : Bool} {pc : CallPc}
    {r : CallPc × List QueuedWork} (hpc : s.calls[i]? = some pc)
    (hact : s.KeepsEpoch (.step i msw block)) (hstep : pc.step msw block s.data = some r) :
    Inv { s with calls := s.calls.set i r.1, wq := s.wq ++ r.2 } := by
  have hholds := h.holds pc (List.mem_of_getElem? hpc)
  have hnone : ∀ pc', s.Holds pc' →
      Inv { s with calls := s.calls.set i pc', wq := s.wq ++ [] } := by
    intro pc' hpc'
    rw [List.append_nil]
    exact h.setCall i hpc'
  cases pc with
  | testE =>
    cases hstep
    apply hnone
    split <;> trivial
  | testWq =>
    cases hstep
    apply hnone
    split <;> trivial
  | readLock =>
    cases hstep
    exact hnone _ trivial
  | retestWq =>
    cases hstep
    apply hnone
    split <;> trivial
  | testObjE =>
    cases hstep
    apply hnone
    split <;> trivial
  | kmalloc =>
    cases hstep
    apply hnone
    split <;> trivial
  | loadPath =>
    cases hstep
    apply hnone
    have hopen : s.data.current ≠ none := fun hc =>
      hact hpc (ObjectData.current_eq_none_iff.mp hc)
    obtain ⟨addr, haddr⟩ := Option.ne_none_iff_exists'.mp hopen
    exact ⟨addr, haddr, haddr⟩
  | loadLru path =>
    cases hstep
    apply hnone
    obtain ⟨addr, haddr, hpath⟩ := hholds
    exact ⟨addr, haddr, hpath, haddr⟩
  | loadDate path lru =>
    obtain ⟨addr, haddr, hpath, hlru⟩ := hholds
    obtain ⟨e, he, heq⟩ := Option.map_eq_some_iff.mp haddr
    simp only [CallPc.step, he, Option.some.injEq] at hstep
    subst hstep
    apply hnone
    subst heq
    refine ⟨⟨hpath, hlru⟩, h.fresh _ haddr, fun hmem => ?_⟩
    exact (h.cleaned _ hmem).2 haddr
  | queueWork m =>
    cases hstep
    exact (h.queueWork hholds).setCall i trivial
  | readUnlock ret =>
    cases hstep
    exact hnone _ trivial
  | returned ret => cases hstep
  | fault => cases hstep

theorem Inv.mount (h : s.Inv) (kzalloc : Bool) (tv : ClockSec) : Inv { s with
    data := s.data.countMount (if kzalloc then some s.nextAddr else none) tv
    nextAddr := s.nextAddr + 1 } := by
  have hcurrent := ObjectData.current_countMount (if kzalloc then some s.nextAddr else none) tv
    s.data
  have hkeep : ∀ addr, s.data.current = some addr →
      (s.data.countMount (if kzalloc then some s.nextAddr else none) tv).current = some addr := by
    intro addr haddr
    rw [hcurrent, haddr, Option.some_or]
  have hnew : ∀ addr, (s.data.countMount (if kzalloc then some s.nextAddr else none) tv).current =
      some addr → s.data.current = some addr ∨ addr = s.nextAddr := by
    intro addr haddr
    rw [hcurrent] at haddr
    cases hc : s.data.current with
    | some a => exact .inl (by simpa [hc] using haddr)
    | none =>
      cases kzalloc with
      | true => exact .inr (by simpa [hc, eq_comm] using haddr)
      | false => simp [hc] at haddr
  refine ⟨h.active.countMount _ _, fun addr haddr => ?_, fun addr hmem => ?_, fun pc hpc => ?_,
    h.oneEpoch, h.ordered⟩
  · rcases hnew addr haddr with hold | rfl
    · exact Nat.lt_succ_of_lt (h.fresh addr hold)
    · exact Nat.lt_succ_self _
  · obtain ⟨hlt, hne⟩ := h.cleaned addr hmem
    refine ⟨Nat.lt_succ_of_lt hlt, fun haddr => ?_⟩
    rcases hnew addr haddr with hold | rfl
    · exact hne hold
    · exact Nat.lt_irrefl _ hlt
  · have hholds := h.holds pc hpc
    cases pc with
    | loadLru path =>
      obtain ⟨addr, haddr, hpath⟩ := hholds
      exact ⟨addr, hkeep addr haddr, hpath⟩
    | loadDate path lru =>
      obtain ⟨addr, haddr, hboth⟩ := hholds
      exact ⟨addr, hkeep addr haddr, hboth⟩
    | queueWork msw => exact ⟨hholds.1, Nat.lt_succ_of_lt hholds.2.1, hholds.2.2⟩
    | _ => exact hholds

theorem Inv.umount (h : s.Inv) {kmalloc : Bool} (hact : s.KeepsEpoch (.umount kmalloc)) :
    Inv { s with
      data := (s.data.countUmount kmalloc).1
      wq := s.wq ++ ((s.data.countUmount kmalloc).2.map Epoch.addr).toList.map .cleanup } := by
  by_cases hone : s.data.counter = 1
  · obtain ⟨addr, haddr, hnone, hended⟩ := h.active.countUmount_ends hone kmalloc
    rw [hended]
    have hqueued : queued { s with
        data := (s.data.countUmount kmalloc).1
        wq := s.wq ++ (if kmalloc then some addr else none).toList.map .cleanup } =
        s.queued ++ (if kmalloc then some addr else none).toList.map .cleanup :=
      (List.append_assoc _ _ _).symm
    have hmem : ∀ work,
        work ∈ s.queued ++ (if kmalloc then some addr else none).toList.map .cleanup →
        work ∈ s.queued ∨ (kmalloc = true ∧ work = .cleanup addr) := by
      intro work hwork
      cases kmalloc <;> simpa using hwork
    refine ⟨h.active.countUmount kmalloc, fun a ha => ?_, fun a ha => ?_, fun pc hpc => ?_,
      fun msw ha => ?_, ?_⟩
    · simp only [hnone] at ha
      cases ha
    · rw [hqueued] at ha
      refine ⟨?_, by simp [hnone]⟩
      rcases hmem _ ha with hold | ⟨-, hcleanup⟩
      · exact (h.cleaned a hold).1
      · cases hcleanup
        exact h.fresh addr haddr
    · have hholds := h.holds pc hpc
      obtain ⟨hloading, hqueues⟩ := hact hone pc hpc
      cases pc with
      | loadLru path => cases hloading
      | loadDate path lru => cases hloading
      | queueWork msw =>
        refine ⟨hholds.1, hholds.2.1, fun ha => ?_⟩
        rw [hqueued] at ha
        rcases hmem _ ha with hold | ⟨hkmalloc, hcleanup⟩
        · exact hholds.2.2 hold
        · have hne := hqueues hkmalloc addr haddr
          simp only [CallPc.queues, decide_eq_false_iff_not] at hne
          cases hcleanup
          exact hne rfl
      | _ => exact hholds
    · rw [hqueued] at ha
      rcases hmem _ ha with hold | ⟨-, hcleanup⟩
      · exact h.oneEpoch msw hold
      · cases hcleanup
    · rw [hqueued, List.pairwise_append]
      refine ⟨h.ordered, ?_, fun work _ last hlast => ?_⟩
      · cases kmalloc <;> simp
      · obtain ⟨a, -, rfl⟩ := List.mem_map.mp hlast
        exact inOrder_cleanup work a
  · obtain ⟨hcurrent, hno⟩ := h.active.countUmount_stays hone kmalloc
    rw [hno, Option.map_none, Option.toList_none, List.map_nil, List.append_nil]
    refine ⟨h.active.countUmount kmalloc, fun a ha => ?_, fun a ha => ?_, fun pc hpc => ?_,
      h.oneEpoch, h.ordered⟩
    · rw [hcurrent] at ha
      exact h.fresh a ha
    · simp only [hcurrent]
      exact h.cleaned a ha
    · have hholds := h.holds pc hpc
      cases pc with
      | loadLru path => simpa only [Holds, hcurrent] using hholds
      | loadDate path lru => simpa only [Holds, hcurrent] using hholds
      | _ => exact hholds

theorem Inv.work (h : s.Inv) {work : QueuedWork} {wq : List QueuedWork} (hwq : s.wq = work :: wq) :
    Inv { s with ran := s.ran ++ [work], wq := wq } := by
  have hqueued : queued { s with ran := s.ran ++ [work], wq := wq } = s.queued := by
    simp [queued, hwq]
  refine ⟨h.active, h.fresh, fun addr hmem => ?_, fun pc hpc => ?_, fun msw hmem => ?_, ?_⟩
  · rw [hqueued] at hmem
    exact h.cleaned addr hmem
  · have hholds := h.holds pc hpc
    cases pc with
    | queueWork msw => exact ⟨hholds.1, hholds.2.1, by rw [hqueued]; exact hholds.2.2⟩
    | _ => exact hholds
  · rw [hqueued] at hmem
    exact h.oneEpoch msw hmem
  · rw [hqueued]
    exact h.ordered

theorem Inv.next {s' : SnapshotQueue} {a : QueueAct} (h : s.Inv) (hact : s.KeepsEpoch a)
    (hstep : queueMachine.step s a = some s') : s'.Inv := by
  cases a with
  | call =>
    cases hstep
    refine ⟨h.active, h.fresh, h.cleaned, fun pc hpc => ?_, h.oneEpoch, h.ordered⟩
    rcases List.mem_append.mp hpc with hpc | hpc
    · exact h.holds pc hpc
    · rw [List.mem_singleton.mp hpc]
      trivial
  | step i msw block =>
    simp only [queueMachine, Option.bind_eq_some_iff, Option.map_eq_some_iff] at hstep
    obtain ⟨pc, hpc, r, hr, rfl⟩ := hstep
    exact h.step hpc hact hr
  | mount kzalloc tv =>
    cases hstep
    exact h.mount kzalloc tv
  | umount kmalloc =>
    cases hstep
    exact h.umount hact
  | work =>
    simp only [queueMachine] at hstep
    cases hwq : s.wq with
    | nil => simp [hwq] at hstep
    | cons work wq =>
      simp only [hwq, Option.some.injEq] at hstep
      subst hstep
      exact h.work hwq

/-- A pointer into an epoch that is over, or into none. -/
def Stale (s : SnapshotQueue) (ptr : Option ℕ) : Prop :=
  ∀ addr, ptr = some addr → addr < s.nextAddr ∧ s.data.current ≠ some addr

/-- The call can only fault or queue a work that it must not queue. -/
def Doomed (s : SnapshotQueue) : CallPc → Prop
  | .loadLru path => s.Stale path
  | .loadDate path lru => path ≠ lru ∨ s.Stale path
  | .queueWork msw => msw.OneEpoch → .cleanup msw.dateOf ∈ s.queued
  | _ => False

/-- Some call is doomed. -/
def HasDoomed (s : SnapshotQueue) : Prop :=
  ∃ (i : ℕ) (pc : CallPc), s.calls[i]? = some pc ∧ s.Doomed pc

/-- What dooms a call goes on dooming it. -/
theorem Doomed.mono {s s' : SnapshotQueue} {pc : CallPc} (h : s.Doomed pc)
    (hstale : ∀ ptr, s.Stale ptr → s'.Stale ptr)
    (hqueued : ∀ addr, .cleanup addr ∈ s.queued → .cleanup addr ∈ s'.queued) : s'.Doomed pc := by
  cases pc with
  | loadLru path => exact hstale _ h
  | loadDate path lru => exact h.imp_right (hstale _)
  | queueWork msw => exact fun hone => hqueued _ (h hone)
  | _ => exact h

/-- The doomed call takes its next step. -/
theorem Doomed.step {pc : CallPc} {i : ℕ} {msw block : Bool} {r : CallPc × List QueuedWork}
    (h : s.Doomed pc) (hpc : s.calls[i]? = some pc) (hstep : pc.step msw block s.data = some r) :
    HasDoomed { s with calls := s.calls.set i r.1, wq := s.wq ++ r.2 } ∨
    ¬ Safe { s with calls := s.calls.set i r.1, wq := s.wq ++ r.2 } := by
  have hi : i < s.calls.length := (List.getElem?_eq_some_iff.mp hpc).1
  have hset : ∀ pc', (s.calls.set i pc')[i]? = some pc' := fun pc' => List.getElem?_set_self hi
  cases pc with
  | loadLru path =>
    cases hstep
    refine .inl ⟨i, _, hset _, ?_⟩
    by_cases hsame : path = s.data.current
    · exact .inr h
    · exact .inl hsame
  | loadDate path lru =>
    cases he : s.data.e with
    | none =>
      simp only [CallPc.step, he, Option.some.injEq] at hstep
      subst hstep
      refine .inr fun hsafe => hsafe.noFault ?_
      exact List.mem_of_getElem? (hset _)
    | some e =>
      simp only [CallPc.step, he, Option.some.injEq] at hstep
      subst hstep
      refine .inl ⟨i, _, hset _, fun hone => ?_⟩
      obtain ⟨hpath, hlru⟩ := hone
      rcases h with hne | hstale
      · exact absurd (hpath.trans hlru.symm) hne
      · exact absurd (by simp [ObjectData.current, he]) (hstale _ hpath).2
  | queueWork m =>
    cases hstep
    refine .inr fun hsafe => ?_
    have hqueued : queued { s with
        calls := s.calls.set i (.readUnlock true)
        wq := s.wq ++ [.snapshot m] } = s.queued ++ [.snapshot m] :=
      (List.append_assoc _ _ _).symm
    have hone := hsafe.oneEpoch m (by rw [hqueued]; simp)
    have hordered := hsafe.ordered
    rw [hqueued, List.pairwise_append] at hordered
    have hpair := hordered.2.2 _ (h hone) _ (List.mem_singleton.mpr rfl)
    exact hpair.1 rfl
  | _ => exact absurd h id

/-- A step brings back no epoch that is over. -/
theorem Stale.step {s' : SnapshotQueue} {a : QueueAct} {ptr : Option ℕ} (h : s.Stale ptr)
    (hstep : queueMachine.step s a = some s') : s'.Stale ptr := by
  intro addr hptr
  obtain ⟨hlt, hne⟩ := h addr hptr
  cases a with
  | call =>
    cases hstep
    exact ⟨hlt, hne⟩
  | step i msw block =>
    simp only [queueMachine, Option.bind_eq_some_iff, Option.map_eq_some_iff] at hstep
    obtain ⟨pc, -, r, -, rfl⟩ := hstep
    exact ⟨hlt, hne⟩
  | mount kzalloc tv =>
    cases hstep
    refine ⟨Nat.lt_succ_of_lt hlt, ?_⟩
    rw [ObjectData.current_countMount]
    cases hc : s.data.current with
    | some b => simpa [hc] using hne
    | none =>
      cases kzalloc with
      | false => simp
      | true => simpa using hlt.ne'
  | umount kmalloc =>
    cases hstep
    refine ⟨hlt, ?_⟩
    rcases ObjectData.current_countUmount kmalloc s.data with hnone | hsame
    · simp [hnone]
    · simpa only [hsame] using hne
  | work =>
    simp only [queueMachine] at hstep
    split at hstep
    · cases hstep
    · cases hstep
      exact ⟨hlt, hne⟩

/-- A step takes nothing out of the history of the queue. -/
theorem queued_step {s' : SnapshotQueue} {a : QueueAct} {work : QueuedWork}
    (h : work ∈ s.queued) (hstep : queueMachine.step s a = some s') : work ∈ s'.queued := by
  cases a with
  | call =>
    cases hstep
    exact h
  | step i msw block =>
    simp only [queueMachine, Option.bind_eq_some_iff, Option.map_eq_some_iff] at hstep
    obtain ⟨pc, -, r, -, rfl⟩ := hstep
    simp only [queued, ← List.append_assoc]
    exact List.mem_append_left _ h
  | mount kzalloc tv =>
    cases hstep
    exact h
  | umount kmalloc =>
    cases hstep
    simp only [queued, ← List.append_assoc]
    exact List.mem_append_left _ h
  | work =>
    simp only [queueMachine] at hstep
    split at hstep
    · cases hstep
    · rename_i head wq hwq
      cases hstep
      simpa [queued, hwq] using h

/-- A doomed call stays doomed until its run breaks. -/
theorem HasDoomed.next {s' : SnapshotQueue} {a : QueueAct} (h : s.HasDoomed)
    (hstep : queueMachine.step s a = some s') : s'.HasDoomed ∨ ¬ s'.Safe := by
  obtain ⟨i, pc, hpc, hdoomed⟩ := h
  have hdoomed' : s'.Doomed pc :=
    hdoomed.mono (fun ptr hptr => hptr.step hstep) fun addr haddr => queued_step haddr hstep
  cases a with
  | call =>
    cases hstep
    have hi := (List.getElem?_eq_some_iff.mp hpc).1
    exact .inl ⟨i, pc, by rw [List.getElem?_append_left hi]; exact hpc, hdoomed'⟩
  | step j msw block =>
    simp only [queueMachine, Option.bind_eq_some_iff, Option.map_eq_some_iff] at hstep
    obtain ⟨pc', hpc', r, hr, rfl⟩ := hstep
    by_cases hij : j = i
    · subst hij
      obtain rfl := Option.some.inj (hpc.symm.trans hpc')
      exact hdoomed.step hpc hr
    · exact .inl ⟨i, pc, by rw [List.getElem?_set_ne hij]; exact hpc, hdoomed'⟩
  | mount kzalloc tv =>
    cases hstep
    exact .inl ⟨i, pc, hpc, hdoomed'⟩
  | umount kmalloc =>
    cases hstep
    exact .inl ⟨i, pc, hpc, hdoomed'⟩
  | work =>
    simp only [queueMachine] at hstep
    split at hstep
    · cases hstep
    · cases hstep
      exact .inl ⟨i, pc, hpc, hdoomed'⟩

/-- A step that does not keep the epoch dooms a call. -/
theorem Inv.dooms {s' : SnapshotQueue} {a : QueueAct} (h : s.Inv) (hact : ¬ s.KeepsEpoch a)
    (hstep : queueMachine.step s a = some s') : s'.HasDoomed := by
  cases a with
  | call => exact absurd trivial hact
  | mount kzalloc tv => exact absurd trivial hact
  | work => exact absurd trivial hact
  | step i msw block =>
    simp only [KeepsEpoch, Classical.not_imp, not_not] at hact
    obtain ⟨hpc, hnone⟩ := hact
    simp only [queueMachine, hpc, CallPc.step, Option.bind_some, Option.map_some,
      Option.some.injEq] at hstep
    subst hstep
    have hi := (List.getElem?_eq_some_iff.mp hpc).1
    refine ⟨i, _, List.getElem?_set_self hi, ?_⟩
    rw [ObjectData.current_eq_none_iff.mpr hnone]
    intro addr haddr
    cases haddr
  | umount kmalloc =>
    simp only [KeepsEpoch, Classical.not_imp, not_forall] at hact
    obtain ⟨hone, pc, hpc, hheld⟩ := hact
    cases hstep
    obtain ⟨addr, haddr, hnone, hended⟩ := h.active.countUmount_ends hone kmalloc
    obtain ⟨i, hpc⟩ := List.mem_iff_getElem?.mp hpc
    have hholds := h.holds pc (List.mem_of_getElem? hpc)
    refine ⟨i, pc, hpc, ?_⟩
    have hgone : ∀ a, s.data.current = some a → a < s.nextAddr ∧
        (s.data.countUmount kmalloc).1.current ≠ some a := by
      intro a ha
      exact ⟨h.fresh a ha, by simp [hnone]⟩
    cases pc with
    | loadLru path =>
      obtain ⟨b, hb, rfl⟩ := hholds
      rintro _ ⟨⟩
      exact hgone b hb
    | loadDate path lru =>
      obtain ⟨b, hb, rfl, -⟩ := hholds
      refine .inr ?_
      rintro _ ⟨⟩
      exact hgone b hb
    | queueWork msw =>
      have hown : kmalloc = true ∧ msw.dateOf = addr := by
        simpa [CallPc.loading, CallPc.queues, haddr] using hheld
      obtain ⟨rfl, rfl⟩ := hown
      intro _
      simp only [queued, hended, if_true]
      simp
    | _ => exact absurd ⟨rfl, fun _ _ _ => rfl⟩ hheld

end SnapshotQueue

open SnapshotQueue

/-- While every step keeps the epoch, no call loads through NULL and every snapshot
work is queued ahead of the cleanup of its epoch. In a run whose calls have all
returned there is no other way. -/
theorem snapshot_works_queued_in_time {s : SnapshotQueue} (hs : queueMachine.init s)
    (acts : List QueueAct) :
    (queueMachine.Meets KeepsEpoch s acts → queueMachine.Throughout Safe s acts) ∧
    ∀ s', queueMachine.run s acts = some s' → (∀ pc ∈ s'.calls, ∃ ret, pc = .returned ret) →
      queueMachine.Throughout Safe s acts → queueMachine.Meets KeepsEpoch s acts := by
  obtain ⟨hactive, hnone, hcalls, hran, hwq⟩ := hs
  have hqueued : s.queued = [] := by rw [queued, hran, hwq, List.append_nil]
  have hinv : s.Inv := by
    constructor <;> simp [hactive, hnone, hcalls, hqueued, ObjectData.current]
  constructor
  · intro hmeets
    exact Machine.throughout_of_meets (fun _ h => h.safe) (fun _ _ _ h => h.next) hinv hmeets
  · intro s' hrun hreturned hsafe
    apply Machine.meets_of_throughout (I := Inv) (D := HasDoomed) (fun _ _ _ h => h.next)
      (fun _ _ _ h => h.dooms) (fun _ _ _ h => h.next) hinv hrun _ hsafe
    rintro ⟨i, pc, hpc, hdoomed⟩
    obtain ⟨ret, rfl⟩ := hreturned pc (List.mem_of_getElem? hpc)
    exact hdoomed

/-- A device that is registered and not mounted. -/
def idleQueue : SnapshotQueue := ⟨initObjectData "/img".toList, 0, [], [], []⟩

theorem idleQueue_init : queueMachine.init idleQueue :=
  ⟨ObjectData.initObjectData_active _, rfl, rfl, rfl, rfl⟩

/-- A mount, `before` steps of one call, the umount and `after` more steps. -/
def umountWithin (before after : ℕ) : List QueueAct :=
  [QueueAct.mount true ⟨5, by decide⟩, .call] ++
    List.replicate before (QueueAct.step 0 true true) ++
    [QueueAct.umount true] ++ List.replicate after (QueueAct.step 0 true true)

/-- An umount behind the whole call, and the works that are queued then. -/
theorem snapshot_works_queued_in_time_idle :
    queueMachine.Throughout Safe idleQueue (umountWithin 11 0 ++ [.work, .work]) :=
  (snapshot_works_queued_in_time idleQueue_init _).1 (by decide +kernel)

/-- An umount behind the allocations leaves the call a NULL to load through. One in
front of `queue_work` destroys the epoch while the work for it waits in the queue. -/
theorem umount_overtakes_snapshot_work :
    queueMachine.init idleQueue ∧
    (∃ s, queueMachine.run idleQueue (umountWithin 6 3) = some s ∧ s.calls = [.fault]) ∧
    ∃ s, queueMachine.run idleQueue (umountWithin 9 1 ++ [.work]) = some s ∧
      s.ran = [.cleanup 0] ∧
      s.wq = [.snapshot ⟨some 0, some 0, 0, "-1970-01-01_00:00:05".toList⟩] := by
  refine ⟨idleQueue_init, ⟨_, Machine.run_eq_getD _ _ _ (by decide +kernel), ?_⟩,
    _, Machine.run_eq_getD _ _ _ (by decide +kernel), ?_⟩
  · decide +kernel
  · decide +kernel

end BlkdevSnapshot

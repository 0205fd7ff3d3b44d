import BlkdevSnapshot.SnapshotQueue

/-!
# Closing the queue of a device

Calls of `bdsnap_make_snapshot`, mount and umount events and the works of the queue,
interleaved with one `cleanup_object_data` of the same object and its deferred work,
each cut at its lock operations. The spinlock `general_lock` has one holder;
`wq_destroy_lock` has readers or one writer. Both allocations of the cleanup succeed.
-/
namespace BlkdevSnapshot

namespace CallPc

/-- Between `read_lock` and `read_unlock`. -/
def holdsRead : CallPc → Bool
  | testE | testWq | readLock | returned _ => false
  | _ => true

/-- Behind the second test of the flag, on the way to `queue_work`. -/
def queueing : CallPc → Bool
  | testObjE | kmalloc | loadPath | loadLru _ | loadDate _ _ | queueWork _ => true
  | _ => false

theorem holdsRead_of_queueing {pc : CallPc} (h : pc.queueing = true) : pc.holdsRead = true := by
  cases pc <;> simp_all [queueing, holdsRead]

variable {msw block : Bool} {data : ObjectData} {pc : CallPc} {r : CallPc × List QueuedWork}

/-- The read lock is only taken by `read_lock`. -/
theorem holdsRead_step (h : pc.step msw block data = some r) (hr : r.1.holdsRead = true) :
    pc.holdsRead = true ∨ pc = readLock := by
  cases pc with
  | testE =>
    simp only [step, Option.some.injEq] at h
    subst h
    split at hr <;> simp [holdsRead] at hr
  | testWq =>
    simp only [step, Option.some.injEq] at h
    subst h
    split at hr <;> simp [holdsRead] at hr
  | readLock => exact .inr rfl
  | returned ret => cases h
  | _ => exact .inl rfl

/-- With the flag set a call that is not queueing does not begin to. -/
theorem step_closed (hflag : data.wqIsDestroyed = true) (hpc : pc.queueing = false)
    (h : pc.step msw block data = some r) : r.1.queueing = false ∧ r.2 = [] := by
  cases pc with
  | testE =>
    simp only [step, Option.some.injEq] at h
    subst h
    split <;> exact ⟨rfl, rfl⟩
  | testWq | retestWq =>
    simp only [step, hflag, Option.some.injEq, if_true] at h
    subst h
    exact ⟨rfl, rfl⟩
  | readLock | readUnlock ret =>
    cases h
    exact ⟨rfl, rfl⟩
  | returned ret | fault => cases h
  | _ => cases hpc

end CallPc

/-- An umount event on a closed queue ends no epoch. -/
theorem ObjectData.countUmount_closed {data : ObjectData} (h : data.wqIsDestroyed = true)
    (kmalloc : Bool) : (data.countUmount kmalloc).2 = none := by
  unfold countUmount epochEventCbCountUmount
  cases data.e with
  | none => rfl
  | some e =>
    simp only [h, Bool.not_true, Bool.false_eq_true, and_false, if_false]
    split <;> rfl

/-- Where an umount event is: before `spin_lock`, the count, `queue_work` for the epoch
at an address, and `spin_unlock`. -/
inductive UmountPc where
  | lock
  | count
  | queueWork (addr : ℕ)
  | unlock
  | returned
  deriving DecidableEq

namespace UmountPc

/-- The next step of an umount event, with the object and the work that it queues. -/
def step (kmalloc : Bool) (data : ObjectData) :
    UmountPc → Option (UmountPc × ObjectData × List QueuedWork)
  | lock => some (count, data, [])
  | count =>
    let counted := data.countUmount kmalloc
    match counted.2 with
    | some e => some (queueWork e.addr, counted.1, [])
    | none => some (unlock, counted.1, [])
  | queueWork addr => some (unlock, data, [.cleanup addr])
  | unlock => some (returned, data, [])
  | returned => none

/-- Between `spin_lock` and `spin_unlock`. -/
def holdsGeneral : UmountPc → Bool
  | lock | returned => false
  | _ => true

/-- About to queue a work. -/
def queueing : UmountPc → Bool
  | queueWork _ => true
  | _ => false

theorem holdsGeneral_of_queueing {pc : UmountPc} (h : pc.queueing = true) :
    pc.holdsGeneral = true := by
  cases pc <;> simp_all [queueing, holdsGeneral]

variable {kmalloc : Bool} {data : ObjectData} {pc : UmountPc}
  {r : UmountPc × ObjectData × List QueuedWork}

/-- The flag is left alone. -/
theorem step_wqIsDestroyed (h : pc.step kmalloc data = some r) :
    r.2.1.wqIsDestroyed = data.wqIsDestroyed := by
  cases pc with
  | count =>
    simp only [step] at h
    split at h <;> (cases h; rfl)
  | returned => cases h
  | _ =>
    cases h
    rfl

/-- The spinlock is only taken by `spin_lock`. -/
theorem holdsGeneral_step (h : pc.step kmalloc data = some r) :
    pc.holdsGeneral = true ∨ pc = lock := by
  cases pc with
  | lock => exact .inr rfl
  | returned => cases h
  | _ => exact .inl rfl

/-- With the flag set an umount event that is not queueing does not begin to. -/
theorem step_closed (hflag : data.wqIsDestroyed = true) (hpc : pc.queueing = false)
    (h : pc.step kmalloc data = some r) : r.1.queueing = false ∧ r.2.2 = [] := by
  cases pc with
  | count =>
    simp only [step, ObjectData.countUmount_closed hflag, Option.some.injEq] at h
    subst h
    exact ⟨rfl, rfl⟩
  | lock | unlock =>
    cases h
    exact ⟨rfl, rfl⟩
  | returned => cases h
  | queueWork addr => cases hpc

end UmountPc

/-- Where `cleanup_object_data` is: `spin_lock`, `write_lock`, the flag, `write_unlock`,
the epoch, `spin_unlock` and `schedule_work`. Then the deferred work: `flush_workqueue`,
which waits for the works queued up to its start, `destroy_workqueue`, and
`destroy_an_epoch` with the address that was saved. -/
inductive CleanupPc where
  | generalLock
  | writeLock
  | setFlag
  | writeUnlock
  | saveEpoch
  | generalUnlock (lastEpoch : Option ℕ)
  | scheduleWork (lastEpoch : Option ℕ)
  | flush (lastEpoch : Option ℕ)
  | flushing (lastEpoch : Option ℕ) (upTo : ℕ)
  | destroyWq (lastEpoch : Option ℕ)
  | destroyEpoch (lastEpoch : Option ℕ)
  | done (lastEpoch : Option ℕ)
  deriving DecidableEq

namespace CleanupPc

/-- Between `spin_lock` and `spin_unlock`. -/
def holdsGeneral : CleanupPc → Bool
  | writeLock | setFlag | writeUnlock | saveEpoch | generalUnlock _ => true
  | _ => false

/-- Between `write_lock` and `write_unlock`. -/
def holdsWrite : CleanupPc → Bool
  | setFlag | writeUnlock => true
  | _ => false

/-- Behind the store to `wq_is_destroyed`. -/
def closed : CleanupPc → Bool
  | generalLock | writeLock | setFlag => false
  | _ => true

/-- In the deferred work, or behind it. -/
def deferred : CleanupPc → Bool
  | flush _ | flushing _ _ | destroyWq _ | destroyEpoch _ | done _ => true
  | _ => false

theorem closed_of_deferred {pc : CleanupPc} (h : pc.deferred = true) : pc.closed = true := by
  cases pc <;> simp_all [deferred, closed]

/-- Behind the return of `flush_workqueue`. -/
def flushed : CleanupPc → Bool
  | destroyWq _ | destroyEpoch _ | done _ => true
  | _ => false

theorem closed_of_flushed {pc : CleanupPc} (h : pc.flushed = true) : pc.closed = true := by
  cases pc <;> simp_all [flushed, closed]

end CleanupPc

/-- The device with everything that happens on it; `finished`, `running` and `wq` are
the works of its ordered queue. -/
structure Closing where
  data : ObjectData
  calls : List CallPc
  umounts : List UmountPc
  cleanup : CleanupPc
  finished : List QueuedWork
  running : Option QueuedWork
  wq : List QueuedWork

/-- A new call or umount event, the next step of one, a mount event, the next step of
the cleanup, or the start or end of a work. -/
inductive ClosingAct where
  | call
  | callStep (i : ℕ) (msw block : Bool)
  | umount
  | umountStep (i : ℕ) (kmalloc : Bool)
  | mount (kzalloc : Option ℕ) (tv : ClockSec)
  | cleanup
  | startWork
  | finishWork

namespace Closing

/-- All works put on the queue so far. -/
def queued (s : Closing) : List QueuedWork := s.finished ++ s.running.toList ++ s.wq

/-- `general_lock` is free. -/
def generalFree (s : Closing) : Bool :=
  !s.cleanup.holdsGeneral && s.umounts.all fun pc => !pc.holdsGeneral

/-- A step of a call; `read_lock` waits for the writer. -/
def callStep (s : Closing) (i : ℕ) (msw block : Bool) : Option Closing :=
  s.calls[i]?.bind fun pc =>
    if pc = .readLock ∧ s.cleanup.holdsWrite then none
    else (pc.step msw block s.data).map fun r =>
      { s with calls := s.calls.set i r.1, wq := s.wq ++ r.2 }

/-- A step of an umount event; `spin_lock` waits for the holder. -/
def umountStep (s : Closing) (i : ℕ) (kmalloc : Bool) : Option Closing :=
  s.umounts[i]?.bind fun pc =>
    if pc = .lock ∧ !s.generalFree then none
    else (pc.step kmalloc s.data).map fun r =>
      { s with umounts := s.umounts.set i r.1, data := r.2.1, wq := s.wq ++ r.2.2 }

/-- A step of `cleanup_object_data` or of its deferred work. -/
def cleanupStep (s : Closing) : Option Closing :=
  match s.cleanup with
  | .generalLock => if s.generalFree then some { s with cleanup := .writeLock } else none
  | .writeLock =>
    if s.calls.all fun pc => !pc.holdsRead then some { s with cleanup := .setFlag } else none
  | .setFlag =>
    some { s with data := { s.data with wqIsDestroyed := true }, cleanup := .writeUnlock }
  | .writeUnlock => some { s with cleanup := .saveEpoch }
  | .saveEpoch =>
    some { s with data := { s.data with e := none }, cleanup := .generalUnlock s.data.current }
  | .generalUnlock lastEpoch => some { s with cleanup := .scheduleWork lastEpoch }
  | .scheduleWork lastEpoch => some { s with cleanup := .flush lastEpoch }
  | .flush lastEpoch => some { s with cleanup := .flushing lastEpoch s.queued.length }
  | .flushing lastEpoch upTo =>
    if upTo ≤ s.finished.length then some { s with cleanup := .destroyWq lastEpoch } else none
  | .destroyWq lastEpoch =>
    if s.running = none ∧ s.wq = [] then some { s with cleanup := .destroyEpoch lastEpoch }
    else none
  | .destroyEpoch lastEpoch => some { s with cleanup := .done lastEpoch }
  | .done _ => none

/-- The queue starts the work at its head when no other runs. -/
def startWork (s : Closing) : Option Closing :=
  match s.running, s.wq with
  | none, work :: wq => some { s with running := some work, wq := wq }
  | _, _ => none

def finishWork (s : Closing) : Option Closing :=
  s.running.map fun work => { s with finished := s.finished ++ [work], running := none }

end Closing

/-- All interleavings on an object whose queue is not closed yet. -/
def closingMachine : Machine Closing ClosingAct where
  init s := s.data.wqIsDestroyed = false ∧ s.calls = [] ∧ s.umounts = [] ∧
    s.cleanup = .generalLock ∧ s.queued = []
  step
    | s, .call => some { s with calls := s.calls ++ [.testE] }
    | s, .callStep i msw block => s.callStep i msw block
    | s, .umount => some { s with umounts := s.umounts ++ [.lock] }
    | s, .umountStep i kmalloc => s.umountStep i kmalloc
    | s, .mount kzalloc tv =>
      if s.generalFree then some { s with data := s.data.countMount kzalloc tv } else none
    | s, .cleanup => s.cleanupStep
    | s, .startWork => s.startWork
    | s, .finishWork => s.finishWork

namespace Closing

/-- Who may hold which lock and be on the way to `queue_work` while the cleanup is where
it is, and what the queue holds then. -/
structure Inv (s : Closing) : Prop where
  flag : s.data.wqIsDestroyed = s.cleanup.closed
  general : s.cleanup.holdsGeneral = true → ∀ pc ∈ s.umounts, pc.holdsGeneral = false
  write : s.cleanup.holdsWrite = true → ∀ pc ∈ s.calls, pc.holdsRead = false
  calls : s.cleanup.closed = true → ∀ pc ∈ s.calls, pc.queueing = false
  umounts : s.cleanup.closed = true → ∀ pc ∈ s.umounts, pc.queueing = false
  flushing : ∀ lastEpoch upTo, s.cleanup = .flushing lastEpoch upTo → upTo = s.queued.length
  drained : s.cleanup.flushed = true → s.running = none ∧ s.wq = []

variable {s s' : Closing}

theorem Inv.callStep (h : s.Inv) {i : ℕ} {msw block : Bool}
    (hstep : s.callStep i msw block = some s') : s'.Inv := by
  simp only [Closing.callStep, Option.bind_eq_some_iff] at hstep
  obtain ⟨pc, hpc, hstep⟩ := hstep
  have hmem := List.mem_of_getElem? hpc
  split at hstep
  · cases hstep
  rename_i hfree
  obtain ⟨r, hr, rfl⟩ := Option.map_eq_some_iff.mp hstep
  have hclosed (hc : s.cleanup.closed = true) : r.1.queueing = false ∧ r.2 = [] :=
    CallPc.step_closed (h.flag.trans hc) (h.calls hc pc hmem) hr
  refine ⟨h.flag, h.general, fun hw pc' hpc' => ?_, fun hc pc' hpc' => ?_, h.umounts,
    fun lastEpoch upTo hf => ?_, fun hf => ?_⟩
  · rcases List.mem_or_eq_of_mem_set hpc' with hold | rfl
    · exact h.write hw pc' hold
    · by_contra hread
      rcases CallPc.holdsRead_step hr (by simpa using hread) with hheld | hlock
      · simp [h.write hw pc hmem] at hheld
      · exact hfree ⟨hlock, hw⟩
  · rcases List.mem_or_eq_of_mem_set hpc' with hold | rfl
    · exact h.calls hc pc' hold
    · exact (hclosed hc).1
  · have hc : s.cleanup.closed = true := by rw [show s.cleanup = _ from hf]; rfl
    simpa [queued, (hclosed hc).2] using h.flushing lastEpoch upTo hf
  · simpa [(hclosed (CleanupPc.closed_of_flushed hf)).2] using h.drained hf

theorem Inv.umountStep (h : s.Inv) {i : ℕ} {kmalloc : Bool}
    (hstep : s.umountStep i kmalloc = some s') : s'.Inv := by
  simp only [Closing.umountStep, Option.bind_eq_some_iff] at hstep
  obtain ⟨pc, hpc, hstep⟩ := hstep
  have hmem := List.mem_of_getElem? hpc
  split at hstep
  · cases hstep
  rename_i hfree
  obtain ⟨r, hr, rfl⟩ := Option.map_eq_some_iff.mp hstep
  have hclosed (hc : s.cleanup.closed = true) : r.1.queueing = false ∧ r.2.2 = [] :=
    UmountPc.step_closed (h.flag.trans hc) (h.umounts hc pc hmem) hr
  refine ⟨(UmountPc.step_wqIsDestroyed hr).trans h.flag, fun hg pc' hpc' => ?_, h.write, h.calls,
    fun hc pc' hpc' => ?_, fun lastEpoch upTo hf => ?_, fun hf => ?_⟩
  · rcases List.mem_or_eq_of_mem_set hpc' with hold | rfl
    · exact h.general hg pc' hold
    · by_contra
      rcases UmountPc.holdsGeneral_step hr with hholds | hlock
      · simp [h.general hg pc hmem] at hholds
      · have hg' : s.cleanup.holdsGeneral = true := hg
        exact hfree ⟨hlock, by simp [generalFree, hg']⟩
  · rcases List.mem_or_eq_of_mem_set hpc' with hold | rfl
    · exact h.umounts hc pc' hold
    · exact (hclosed hc).1
  · have hc : s.cleanup.closed = true := by rw [show s.cleanup = _ from hf]; rfl
    simpa [queued, (hclosed hc).2] using h.flushing lastEpoch upTo hf
  · simpa [(hclosed (CleanupPc.closed_of_flushed hf)).2] using h.drained hf

/-- When all works that were queued are finished, none runs or waits. -/
theorem empty_of_finished (h : s.queued.length ≤ s.finished.length) :
    s.running = none ∧ s.wq = [] := by
  simp only [queued, List.length_append] at h
  refine ⟨?_, List.eq_nil_of_length_eq_zero (by omega)⟩
  cases hr : s.running with
  | none => rfl
  | some work =>
    simp only [hr, Option.toList_some, List.length_singleton] at h
    omega

/-- A step that leaves the flag, the calls, the umount events and the queue alone. -/
theorem Inv.goesOn (h : s.Inv) {data : ObjectData} {pc : CleanupPc}
    (hdata : data.wqIsDestroyed = s.data.wqIsDestroyed) (hclosed : pc.closed = s.cleanup.closed)
    (hg : pc.holdsGeneral = true → s.cleanup.holdsGeneral = true)
    (hw : pc.holdsWrite = true → s.cleanup.holdsWrite = true)
    (hf : ∀ lastEpoch upTo, pc = .flushing lastEpoch upTo → upTo = s.queued.length)
    (hd : pc.flushed = true → s.running = none ∧ s.wq = []) :
    Inv { s with data := data, cleanup := pc } where
  flag := (hdata.trans h.flag).trans hclosed.symm
  general hc := h.general (hg hc)
  write hc := h.write (hw hc)
  calls hc := h.calls (hclosed ▸ hc)
  umounts hc := h.umounts (hclosed ▸ hc)
  flushing := hf
  drained := hd

theorem Inv.cleanupStep (h : s.Inv) (hstep : s.cleanupStep = some s') : s'.Inv := by
  unfold Closing.cleanupStep at hstep
  split at hstep
  · rename_i hpc
    split at hstep
    · rename_i hfree
      cases hstep
      have hall : ∀ pc ∈ s.umounts, pc.holdsGeneral = false := by
        simpa [generalFree, hpc, CleanupPc.holdsGeneral] using hfree
      refine ⟨?_, fun _ => hall, nofun, nofun, nofun, nofun, nofun⟩
      exact h.flag.trans (by rw [hpc]; rfl)
    · cases hstep
  · rename_i hpc
    split at hstep
    · rename_i hfree
      cases hstep
      refine ⟨?_, fun _ => h.general (by rw [hpc]; rfl), fun _ => by simpa using hfree, nofun,
        nofun,
        nofun, nofun⟩
      exact h.flag.trans (by rw [hpc]; rfl)
    · cases hstep
  · rename_i hpc
    cases hstep
    have hgeneral := h.general (by rw [hpc]; rfl)
    have hwrite := h.write (by rw [hpc]; rfl)
    refine ⟨rfl, fun _ => hgeneral, fun _ => hwrite, fun _ pc hmem => ?_, fun _ pc hmem => ?_,
      nofun,
      nofun⟩
    · by_contra hq
      have := CallPc.holdsRead_of_queueing (by simpa using hq)
      simp [hwrite pc hmem] at this
    · by_contra hq
      have := UmountPc.holdsGeneral_of_queueing (by simpa using hq)
      simp [hgeneral pc hmem] at this
  · rename_i hpc
    cases hstep
    exact h.goesOn rfl (by rw [hpc]; rfl) (by simp [hpc, CleanupPc.holdsGeneral]) nofun nofun nofun
  · rename_i hpc
    cases hstep
    exact h.goesOn rfl (by rw [hpc]; rfl) (by simp [hpc, CleanupPc.holdsGeneral]) nofun nofun nofun
  · rename_i hpc
    cases hstep
    exact h.goesOn rfl (by rw [hpc]; rfl) nofun nofun nofun nofun
  · rename_i hpc
    cases hstep
    exact h.goesOn rfl (by rw [hpc]; rfl) nofun nofun nofun nofun
  · rename_i hpc
    cases hstep
    refine h.goesOn rfl (by rw [hpc]; rfl) nofun nofun ?_ nofun
    rintro _ _ ⟨⟩
    rfl
  · rename_i hpc
    split at hstep
    · rename_i hfinished
      cases hstep
      refine h.goesOn rfl (by rw [hpc]; rfl) nofun nofun nofun fun _ => ?_
      exact empty_of_finished (h.flushing _ _ hpc ▸ hfinished)
    · cases hstep
  · rename_i hpc
    split at hstep
    · cases hstep
      exact h.goesOn rfl (by rw [hpc]; rfl) nofun nofun nofun fun _ => h.drained (by rw [hpc]; rfl)
    · cases hstep
  · rename_i hpc
    cases hstep
    exact h.goesOn rfl (by rw [hpc]; rfl) nofun nofun nofun fun _ => h.drained (by rw [hpc]; rfl)
  · cases hstep

/-- A work that starts or finishes moves within the queue. -/
theorem queued_startWork (hstep : s.startWork = some s') : s'.queued = s.queued := by
  unfold Closing.startWork at hstep
  split at hstep
  · rename_i hrun hwq
    cases hstep
    simp [queued, hrun, hwq]
  · cases hstep

theorem queued_finishWork (hstep : s.finishWork = some s') : s'.queued = s.queued := by
  obtain ⟨work, hrun, rfl⟩ := Option.map_eq_some_iff.mp hstep
  simp [queued, hrun]

theorem Inv.startWork (h : s.Inv) (hstep : s.startWork = some s') : s'.Inv := by
  have hqueued := queued_startWork hstep
  unfold Closing.startWork at hstep
  split at hstep
  · rename_i hwq
    cases hstep
    refine ⟨h.flag, h.general, h.write, h.calls, h.umounts, fun lastEpoch upTo hf => ?_,
      fun hf => ?_⟩
    · rw [hqueued]
      exact h.flushing lastEpoch upTo hf
    · simp [(h.drained hf).2] at hwq
  · cases hstep

theorem Inv.finishWork (h : s.Inv) (hstep : s.finishWork = some s') : s'.Inv := by
  have hqueued := queued_finishWork hstep
  obtain ⟨work, hrun, rfl⟩ := Option.map_eq_some_iff.mp hstep
  refine ⟨h.flag, h.general, h.write, h.calls, h.umounts, fun lastEpoch upTo hf => ?_, fun hf => ?_⟩
  · rw [hqueued]
    exact h.flushing lastEpoch upTo hf
  · exact ⟨rfl, (h.drained hf).2⟩

theorem Inv.next (h : s.Inv) {a : ClosingAct} (hstep : closingMachine.step s a = some s') :
    s'.Inv := by
  cases a with
  | call =>
    cases hstep
    refine ⟨h.flag, h.general, fun hw pc hpc => ?_, fun hc pc hpc => ?_, h.umounts, h.flushing,
      h.drained⟩
    · rcases List.mem_append.mp hpc with hold | hnew
      · exact h.write hw pc hold
      · rw [List.mem_singleton.mp hnew]
        rfl
    · rcases List.mem_append.mp hpc with hold | hnew
      · exact h.calls hc pc hold
      · rw [List.mem_singleton.mp hnew]
        rfl
  | callStep i msw block => exact h.callStep hstep
  | umount =>
    cases hstep
    refine ⟨h.flag, fun hg pc hpc => ?_, h.write, h.calls, fun hc pc hpc => ?_, h.flushing,
      h.drained⟩
    · rcases List.mem_append.mp hpc with hold | hnew
      · exact h.general hg pc hold
      · rw [List.mem_singleton.mp hnew]
        rfl
    · rcases List.mem_append.mp hpc with hold | hnew
      · exact h.umounts hc pc hold
      · rw [List.mem_singleton.mp hnew]
        rfl
  | umountStep i kmalloc => exact h.umountStep hstep
  | mount kzalloc tv =>
    simp only [closingMachine] at hstep
    split at hstep
    · cases hstep
      exact h.goesOn rfl rfl id id h.flushing h.drained
    · cases hstep
  | cleanup => exact h.cleanupStep hstep
  | startWork => exact h.startWork hstep
  | finishWork => exact h.finishWork hstep

theorem inv_of_reachable (h : closingMachine.Reachable s) : s.Inv := by
  refine h.invariant (fun s hs => ?_) fun s a s' hinv _ hstep => hinv.next hstep
  obtain ⟨hflag, hcalls, humounts, hcleanup, -⟩ := hs
  refine ⟨by rw [hflag, hcleanup]; rfl, ?_, ?_, ?_, ?_, ?_, ?_⟩ <;>
    simp [hcalls, humounts, hcleanup, CleanupPc.flushed]

/-- With the flag set no step puts a work on the queue. -/
theorem Inv.queued_step (h : s.Inv) (hflag : s.data.wqIsDestroyed = true) {a : ClosingAct}
    (hstep : closingMachine.step s a = some s') : s'.queued = s.queued := by
  have hclosed : s.cleanup.closed = true := h.flag.symm.trans hflag
  cases a with
  | call | umount =>
    cases hstep
    rfl
  | callStep i msw block =>
    simp only [closingMachine, Closing.callStep, Option.bind_eq_some_iff] at hstep
    obtain ⟨pc, hpc, hstep⟩ := hstep
    split at hstep
    · cases hstep
    obtain ⟨r, hr, rfl⟩ := Option.map_eq_some_iff.mp hstep
    have hnil := (CallPc.step_closed hflag (h.calls hclosed pc (List.mem_of_getElem? hpc)) hr).2
    simp [queued, hnil]
  | umountStep i kmalloc =>
    simp only [closingMachine, Closing.umountStep, Option.bind_eq_some_iff] at hstep
    obtain ⟨pc, hpc, hstep⟩ := hstep
    split at hstep
    · cases hstep
    obtain ⟨r, hr, rfl⟩ := Option.map_eq_some_iff.mp hstep
    have hnil := (UmountPc.step_closed hflag (h.umounts hclosed pc (List.mem_of_getElem? hpc)) hr).2
    simp [queued, hnil]
  | mount kzalloc tv =>
    simp only [closingMachine] at hstep
    split at hstep
    · cases hstep
      rfl
    · cases hstep
  | cleanup =>
    simp only [closingMachine, Closing.cleanupStep] at hstep
    split at hstep <;> (try split at hstep) <;> cases hstep <;> rfl
  | startWork => exact queued_startWork hstep
  | finishWork => exact queued_finishWork hstep

/-- Nothing clears the flag. -/
theorem flag_step (hflag : s.data.wqIsDestroyed = true) {a : ClosingAct}
    (hstep : closingMachine.step s a = some s') : s'.data.wqIsDestroyed = true := by
  cases a with
  | call | umount =>
    cases hstep
    exact hflag
  | callStep i msw block =>
    simp only [closingMachine, Closing.callStep, Option.bind_eq_some_iff] at hstep
    obtain ⟨pc, -, hstep⟩ := hstep
    split at hstep
    · cases hstep
    obtain ⟨r, -, rfl⟩ := Option.map_eq_some_iff.mp hstep
    exact hflag
  | umountStep i kmalloc =>
    simp only [closingMachine, Closing.umountStep, Option.bind_eq_some_iff] at hstep
    obtain ⟨pc, -, hstep⟩ := hstep
    split at hstep
    · cases hstep
    obtain ⟨r, hr, rfl⟩ := Option.map_eq_some_iff.mp hstep
    exact (UmountPc.step_wqIsDestroyed hr).trans hflag
  | mount kzalloc tv =>
    simp only [closingMachine] at hstep
    split at hstep
    · cases hstep
      exact hflag
    · cases hstep
  | cleanup =>
    simp only [closingMachine, Closing.cleanupStep] at hstep
    split at hstep <;> (try split at hstep) <;> cases hstep <;> first | exact hflag | rfl
  | startWork =>
    simp only [closingMachine, Closing.startWork] at hstep
    split at hstep
    · cases hstep
      exact hflag
    · cases hstep
  | finishWork =>
    obtain ⟨work, -, rfl⟩ := Option.map_eq_some_iff.mp hstep
    exact hflag

/-- What a deactivation promises: the deferred work begins on a closed queue, a closed
queue gets no more works, and once it is flushed every work that was ever queued has
finished. -/
structure Drains (s : Closing) : Prop where
  flagged : s.cleanup.deferred = true → s.data.wqIsDestroyed = true
  closed : s.data.wqIsDestroyed = true → ∀ acts,
    closingMachine.Throughout (fun t => t.queued = s.queued) s acts
  finished : s.cleanup.flushed = true → s.queued = s.finished

end Closing

open Closing

/-- The queue is closed before it is flushed, and the epoch that the cleanup took over is
destroyed behind every work. -/
theorem deactivation_drains {s : Closing} (h : closingMachine.Reachable s) : s.Drains := by
  have hinv := inv_of_reachable h
  refine ⟨fun hd => hinv.flag.trans (CleanupPc.closed_of_deferred hd), fun hflag acts => ?_,
    fun hf => ?_⟩
  · refine Machine.throughout_of_meets
      (I := fun t => t.Inv ∧ t.data.wqIsDestroyed = true ∧ t.queued = s.queued) (fun t ht => ht.2.2)
      (fun t a t' ht _ hstep => ?_) ⟨hinv, hflag, rfl⟩ (Machine.meets_trivial s acts)
    obtain ⟨ht, hflag, hqueued⟩ := ht
    exact ⟨ht.next hstep, flag_step hflag hstep, (ht.queued_step hflag hstep).trans hqueued⟩
  · obtain ⟨hrun, hwq⟩ := hinv.drained hf
    simp [queued, hrun, hwq]

/-- A device that is registered and not mounted. -/
def idleClosing : Closing := ⟨initObjectData "/img".toList, [], [], .generalLock, [], none, []⟩

/-- A call queues a work; the cleanup begins before the call gives its lock back and
waits for the work. -/
def closeWithinCall : List ClosingAct :=
  [ClosingAct.mount (some 0) mountTime, .call] ++
    List.replicate 10 (ClosingAct.callStep 0 true true) ++
    [ClosingAct.cleanup, .callStep 0 true true] ++ List.replicate 7 ClosingAct.cleanup ++
    [ClosingAct.startWork, .finishWork] ++ List.replicate 3 ClosingAct.cleanup

theorem deactivation_drains_within_call :
    ∃ s, closingMachine.run idleClosing closeWithinCall = some s ∧ s.cleanup = .done (some 0) ∧
      s.Drains := by
  have hinit : closingMachine.init idleClosing := ⟨rfl, rfl, rfl, rfl, rfl⟩
  have hrun := Machine.run_eq_getD closingMachine idleClosing closeWithinCall (by decide +kernel)
  exact ⟨_, hrun, by decide +kernel, deactivation_drains (Machine.reachable_of_run hinit _ hrun)⟩

end BlkdevSnapshot

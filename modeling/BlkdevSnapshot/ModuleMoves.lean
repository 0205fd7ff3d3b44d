import BlkdevSnapshot.LoadedModule

/-!
# What the steps of the loaded module do

Every step is described once: what a thread or the sweep does to the handlers and to the
freed nodes, what a step on a queue does to its works, how an object moves through its
phases, and what each step of the exit has waited for.
-/
namespace BlkdevSnapshot


/-! ## Threads and the sweep -/

/-- Where a step may lead the handler of its thread. -/
def CaptureAct.leadsTo : CaptureAct → HandlerPc → Bool
  | .bread _ _, .memcpy _ _ | .bread _ _, .stuck => true
  | .writeDirtyBuffer _ _, .makeSnapshot _ _ _ | .writeDirtyBuffer _ _, .bug _ => true
  | .returnWrite _, .vfsWrite _ => true
  | .memcpy _, .outside | .makeSnapshot _, .outside => true
  | .removeThreadentry _, .outside | .removeThreadentry _, .stuck => true
  | _, _ => false

/-- The thread that a step starts. -/
def CaptureAct.spawns : CaptureAct → List XkpblocksKey
  | .spawn key => [key]
  | _ => []

namespace CaptureState

variable {hash : XkpblocksKey → ℕ} {s s' : CaptureState} {a : CaptureAct} {tid : UInt64}

/-- A task goes on as the same thread, in the handler where it was or where the step leads. -/
def Continues (a : CaptureAct) (t t' : Task) : Prop :=
  t'.tstart = t.tstart ∧ (t'.exited = false → t.exited = false) ∧
    (t'.handler = t.handler ∨ a.leadsTo t'.handler = true)

theorem Continues.refl (a : CaptureAct) (t : Task) : Continues a t t := ⟨rfl, id, .inl rfl⟩

/-- What a step does to the threads, the sweep and the nodes that were freed. -/
structure StepEffect (a : CaptureAct) (s s' : CaptureState) : Prop where
  tasks : ∀ tid t', s'.pids tid = some t' →
    (∃ t, s.pids tid = some t ∧ Continues a t t') ∨
      ⟨tid, t'.tstart⟩ ∈ a.spawns ∧ t'.handler = .outside
  used : s'.used = s.used ++ a.spawns
  freed : s'.table.freed = s.table.freed ∨ s.sweep.isSome = true ∨
    ∃ tid t, s.thread tid = some t ∧ (t.handler.inKretprobe || t.handler.inKprobe) = true
  sweep : s.sweep = none → s'.sweep = none ∨ a = .sweepStart

/-- The effect of a step of the sweep. -/
theorem StepEffect.ofSweep (hpids : s'.pids = s.pids) (hspawns : a.spawns = [])
    (hused : s'.used = s.used) (hfreed : s'.table.freed = s.table.freed ∨ s.sweep.isSome = true)
    (hsweep : s.sweep = none → s'.sweep = none ∨ a = .sweepStart) : StepEffect a s s' where
  tasks _ t' ht' := .inl ⟨t', hpids ▸ ht', .refl a t'⟩
  used := by rw [hspawns, hused, List.append_nil]
  freed := hfreed.imp_right .inl
  sweep := hsweep

theorem StepEffect.refl (hspawns : a.spawns = []) : StepEffect a s s :=
  .ofSweep rfl hspawns rfl (.inl rfl) .inl

/-- The effect of a step of one thread. -/
theorem StepEffect.ofThread {t t' : Task} (ht : s.thread tid = some t)
    (hpids : s'.pids = Function.update s.pids tid (some t')) (h : Continues a t t')
    (hspawns : a.spawns = []) (hused : s'.used = s.used) (hsweep : s'.sweep = s.sweep)
    (hfreed : s'.table.freed = s.table.freed ∨
      (t.handler.inKretprobe || t.handler.inKprobe) = true) : StepEffect a s s' where
  tasks tid' t'' ht'' := by
    rw [hpids] at ht''
    by_cases hne : tid' = tid
    · subst hne
      rw [Function.update_self, Option.some.injEq] at ht''
      subst ht''
      exact .inl ⟨t, (thread_eq_some.mp ht).1, h⟩
    · rw [Function.update_of_ne hne] at ht''
      exact .inl ⟨t'', ht'', .refl a t''⟩
  used := by rw [hspawns, hused, List.append_nil]
  freed := hfreed.imp_right fun h => .inr ⟨tid, t, ht, h⟩
  sweep h := .inl (hsweep.trans h)

theorem stepEffect (hstep : (captureMachine hash).step s a = some s') : StepEffect a s s' := by
  cases a with
  | spawn key =>
    simp only [captureMachine] at hstep
    split at hstep
    · cases hstep
      refine ⟨fun tid t' ht' => ?_, rfl, .inl rfl, .inl⟩
      simp only [setTask] at ht'
      by_cases hne : tid = key.tid
      · subst hne
        rw [Function.update_self, Option.some.injEq] at ht'
        subst ht'
        exact .inr ⟨List.mem_singleton_self key, rfl⟩
      · rw [Function.update_of_ne hne] at ht'
        exact .inl ⟨t', ht', .refl _ t'⟩
    · cases hstep
  | exit tid =>
    obtain ⟨t, ht, rfl⟩ := Option.map_eq_some_iff.mp hstep
    exact .ofThread ht rfl ⟨rfl, by simp, .inl rfl⟩ rfl rfl rfl (.inl rfl)
  | reap tid =>
    simp only [captureMachine, Option.bind_eq_some_iff] at hstep
    obtain ⟨t, ht, hstep⟩ := hstep
    split at hstep
    · cases hstep
      refine ⟨fun tid' t' ht' => ?_, (List.append_nil _).symm, .inl rfl, .inl⟩
      simp only at ht'
      by_cases hne : tid' = tid
      · subst hne
        simp at ht'
      · rw [Function.update_of_ne hne] at ht'
        exact .inl ⟨t', ht', .refl _ t'⟩
    · cases hstep
  | enterWrite tid node =>
    simp only [captureMachine, CaptureState.enterWrite, Option.bind_eq_some_iff] at hstep
    obtain ⟨t, ht, hstep⟩ := hstep
    split at hstep
    · rcases node with - | block
      · cases hstep
        exact .ofThread ht rfl ⟨rfl, id, .inl rfl⟩ rfl rfl rfl (.inl rfl)
      · simp only at hstep
        split at hstep
        · cases hstep
        · cases hstep
          exact .ofThread ht rfl ⟨rfl, id, .inl rfl⟩ rfl rfl rfl (.inl rfl)
    · cases hstep
  | bread tid bh =>
    simp only [captureMachine, CaptureState.bread, Option.bind_eq_some_iff] at hstep
    obtain ⟨t, ht, hstep⟩ := hstep
    split at hstep
    · split at hstep
      · cases hstep
        exact .refl rfl
      · cases hstep
        exact .ofThread ht rfl ⟨rfl, id, .inl rfl⟩ rfl rfl rfl (.inl rfl)
      · cases hstep
        exact .ofThread ht rfl ⟨rfl, id, .inr rfl⟩ rfl rfl rfl (.inl rfl)
      · cases hstep
        exact .ofThread ht rfl ⟨rfl, id, .inr rfl⟩ rfl rfl rfl (.inl rfl)
    · cases hstep
  | memcpy tid =>
    simp only [captureMachine, CaptureState.memcpy, Option.bind_eq_some_iff] at hstep
    obtain ⟨t, ht, hstep⟩ := hstep
    split at hstep
    · cases hstep
      exact .ofThread ht rfl ⟨rfl, id, .inr rfl⟩ rfl rfl rfl (.inl rfl)
    · cases hstep
  | writeDirtyBuffer tid bh =>
    simp only [captureMachine, CaptureState.writeDirtyBuffer, Option.bind_eq_some_iff] at hstep
    obtain ⟨t, ht, hstep⟩ := hstep
    split at hstep
    · split at hstep
      · cases hstep
        exact .refl rfl
      · split at hstep
        · cases hstep
          exact .refl rfl
        · cases hstep
          exact .ofThread ht rfl ⟨rfl, id, .inr rfl⟩ rfl rfl rfl (.inl rfl)
        · cases hstep
          exact .ofThread ht rfl ⟨rfl, id, .inr rfl⟩ rfl rfl rfl (.inl rfl)
    · cases hstep
  | makeSnapshot tid =>
    simp only [captureMachine, CaptureState.makeSnapshot, Option.bind_eq_some_iff] at hstep
    obtain ⟨t, ht, hstep⟩ := hstep
    split at hstep
    · cases hstep
      exact .ofThread ht rfl ⟨rfl, id, .inr rfl⟩ rfl rfl rfl (.inl rfl)
    · cases hstep
  | returnWrite tid =>
    simp only [captureMachine, CaptureState.returnWrite, Option.bind_eq_some_iff] at hstep
    obtain ⟨t, ht, hstep⟩ := hstep
    split at hstep
    · split at hstep
      · cases hstep
      · cases hstep
        exact .ofThread ht rfl ⟨rfl, id, .inl rfl⟩ rfl rfl rfl (.inl rfl)
      · split at hstep
        · cases hstep
          exact .ofThread ht rfl ⟨rfl, id, .inl rfl⟩ rfl rfl rfl (.inl rfl)
        · cases hstep
          exact .ofThread ht rfl ⟨rfl, id, .inr rfl⟩ rfl rfl rfl (.inl rfl)
    · cases hstep
  | removeThreadentry tid =>
    simp only [captureMachine, CaptureState.removeThreadentry, Option.bind_eq_some_iff] at hstep
    obtain ⟨t, ht, hstep⟩ := hstep
    split at hstep
    · cases hstep
    · split at hstep
      · rename_i hpc
        cases hstep
        exact .ofThread ht rfl ⟨rfl, id, .inr rfl⟩ rfl rfl rfl
          (.inr (by simp [hpc, HandlerPc.inKretprobe]))
      · rename_i hpc
        cases hstep
        exact .ofThread ht rfl ⟨rfl, id, .inr rfl⟩ rfl rfl rfl
          (.inr (by simp [hpc, HandlerPc.inKprobe]))
      · cases hstep
  | sweepStart =>
    simp only [captureMachine, CaptureState.sweepStart] at hstep
    split at hstep
    · cases hstep
    · cases hstep
      exact .ofSweep rfl rfl rfl (.inl rfl) fun _ => .inr rfl
  | sweepNode =>
    simp only [captureMachine, CaptureState.sweepNode, Option.bind_eq_some_iff] at hstep
    obtain ⟨sw, hsw, hstep⟩ := hstep
    have hrunning : s.sweep.isSome = true := by simp [hsw]
    split at hstep
    · cases hstep
    · split at hstep
      · cases hstep
        exact .ofSweep rfl rfl rfl (.inl rfl) fun hnone => by simp [hsw] at hnone
      · cases hstep
        exact .ofSweep rfl rfl rfl (.inr hrunning) fun hnone => by simp [hsw] at hnone
  | sweepBucket =>
    simp only [captureMachine, CaptureState.sweepBucket, Option.bind_eq_some_iff] at hstep
    obtain ⟨sw, hsw, hstep⟩ := hstep
    split at hstep
    · cases hstep
      exact .ofSweep rfl rfl rfl (.inl rfl) fun hnone => by simp [hsw] at hnone
    · cases hstep
  | sweepEnd =>
    simp only [captureMachine, CaptureState.sweepEnd, Option.bind_eq_some_iff] at hstep
    obtain ⟨sw, -, hstep⟩ := hstep
    split at hstep
    · cases hstep
      exact .ofSweep rfl rfl rfl (.inl rfl) fun _ => .inl rfl
    · cases hstep

/-- Every thread that is not reaped was started. -/
def Known (s : CaptureState) : Prop := ∀ tid t, s.pids tid = some t → ⟨tid, t.tstart⟩ ∈ s.used

/-- No thread is in a handler of a kind. -/
def Without (kind : HandlerPc → Bool) (s : CaptureState) : Prop :=
  ∀ tid t, s.thread tid = some t → kind t.handler = false

theorem Without.of_pids {kind : HandlerPc → Bool} (h : s.Without kind) (hpids : s'.pids = s.pids) :
    s'.Without kind := by
  intro tid t ht
  unfold thread at ht
  rw [hpids] at ht
  exact h tid t ht

theorem StepEffect.known (h : StepEffect a s s') (hs : s.Known) : s'.Known := by
  intro tid t' ht'
  rw [h.used, List.mem_append]
  rcases h.tasks tid t' ht' with ⟨t, ht, htstart, -⟩ | ⟨hspawn, -⟩
  · exact .inl (htstart ▸ hs tid t ht)
  · exact .inr hspawn

/-- A step that leads into no handler of a kind keeps the threads out of them. -/
theorem StepEffect.without (h : StepEffect a s s') {kind : HandlerPc → Bool}
    (hkind : ∀ pc, a.leadsTo pc = true → kind pc = false) (houtside : kind .outside = false)
    (hs : s.Without kind) : s'.Without kind := by
  intro tid t' ht'
  obtain ⟨ht', halive⟩ := thread_eq_some.mp ht'
  rcases h.tasks tid t' ht' with ⟨t, ht, -, hexited, hpc | hleads⟩ | ⟨-, hpc⟩
  · rw [hpc]
    exact hs tid t (thread_eq_some.mpr ⟨ht, hexited halive⟩)
  · exact hkind _ hleads
  · rw [hpc]
    exact houtside

/-- Without handlers and without a sweep nothing is freed. -/
theorem StepEffect.freed_eq (h : StepEffect a s s') (hkret : s.Without HandlerPc.inKretprobe)
    (hkp : s.Without HandlerPc.inKprobe) (hsweep : s.sweep = none) :
    s'.table.freed = s.table.freed := by
  rcases h.freed with hfreed | hrunning | ⟨tid, t, ht, hin⟩
  · exact hfreed
  · simp [hsweep] at hrunning
  · simp [hkret tid t ht, hkp tid t ht] at hin

/-! ## The end of the table -/

/-- No bucket has a node. -/
def HtEmpty (s : CaptureState) : Prop := ∀ bktnr < xkpblocksHtSize, s.table.chains bktnr = []

theorem freed_foldl_unlink (l : List (Entry XkpblocksKey)) (T : ChainedTable XkpblocksKey) :
    (l.foldl (fun T cur => T.unlink cur.addr) T).freed = T.freed ++ l.map Entry.addr := by
  induction l generalizing T with
  | nil => simp
  | cons cur l ih =>
    rw [List.foldl_cons, ih]
    simp [ChainedTable.unlink]

theorem cleanup_eq {l : List ℕ} {T : ChainedTable XkpblocksKey}
    (h : ∀ bktnr ∈ l, T.chains bktnr = []) :
    l.foldl (fun T bktnr => (T.chains bktnr).foldl (fun T cur => T.unlink cur.addr) T) T = T := by
  induction l with
  | nil => rfl
  | cons bktnr l ih =>
    rw [List.foldl_cons, h bktnr List.mem_cons_self]
    exact ih fun b hb => h b (List.mem_cons_of_mem _ hb)

theorem length_freed_cleanup (l : List ℕ) (T : ChainedTable XkpblocksKey) :
    T.freed.length ≤ (l.foldl (fun T bktnr =>
      (T.chains bktnr).foldl (fun T cur => T.unlink cur.addr) T) T).freed.length := by
  induction l generalizing T with
  | nil => exact le_rfl
  | cons bktnr l ih =>
    refine le_trans ?_ (ih _)
    simp [freed_foldl_unlink]

/-- The first bucket with a node frees it. -/
theorem length_freed_cleanup_lt {l : List ℕ} {T : ChainedTable XkpblocksKey}
    (h : ∃ bktnr ∈ l, T.chains bktnr ≠ []) :
    T.freed.length < (l.foldl (fun T bktnr =>
      (T.chains bktnr).foldl (fun T cur => T.unlink cur.addr) T) T).freed.length := by
  induction l with
  | nil => simp at h
  | cons bktnr l ih =>
    by_cases hnil : T.chains bktnr = []
    · rw [List.foldl_cons, hnil]
      refine ih ?_
      simpa [hnil] using h
    · refine lt_of_lt_of_le ?_ (length_freed_cleanup l _)
      have hpos : 0 < (T.chains bktnr).length := List.length_pos_of_ne_nil hnil
      simpa [freed_foldl_unlink] using hpos

theorem cleanupXkpblocksHt_of_empty (h : s.HtEmpty) : s.cleanupXkpblocksHt = s := by
  unfold cleanupXkpblocksHt
  rw [cleanup_eq fun bktnr hb => h bktnr (List.mem_range.mp hb)]

theorem cleanupXkpblocksHt_frame (s : CaptureState) :
    s.cleanupXkpblocksHt.pids = s.pids ∧ s.cleanupXkpblocksHt.used = s.used ∧
      s.cleanupXkpblocksHt.sweep = s.sweep := by
  unfold cleanupXkpblocksHt
  generalize List.foldl _ _ _ = table
  exact ⟨rfl, rfl, rfl⟩

theorem length_freed_cleanupXkpblocksHt (h : ¬ s.HtEmpty) :
    s.table.freed.length < s.cleanupXkpblocksHt.table.freed.length := by
  simp only [HtEmpty, not_forall] at h
  obtain ⟨bktnr, hlt, hne⟩ := h
  exact length_freed_cleanup_lt ⟨bktnr, List.mem_range.mpr hlt, hne⟩

end CaptureState
/-! ## Queues -/

namespace CleanupPc

theorem closed_of_allocates {pc : CleanupPc} (h : pc.allocates = true) : pc.closed = true := by
  cases pc <;> simp_all [allocates, closed]

theorem busy_of_deferred {pc : CleanupPc} (h : pc.deferred = true) (hbusy : pc.busy = false) :
    pc.flushed = true := by
  cases pc <;> simp_all [deferred, busy, flushed]

theorem deferred_of_busy {pc : CleanupPc} (h : pc.busy = true) : pc.deferred = true := by
  cases pc <;> simp_all [deferred, busy]

theorem not_busy_of_not_deferred {pc : CleanupPc} (h : pc.deferred = false) : pc.busy = false := by
  cases pc <;> simp_all [deferred, busy]

theorem not_deferred_of_allocates {pc : CleanupPc} (h : pc.allocates = true) :
    pc.deferred = false := by
  cases pc <;> simp_all [allocates, deferred]

end CleanupPc

namespace Closing

variable {c c' : Closing} {a : ClosingAct}

/-- No work is queued or running. -/
def Idle (c : Closing) : Prop := c.running = none ∧ c.wq = []

instance : Decidable c.Idle := inferInstanceAs (Decidable (_ ∧ _))

/-- Only `cleanup_object_data` and its deferred work move themselves on. -/
theorem cleanup_eq (ha : a ≠ .cleanup) (hstep : closingMachine.step c a = some c') :
    c'.cleanup = c.cleanup := by
  cases a with
  | call | umount =>
    cases hstep
    rfl
  | callStep i msw block =>
    simp only [closingMachine, Closing.callStep, Option.bind_eq_some_iff] at hstep
    obtain ⟨pc, -, hstep⟩ := hstep
    split at hstep
    · cases hstep
    · obtain ⟨r, -, rfl⟩ := Option.map_eq_some_iff.mp hstep
      rfl
  | umountStep i kmalloc =>
    simp only [closingMachine, Closing.umountStep, Option.bind_eq_some_iff] at hstep
    obtain ⟨pc, -, hstep⟩ := hstep
    split at hstep
    · cases hstep
    · obtain ⟨r, -, rfl⟩ := Option.map_eq_some_iff.mp hstep
      rfl
  | mount kzalloc tv =>
    simp only [closingMachine] at hstep
    split at hstep
    · cases hstep
      rfl
    · cases hstep
  | cleanup => exact absurd rfl ha
  | startWork =>
    simp only [closingMachine, Closing.startWork] at hstep
    split at hstep
    · cases hstep
      rfl
    · cases hstep
  | finishWork =>
    obtain ⟨work, -, rfl⟩ := Option.map_eq_some_iff.mp hstep
    rfl

/-- The deferred work goes on as such, and `cleanup_object_data` gets there by its
allocations only. -/
theorem deferred_cleanupStep (hstep : c.cleanupStep = some c') :
    c'.cleanup.deferred = (c.cleanup.deferred || c.cleanup.allocates) := by
  simp only [Closing.cleanupStep] at hstep
  split at hstep <;> rename_i hpc <;> (try split at hstep) <;> cases hstep <;>
    simp [hpc, CleanupPc.deferred, CleanupPc.allocates]

/-- A step other than the start or end of a work takes nothing from the queue. -/
theorem queue_step (hstart : a ≠ .startWork) (hfinish : a ≠ .finishWork)
    (hstep : closingMachine.step c a = some c') :
    c'.running = c.running ∧ c'.finished = c.finished ∧ ∃ l, c'.wq = c.wq ++ l := by
  cases a with
  | call | umount =>
    cases hstep
    exact ⟨rfl, rfl, [], (List.append_nil _).symm⟩
  | callStep i msw block =>
    simp only [closingMachine, Closing.callStep, Option.bind_eq_some_iff] at hstep
    obtain ⟨pc, -, hstep⟩ := hstep
    split at hstep
    · cases hstep
    · obtain ⟨r, -, rfl⟩ := Option.map_eq_some_iff.mp hstep
      exact ⟨rfl, rfl, _, rfl⟩
  | umountStep i kmalloc =>
    simp only [closingMachine, Closing.umountStep, Option.bind_eq_some_iff] at hstep
    obtain ⟨pc, -, hstep⟩ := hstep
    split at hstep
    · cases hstep
    · obtain ⟨r, -, rfl⟩ := Option.map_eq_some_iff.mp hstep
      exact ⟨rfl, rfl, _, rfl⟩
  | mount kzalloc tv =>
    simp only [closingMachine] at hstep
    split at hstep
    · cases hstep
      exact ⟨rfl, rfl, [], (List.append_nil _).symm⟩
    · cases hstep
  | cleanup =>
    simp only [closingMachine, Closing.cleanupStep] at hstep
    split at hstep <;> (try split at hstep) <;> cases hstep <;>
      exact ⟨rfl, rfl, [], (List.append_nil _).symm⟩
  | startWork => exact absurd rfl hstart
  | finishWork => exact absurd rfl hfinish

/-- A queue that is idle and closed stays idle. -/
theorem Inv.idle_step (h : c.Inv) (hclosed : c.cleanup.closed = true) (hidle : c.Idle)
    (hstep : closingMachine.step c a = some c') : c'.Idle := by
  obtain ⟨hrunning, hwq⟩ := hidle
  by_cases hstart : a = .startWork
  · subst hstart
    simp [closingMachine, Closing.startWork, hrunning, hwq] at hstep
  by_cases hfinish : a = .finishWork
  · subst hfinish
    simp [closingMachine, Closing.finishWork, hrunning] at hstep
  obtain ⟨hrunning', hfinished, l, hwq'⟩ := queue_step hstart hfinish hstep
  have hqueued := h.queued_step (h.flag.trans hclosed) hstep
  simp [queued, hrunning', hfinished, hrunning, hwq', hwq] at hqueued
  exact ⟨hrunning'.trans hrunning, by simp [hwq', hwq, hqueued]⟩

/-- A queue with works keeps them while none starts or ends. -/
theorem not_idle_step (hstart : a ≠ .startWork) (hfinish : a ≠ .finishWork) (h : ¬ c.Idle)
    (hstep : closingMachine.step c a = some c') : ¬ c'.Idle := by
  obtain ⟨hrunning, -, l, hwq⟩ := queue_step hstart hfinish hstep
  rintro ⟨hrunning', hwq'⟩
  rw [hwq, List.append_eq_nil_iff] at hwq'
  exact h ⟨hrunning.symm.trans hrunning', hwq'.1⟩

theorem inv_initClosing (originalDevName : CStr) : (initClosing originalDevName).Inv :=
  inv_of_reachable (.init ⟨rfl, rfl, rfl, rfl, rfl⟩)

end Closing

/-! ## Objects -/

/-- What a step of the module does to object `k`. -/
inductive ObjectMove (act : ModuleAct) (k : ℕ) : ModuleObject → ModuleObject → Prop where
  | stay (o : ModuleObject) : ObjectMove act k o o
  | device {o : ModuleObject} {a : ClosingAct} {c : Closing}
      (hstep : closingMachine.step o.closing a = some c)
      (hcleanup : a = .cleanup →
        o.phase = .cleaning ∧ o.closing.cleanup.allocates = false ∨ o.closing.cleanup.busy = true)
      (hstart : a = .startWork → act = .startWork k)
      (hfinish : a = .finishWork → act = .finishWork k) :
      ObjectMove act k o { o with closing := c }
  | clean {o : ModuleObject} (hphase : o.phase = .registered) :
      ObjectMove act k o { o with phase := .cleaning }
  | schedule {o : ModuleObject} {c : Closing} (hphase : o.phase = .cleaning)
      (hallocates : o.closing.cleanup.allocates = true) (hstep : o.closing.cleanupStep = some c) :
      ObjectMove act k o { o with closing := c, phase := .allocated true }
  | abandon {o : ModuleObject} (hphase : o.phase = .cleaning)
      (hallocates : o.closing.cleanup.allocates = true) {wlistnode wargs : Bool}
      (hfails : (wlistnode && wargs) = false) (hact : act = .allocate k wlistnode wargs) :
      ObjectMove act k o { o with phase := .allocated false }
  | listed {o : ModuleObject} {scheduled : Bool} (hphase : o.phase = .allocated scheduled)
      (hact : act = .updateWorklist k) :
      ObjectMove act k o { o with phase := .cleaned scheduled }

namespace LoadedModule

variable {hash : XkpblocksKey → ℕ} {s s' : LoadedModule} {act : ModuleAct} {i : ℕ}

section Fields
variable (s) (capture : CaptureState) (exitPc : ExitPc)

@[simp] theorem goTo_objects : (s.goTo exitPc).objects = s.objects := rfl

@[simp] theorem goTo_exitPc : (s.goTo exitPc).exitPc = exitPc := rfl

@[simp] theorem goTo_capture : (s.goTo exitPc).capture = s.capture := rfl

@[simp] theorem goTo_sweepPending : (s.goTo exitPc).sweepPending = s.sweepPending := rfl

@[simp] theorem goTo_worklist : (s.goTo exitPc).worklist = s.worklist := rfl

@[simp] theorem goTo_callbacks : (s.goTo exitPc).callbacks = s.callbacks := rfl

@[simp] theorem moveTo_capture : (s.moveTo capture).capture = capture := rfl

@[simp] theorem moveTo_objects : (s.moveTo capture).objects = s.objects := rfl

@[simp] theorem moveTo_sweepPending : (s.moveTo capture).sweepPending = s.sweepPending := rfl

@[simp] theorem moveTo_worklist : (s.moveTo capture).worklist = s.worklist := rfl

@[simp] theorem moveTo_exitPc : (s.moveTo capture).exitPc = s.exitPc := rfl

theorem moveTo_callbacks : (s.moveTo capture).callbacks =
    s.callbacks ++ capture.table.freed.drop s.capture.table.freed.length := rfl

end Fields

/-- Every object moves as it may, and a new one is as `__init_object_data` makes it. -/
structure Moves (act : ModuleAct) (s s' : LoadedModule) : Prop where
  old : ∀ (k : ℕ) (o : ModuleObject), s.objects[k]? = some o →
    ∃ o', s'.objects[k]? = some o' ∧ ObjectMove act k o o'
  new : ∀ (k : ℕ) (o' : ModuleObject), s'.objects[k]? = some o' → s.objects[k]? = none →
    s.exitPc = .loaded ∧ ∃ key name, o' = ⟨key, initClosing name, .registered⟩

theorem moves_same (h : s'.objects = s.objects) : Moves act s s' where
  old k o ho := ⟨o, h ▸ ho, .stay o⟩
  new k o' ho' hnone := by simp [h, hnone] at ho'

theorem moves_set {o o' : ModuleObject} (ho : s.objects[i]? = some o)
    (h : s'.objects = s.objects.set i o') (hmove : ObjectMove act i o o') : Moves act s s' where
  old k ok hk := by
    by_cases hki : i = k
    · subst hki
      obtain rfl : o = ok := Option.some.inj (ho.symm.trans hk)
      refine ⟨o', ?_, hmove⟩
      rw [h, List.getElem?_set_self (List.getElem?_eq_some_iff.mp ho).1]
    · exact ⟨ok, by rw [h, List.getElem?_set_ne hki, hk], .stay ok⟩
  new k o' ho' hnone := by
    rw [h, List.getElem?_eq_some_iff] at ho'
    obtain ⟨hlt, -⟩ := ho'
    rw [List.getElem?_eq_none_iff] at hnone
    rw [List.length_set] at hlt
    omega

theorem device_eq {a : ClosingAct} (hstep : s.device i a = some s') :
    ∃ o c, s.objects[i]? = some o ∧ closingMachine.step o.closing a = some c ∧
      s' = s.setObject i { o with closing := c } := by
  simp only [device, Option.bind_eq_some_iff, Option.map_eq_some_iff] at hstep
  obtain ⟨o, ho, c, hc, rfl⟩ := hstep
  exact ⟨o, c, ho, hc, rfl⟩

theorem find_eq {key : Mountinfo} (h : s.find key = some i) {o : ModuleObject}
    (ho : s.objects[i]? = some o) : o.phase = .registered := by
  obtain ⟨hlt, hp, -⟩ := List.findIdx?_eq_some_iff_getElem.mp h
  obtain ⟨-, rfl⟩ := List.getElem?_eq_some_iff.mp ho
  exact (of_decide_eq_true hp).2

theorem busyAt_eq {o : ModuleObject} (ho : s.objects[i]? = some o) :
    s.busyAt i = o.closing.cleanup.busy := by
  simp [busyAt, ho]

/-- What a step of the exit has seen, and where it goes. -/
inductive ExitMove (s : LoadedModule) : LoadedModule → Prop where
  | activation (hpc : s.exitPc = .loaded) : ExitMove s (s.goTo .activationGone)
  | mounts (hpc : s.exitPc = .activationGone) : ExitMove s (s.goTo .mountsOff)
  | kretprobes (hpc : s.exitPc = .mountsOff) : ExitMove s (s.goTo .kretprobesOff)
  | kprobes (hpc : s.exitPc = .kretprobesOff) (hover : s.handling HandlerPc.inKretprobe = false) :
      ExitMove s (s.goTo .kprobesOff)
  | cancel (hpc : s.exitPc = .kprobesOff) (hover : s.handling HandlerPc.inKprobe = false) :
      ExitMove s { s with sweepPending := false, exitPc := .workCancelled }
  | sweep (hpc : s.exitPc = .workCancelled) (hover : s.capture.sweep = none) :
      ExitMove s (s.goTo .sweepOver)
  | table (hpc : s.exitPc = .sweepOver) {c : CaptureState}
      (hc : s.capture.cleanupXkpblocksHt = c) : ExitMove s ((s.moveTo c).goTo .tableClean)
  | lock (hpc : s.exitPc = .tableClean) : ExitMove s (s.goTo .freeBlkdevs)
  | blkdevs (hpc : s.exitPc = .freeBlkdevs) (hover : s.holdsObject true = false) :
      ExitMove s (s.goTo .freeLoops)
  | loops (hpc : s.exitPc = .freeLoops) (hreging : s.reging = false)
      (hover : s.holdsObject false = false) : ExitMove s (s.goTo .flushWorks)
  | flush (hpc : s.exitPc = .flushWorks) {i : ℕ} {worklist : List ℕ}
      (hwork : s.worklist = i :: worklist) (hover : s.busyAt i = false) :
      ExitMove s { s with worklist := worklist }
  | done (hpc : s.exitPc = .flushWorks) (hwork : s.worklist = []) : ExitMove s (s.goTo .returned)

theorem exitMove (hstep : s.exitStep = some s') : ExitMove s s' := by
  unfold exitStep at hstep
  split at hstep
  case h_1 hpc =>
    rw [Option.ite_none_left_eq_some, Option.some.injEq] at hstep
    exact hstep.2 ▸ .activation hpc
  case h_2 hpc => exact Option.some.inj hstep ▸ .mounts hpc
  case h_3 hpc =>
    rw [Option.ite_none_left_eq_some, Option.some.injEq] at hstep
    exact hstep.2 ▸ .kretprobes hpc
  case h_4 hpc =>
    rw [Option.ite_none_left_eq_some, Option.some.injEq, Bool.not_eq_true] at hstep
    exact hstep.2 ▸ .kprobes hpc hstep.1
  case h_5 hpc =>
    rw [Option.ite_none_left_eq_some, Option.some.injEq, Bool.not_eq_true] at hstep
    exact hstep.2 ▸ .cancel hpc hstep.1
  case h_6 hpc =>
    rw [Option.ite_none_left_eq_some, Option.some.injEq, Option.not_isSome_iff_eq_none] at hstep
    exact hstep.2 ▸ .sweep hpc hstep.1
  case h_7 hpc => exact Option.some.inj hstep ▸ .table hpc rfl
  case h_8 hpc =>
    rw [Option.ite_none_left_eq_some, Option.some.injEq] at hstep
    exact hstep.2 ▸ .lock hpc
  case h_9 hpc =>
    rw [Option.ite_none_left_eq_some, Option.some.injEq, Bool.or_eq_true, not_or,
      Bool.not_eq_true, Bool.not_eq_true] at hstep
    exact hstep.2 ▸ .blkdevs hpc hstep.1.2
  case h_10 hpc =>
    rw [Option.ite_none_left_eq_some, Option.some.injEq, Bool.or_eq_true, not_or,
      Bool.not_eq_true, Bool.not_eq_true] at hstep
    exact hstep.2 ▸ .loops hpc hstep.1.1 hstep.1.2
  case h_11 hpc =>
    split at hstep
    · rename_i hwork
      exact Option.some.inj hstep ▸ .done hpc hwork
    · rename_i i worklist hwork
      rw [Option.ite_none_left_eq_some, Option.some.injEq, Bool.not_eq_true] at hstep
      exact hstep.2 ▸ .flush hpc hwork hstep.1
  case h_12 hpc => cases hstep

/-- Threads, sweep, worklist and exit stay as they are. -/
structure Rests (s s' : LoadedModule) : Prop where
  capture : s'.capture = s.capture
  callbacks : s'.callbacks = s.callbacks
  sweepPending : s'.sweepPending = s.sweepPending
  worklist : s'.worklist = s.worklist
  exitPc : s'.exitPc = s.exitPc

/-- A step of a thread or of the sweep may be taken now. -/
def MayStep (s : LoadedModule) (a : CaptureAct) : Prop :=
  s.allows a = true ∨ ∃ tid, a = .makeSnapshot tid

/-- A step of a thread or of the sweep. -/
def ofThread : ModuleAct → Bool
  | .capture _ | .searchDevice _ _ | .snapshotReturn _ => true
  | _ => false

/-- What a step of the module does beside the objects. -/
inductive SystemMove (hash : XkpblocksKey → ℕ) (act : ModuleAct) (s s' : LoadedModule) : Prop where
  | rest (h : Rests s s')
  | thread {a : CaptureAct} (hact : ofThread act = true) (hmay : s.MayStep a)
      (hstep : (captureMachine hash).step s.capture a = some s'.capture)
      (hcallbacks : s'.callbacks = (s.moveTo s'.capture).callbacks)
      (hpending : s'.sweepPending = s.pendingAfter a) (hworklist : s'.worklist = s.worklist)
      (hexit : s'.exitPc = s.exitPc)
  | callback {node : ℕ} (hact : act = .callback node)
      (h : Rests { s with callbacks := s.callbacks.erase node } s')
  | worklist {i : ℕ} {o : ModuleObject} {scheduled : Bool} (hact : act = .updateWorklist i)
      (ho : s.objects[i]? = some o) (hphase : o.phase = .allocated scheduled)
      (h : Rests { s with
        worklist := (s.worklist ++ if scheduled then [i] else []).filter s.busyAt } s')
  | exit (hact : act = .exit) (h : ExitMove s s')

/-- What a step of the module does. -/
structure ModuleMove (hash : XkpblocksKey → ℕ) (act : ModuleAct) (s s' : LoadedModule) : Prop where
  objects : Moves act s s'
  system : SystemMove hash act s s'

theorem move_self : ModuleMove hash act s s :=
  ⟨moves_same rfl, .rest ⟨rfl, rfl, rfl, rfl, rfl⟩⟩

theorem move_endSnapshot {tid : UInt64} (hact : ofThread act = true)
    (hstep : s.endSnapshot tid = some s') :
    ModuleMove hash act s s' := by
  obtain ⟨c, hc, rfl⟩ := Option.map_eq_some_iff.mp hstep
  exact ⟨moves_same rfl, .thread hact (.inr ⟨tid, rfl⟩) hc rfl rfl rfl rfl⟩

/-- A thread enters `bdsnap_make_snapshot`, and a mount event has its section. -/
theorem move_device {a : ClosingAct} {t : LoadedModule} (hstep : s.device i a = some t)
    (hobjects : s'.objects = t.objects) (hrests : Rests t s') (hcleanup : a ≠ .cleanup)
    (hstart : a ≠ .startWork) (hfinish : a ≠ .finishWork) : ModuleMove hash act s s' := by
  obtain ⟨o, c, ho, hc, rfl⟩ := device_eq hstep
  refine ⟨moves_set ho hobjects (.device hc (fun h => absurd h hcleanup)
    (fun h => absurd h hstart) fun h => absurd h hfinish), .rest ?_⟩
  exact ⟨hrests.capture, hrests.callbacks, hrests.sweepPending, hrests.worklist, hrests.exitPc⟩

theorem move (hstep : (moduleMachine hash).step s act = some s') : ModuleMove hash act s s' := by
  have hrests (t : LoadedModule) : Rests t t := ⟨rfl, rfl, rfl, rfl, rfl⟩
  cases act with
  | capture a =>
    simp only [moduleMachine, captureStep] at hstep
    split at hstep
    · rename_i hallowed
      obtain ⟨c, hc, rfl⟩ := Option.map_eq_some_iff.mp hstep
      exact ⟨moves_same rfl, .thread rfl (.inl hallowed) hc rfl rfl rfl rfl⟩
    · cases hstep
  | searchDevice tid minfo =>
    simp only [moduleMachine, searchDevice, Option.bind_eq_some_iff] at hstep
    obtain ⟨t, -, hstep⟩ := hstep
    split at hstep
    · split at hstep
      · exact move_endSnapshot rfl hstep
      · simp only [Option.bind_eq_some_iff] at hstep
        obtain ⟨o, -, hstep⟩ := hstep
        split at hstep
        · exact move_endSnapshot rfl hstep
        · obtain ⟨t, ht, rfl⟩ := Option.map_eq_some_iff.mp hstep
          exact move_device ht rfl ⟨rfl, rfl, rfl, rfl, rfl⟩ (by simp) (by simp) (by simp)
    · cases hstep
  | callStep tid msw block =>
    simp only [moduleMachine, Option.bind_eq_some_iff] at hstep
    obtain ⟨h, -, hstep⟩ := hstep
    exact move_device hstep rfl (hrests s') (by simp) (by simp) (by simp)
  | snapshotReturn tid =>
    simp only [moduleMachine, snapshotReturn, Option.bind_eq_some_iff] at hstep
    obtain ⟨h, -, o, -, hstep⟩ := hstep
    split at hstep
    · exact move_endSnapshot rfl hstep
    · cases hstep
  | callback node =>
    simp only [moduleMachine, LoadedModule.callback] at hstep
    split at hstep
    · cases hstep
      exact ⟨moves_same rfl, .callback rfl ⟨rfl, rfl, rfl, rfl, rfl⟩⟩
    · cases hstep
  | register key originalDevName =>
    simp only [moduleMachine, LoadedModule.register] at hstep
    split at hstep
    · rename_i hloaded
      split at hstep
      · cases hstep
        exact move_self
      · cases hstep
        refine ⟨⟨fun k o ho => ⟨o, ?_, .stay o⟩, fun k o' ho' hnone =>
          ⟨hloaded, key, originalDevName, ?_⟩⟩, .rest ⟨rfl, rfl, rfl, rfl, rfl⟩⟩
        · rw [List.getElem?_append_left (List.getElem?_eq_some_iff.mp ho).1, ho]
        · rw [List.getElem?_append_right (List.getElem?_eq_none_iff.mp hnone),
            List.getElem?_singleton] at ho'
          split at ho'
          · exact (Option.some.inj ho').symm
          · cases ho'
    · cases hstep
  | mountLookup key =>
    simp only [moduleMachine, LoadedModule.mountLookup] at hstep
    split at hstep
    · split at hstep
      · cases hstep
        exact move_self
      · cases hstep
        exact ⟨moves_same rfl, .rest ⟨rfl, rfl, rfl, rfl, rfl⟩⟩
    · cases hstep
  | mount j kzalloc tv =>
    simp only [moduleMachine, LoadedModule.mount, Option.bind_eq_some_iff,
      Option.map_eq_some_iff] at hstep
    obtain ⟨i, -, t, ht, rfl⟩ := hstep
    exact move_device ht rfl ⟨rfl, rfl, rfl, rfl, rfl⟩ (by simp) (by simp) (by simp)
  | umountLookup key =>
    simp only [moduleMachine, LoadedModule.umountLookup] at hstep
    split at hstep
    · split at hstep
      · cases hstep
        exact move_self
      · exact move_device hstep rfl (hrests s') (by simp) (by simp) (by simp)
    · cases hstep
  | umountStep i j kmalloc =>
    exact move_device hstep rfl (hrests s') (by simp) (by simp) (by simp)
  | unregister key =>
    simp only [moduleMachine, LoadedModule.unregister] at hstep
    split at hstep
    · simp only [Option.bind_eq_some_iff, Option.map_eq_some_iff] at hstep
      obtain ⟨i, hi, o, ho, rfl⟩ := hstep
      exact ⟨moves_set ho rfl (.clean (find_eq hi ho)), .rest ⟨rfl, rfl, rfl, rfl, rfl⟩⟩
    · cases hstep
  | cleanupStep i =>
    simp only [moduleMachine, LoadedModule.cleanupStep, Option.bind_eq_some_iff] at hstep
    obtain ⟨o, ho, hstep⟩ := hstep
    split at hstep
    · rename_i hphase
      obtain ⟨o', c, ho', hc, rfl⟩ := device_eq hstep
      obtain rfl : o = o' := Option.some.inj (ho.symm.trans ho')
      exact ⟨moves_set ho rfl (.device hc (fun _ => .inl hphase) (by simp) (by simp)),
        .rest ⟨rfl, rfl, rfl, rfl, rfl⟩⟩
    · cases hstep
  | allocate i wlistnode wargs =>
    simp only [moduleMachine, LoadedModule.allocate, Option.bind_eq_some_iff] at hstep
    obtain ⟨o, ho, hstep⟩ := hstep
    split at hstep
    · rename_i hphase
      split at hstep
      · obtain ⟨c, hc, rfl⟩ := Option.map_eq_some_iff.mp hstep
        exact ⟨moves_set ho rfl (.schedule hphase.1 hphase.2 hc),
          .rest ⟨rfl, rfl, rfl, rfl, rfl⟩⟩
      · rename_i hfails
        cases hstep
        exact ⟨moves_set ho rfl (.abandon hphase.1 hphase.2 (Bool.eq_false_iff.mpr hfails) rfl),
          .rest ⟨rfl, rfl, rfl, rfl, rfl⟩⟩
    · cases hstep
  | updateWorklist i =>
    simp only [moduleMachine, LoadedModule.updateWorklist, Option.bind_eq_some_iff] at hstep
    obtain ⟨o, ho, hstep⟩ := hstep
    split at hstep
    · rename_i hphase
      cases hstep
      exact ⟨moves_set ho rfl (.listed hphase rfl),
        .worklist rfl ho hphase ⟨rfl, rfl, rfl, rfl, rfl⟩⟩
    · cases hstep
  | startWork i =>
    obtain ⟨o, c, ho, hc, rfl⟩ := device_eq hstep
    exact ⟨moves_set ho rfl (.device hc (by simp) (fun _ => rfl) (by simp)),
      .rest ⟨rfl, rfl, rfl, rfl, rfl⟩⟩
  | finishWork i =>
    obtain ⟨o, c, ho, hc, rfl⟩ := device_eq hstep
    exact ⟨moves_set ho rfl (.device hc (by simp) (by simp) fun _ => rfl),
      .rest ⟨rfl, rfl, rfl, rfl, rfl⟩⟩
  | teardown i =>
    simp only [moduleMachine, LoadedModule.teardown] at hstep
    split at hstep
    · rename_i hbusy
      obtain ⟨o, c, ho, hc, rfl⟩ := device_eq hstep
      rw [busyAt_eq ho] at hbusy
      exact ⟨moves_set ho rfl (.device hc (fun _ => .inr hbusy) (by simp) (by simp)),
        .rest ⟨rfl, rfl, rfl, rfl, rfl⟩⟩
    · cases hstep
  | exit =>
    have hexit := exitMove hstep
    refine ⟨moves_same ?_, .exit rfl hexit⟩
    cases hexit <;> rfl
  | freeObject i =>
    simp only [moduleMachine, LoadedModule.freeObject, Option.bind_eq_some_iff,
      Option.ite_none_right_eq_some, Option.some.injEq] at hstep
    obtain ⟨o, ho, hphase, rfl⟩ := hstep
    exact ⟨moves_set ho rfl (.clean hphase.1), .rest ⟨rfl, rfl, rfl, rfl, rfl⟩⟩

end LoadedModule

end BlkdevSnapshot

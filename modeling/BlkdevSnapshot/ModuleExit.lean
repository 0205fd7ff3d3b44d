import BlkdevSnapshot.ModuleMoves

/-!
# What the exit of the module leaves to run

Works that the module knows of are waited for: probes are unregistered before the sweep is
cancelled, the sweep before the table is emptied, and every deferred work on the worklist is
flushed behind the queues of its device. Nobody waits for the RCU callbacks, nor for a queue
whose deferred work could not be allocated.
-/
namespace BlkdevSnapshot

namespace ExitPc

/-- Behind the wait for the sweep. -/
def sweepGone : ExitPc → Bool
  | sweepOver => true
  | pc => pc.tableCleaned

/-- Behind the walk over `blkdevs_ht`. -/
def blkdevsFreed : ExitPc → Bool
  | freeLoops | flushWorks | returned => true
  | _ => false

/-- Behind the walks over both tables. -/
def objectsFreed : ExitPc → Bool
  | flushWorks | returned => true
  | _ => false

variable {pc : ExitPc}

theorem kretprobesArmed_of_kprobesArmed (h : pc.kprobesArmed = false) :
    pc.kretprobesArmed = false := by
  cases pc <;> simp_all [kprobesArmed, kretprobesArmed]

theorem kprobesArmed_of_rearms (h : pc.rearms = false) : pc.kprobesArmed = false := by
  cases pc <;> simp_all [kprobesArmed, rearms]

theorem rearms_of_sweepGone (h : pc.sweepGone = true) : pc.rearms = false := by
  cases pc <;> simp_all [sweepGone, tableCleaned, rearms]

theorem sweepGone_of_tableCleaned (h : pc.tableCleaned = true) : pc.sweepGone = true := by
  cases pc <;> simp_all [sweepGone, tableCleaned]

end ExitPc

/-- Where `cleanup_object_data` and the deferred work can be in a phase. -/
def ObjectPhase.Fits (pc : CleanupPc) : ObjectPhase → Prop
  | registered | cleaning => pc.deferred = false
  | allocated true | cleaned true => pc.deferred = true
  | allocated false | cleaned false => pc.allocates = true

theorem ObjectPhase.Fits.deferred {phase : ObjectPhase} {pc : CleanupPc} (h : phase.Fits pc)
    (hbusy : pc.busy = true) : phase = .allocated true ∨ phase = .cleaned true := by
  have hdeferred := CleanupPc.deferred_of_busy hbusy
  rcases phase with - | - | (- | -) | (- | -)
  · exact absurd (hdeferred.symm.trans h) (by simp)
  · exact absurd (hdeferred.symm.trans h) (by simp)
  · exact absurd (hdeferred.symm.trans (CleanupPc.not_deferred_of_allocates h)) (by simp)
  · exact .inl rfl
  · exact absurd (hdeferred.symm.trans (CleanupPc.not_deferred_of_allocates h)) (by simp)
  · exact .inr rfl

theorem ObjectPhase.Fits.allocates {phase : ObjectPhase} {pc : CleanupPc} (h : phase.Fits pc)
    (habandoned : phase.abandoned = true) : pc.allocates = true := by
  rcases phase with - | - | (- | -) | (- | -) <;> simp_all [ObjectPhase.abandoned, ObjectPhase.Fits]

/-- The queue keeps its own invariant, and the cleanup is where the phase says. -/
structure ModuleObject.Inv (o : ModuleObject) : Prop where
  closing : o.closing.Inv
  fits : o.phase.Fits o.closing.cleanup

section ObjectMoves
variable {act : ModuleAct} {k : ℕ} {o o' : ModuleObject}

theorem ObjectMove.key_eq (h : ObjectMove act k o o') : o'.key = o.key := by
  cases h <;> rfl

theorem ObjectMove.inv (h : ObjectMove act k o o') (ho : o.Inv) : o'.Inv := by
  obtain ⟨hclosing, hfits⟩ := ho
  cases h with
  | stay => exact ⟨hclosing, hfits⟩
  | @device a c hstep hcleanup hstart hfinish =>
    refine ⟨hclosing.next hstep, ?_⟩
    by_cases ha : a = .cleanup
    · subst ha
      have hdeferred : c.cleanup.deferred = _ := Closing.deferred_cleanupStep hstep
      rcases hcleanup rfl with ⟨hphase, hallocates⟩ | hbusy
      · rw [hphase] at hfits ⊢
        change o.closing.cleanup.deferred = false at hfits
        change c.cleanup.deferred = false
        rw [hdeferred, hfits, hallocates, Bool.or_false]
      · have hthere := CleanupPc.deferred_of_busy hbusy
        have hgoes : c.cleanup.deferred = true := by rw [hdeferred, hthere, Bool.true_or]
        rcases hfits.deferred hbusy with hphase | hphase <;> rw [hphase] <;> exact hgoes
    · change o.phase.Fits c.cleanup
      rw [Closing.cleanup_eq ha hstep]
      exact hfits
  | clean hphase =>
    rw [hphase] at hfits
    exact ⟨hclosing, hfits⟩
  | @schedule c hphase hallocates hstep =>
    have hdeferred : c.cleanup.deferred = _ := Closing.deferred_cleanupStep hstep
    refine ⟨hclosing.cleanupStep hstep, ?_⟩
    change c.cleanup.deferred = true
    rw [hdeferred, hallocates, Bool.or_true]
  | abandon hphase hallocates => exact ⟨hclosing, hallocates⟩
  | @listed scheduled hphase =>
    rw [hphase] at hfits
    refine ⟨hclosing, ?_⟩
    cases scheduled <;> exact hfits

/-- A deferred work on the list is busy only if it was before. -/
theorem ObjectMove.busy (h : ObjectMove act k o o') (hphase : o'.phase = .cleaned true)
    (hbusy : o'.closing.cleanup.busy = true) :
    o.closing.cleanup.busy = true ∧
      (o.phase = .cleaned true ∨ o.phase = .allocated true ∧ act = .updateWorklist k) := by
  cases h with
  | stay => exact ⟨hbusy, .inl hphase⟩
  | @device a c hstep hcleanup hstart hfinish =>
    change o.phase = .cleaned true at hphase
    refine ⟨?_, .inl hphase⟩
    by_cases ha : a = .cleanup
    · exact (hcleanup ha).resolve_left fun hcleaning => by simp [hphase] at hcleaning
    · change c.cleanup.busy = true at hbusy
      rwa [Closing.cleanup_eq ha hstep] at hbusy
  | clean | schedule | abandon => cases hphase
  | @listed scheduled hallocated hact =>
    change ObjectPhase.cleaned scheduled = .cleaned true at hphase
    cases hphase
    exact ⟨hbusy, .inr ⟨hallocated, hact⟩⟩

/-- An object comes into no table, and a clean one stays clean. -/
theorem ObjectMove.cleaned (h : ObjectMove act k o o') {b : Bool} (ho : o.phase = .cleaned b) :
    o'.phase = .cleaned b := by
  cases h with
  | stay | device => exact ho
  | clean hphase | schedule hphase | abandon hphase | listed hphase =>
    rw [ho] at hphase
    cases hphase

theorem ObjectMove.registered (h : ObjectMove act k o o') (ho : o.phase ≠ .registered) :
    o'.phase ≠ .registered := by
  cases h with
  | stay | device => exact ho
  | clean | schedule | abandon | listed => simp

/-- An abandoned queue that is idle stays idle, and none is abandoned with works in it. -/
theorem ObjectMove.idle (h : ObjectMove act k o o') (ho : o.Inv)
    (hidle : o.phase.abandoned = true → o.closing.Idle)
    (hfails : ∀ wlistnode wargs, act = .allocate k wlistnode wargs →
      (wlistnode && wargs) = false → o.closing.Idle)
    (habandoned : o'.phase.abandoned = true) : o'.closing.Idle := by
  cases h with
  | stay => exact hidle habandoned
  | device hstep hcleanup hstart hfinish =>
    have hclosed := CleanupPc.closed_of_allocates (ho.fits.allocates habandoned)
    exact ho.closing.idle_step hclosed (hidle habandoned) hstep
  | clean | schedule => simp [ObjectPhase.abandoned] at habandoned
  | @abandon hphase hallocates wlistnode wargs hbits hact =>
    exact hfails wlistnode wargs hact hbits
  | @listed scheduled hphase =>
    refine hidle ?_
    rw [hphase]
    cases scheduled <;> exact habandoned

/-- An abandoned queue keeps its works while none of them starts or ends. -/
theorem ObjectMove.not_idle (h : ObjectMove act k o o')
    (habandoned : o.phase.abandoned = true) (hidle : ¬ o.closing.Idle)
    (hstart : act ≠ .startWork k) (hfinish : act ≠ .finishWork k) :
    o'.phase.abandoned = true ∧ ¬ o'.closing.Idle := by
  cases h with
  | stay => exact ⟨habandoned, hidle⟩
  | device hstep hcleanup hs hf =>
    exact ⟨habandoned, Closing.not_idle_step (fun h => hstart (hs h)) (fun h => hfinish (hf h))
      hidle hstep⟩
  | clean hphase | schedule hphase | abandon hphase =>
    rw [hphase] at habandoned
    cases habandoned
  | @listed scheduled hphase =>
    rw [hphase] at habandoned
    refine ⟨?_, hidle⟩
    cases scheduled <;> exact habandoned

end ObjectMoves

namespace LoadedModule

variable {hash : XkpblocksKey → ℕ} {s s' : LoadedModule} {act : ModuleAct}

/-- What holds of the threads and the sweep as the exit goes on. -/
structure ThreadInv (s : LoadedModule) : Prop where
  known : s.capture.Known
  kretprobes : s.exitPc.kprobesArmed = false → s.capture.Without HandlerPc.inKretprobe
  kprobes : s.exitPc.rearms = false → s.capture.Without HandlerPc.inKprobe
  pending : s.exitPc.rearms = false → s.sweepPending = false
  sweep : s.exitPc.sweepGone = true → s.capture.sweep = none

theorem MayStep.allowed {a : CaptureAct} (h : s.MayStep a)
    (hmake : ∀ tid, a ≠ .makeSnapshot tid) : s.allows a = true := by
  rcases h with hallows | ⟨tid, ha⟩
  · exact hallows
  · exact absurd ha (hmake tid)

theorem MayStep.not_inKretprobe {a : CaptureAct} (h : s.MayStep a)
    (harmed : s.exitPc.kretprobesArmed = false) (pc : HandlerPc) (hleads : a.leadsTo pc = true) :
    pc.inKretprobe = false := by
  have hblocked (hallows : s.allows a = s.exitPc.kretprobesArmed)
      (hmake : ∀ tid, a ≠ .makeSnapshot tid) : False := by
    rw [h.allowed hmake, harmed] at hallows
    cases hallows
  cases pc with
  | memcpy =>
    cases a with
    | bread => exact (hblocked rfl (by simp)).elim
    | _ => cases hleads
  | vfsWrite =>
    cases a with
    | returnWrite => exact (hblocked rfl (by simp)).elim
    | _ => cases hleads
  | _ => rfl

theorem MayStep.not_inKprobe {a : CaptureAct} (h : s.MayStep a)
    (harmed : s.exitPc.kprobesArmed = false) (pc : HandlerPc) (hleads : a.leadsTo pc = true) :
    pc.inKprobe = false := by
  have hblocked (hallows : s.allows a = s.exitPc.kprobesArmed)
      (hmake : ∀ tid, a ≠ .makeSnapshot tid) : False := by
    rw [h.allowed hmake, harmed] at hallows
    cases hallows
  cases pc with
  | makeSnapshot | bug =>
    cases a with
    | writeDirtyBuffer => exact (hblocked rfl (by simp)).elim
    | _ => cases hleads
  | _ => rfl

/-- No thread that was started is in such a handler. -/
theorem without_of_handling (h : s.capture.Known) {kind : HandlerPc → Bool}
    (hover : s.handling kind = false) : s.capture.Without kind := by
  intro tid t ht
  simp only [handling, List.any_eq_false] at hover
  simpa [ht] using hover _ (h tid t (CaptureState.thread_eq_some.mp ht).1)

/-- Nothing changes for the threads. -/
theorem ThreadInv.of_eq (h : s.ThreadInv) (hcapture : s'.capture = s.capture)
    (hpending : s'.sweepPending = s.sweepPending)
    (hkprobes : s'.exitPc.kprobesArmed = s.exitPc.kprobesArmed)
    (hrearms : s'.exitPc.rearms = s.exitPc.rearms)
    (hsweep : s'.exitPc.sweepGone = s.exitPc.sweepGone) : s'.ThreadInv where
  known := hcapture ▸ h.known
  kretprobes hpc := hcapture ▸ h.kretprobes (hkprobes ▸ hpc)
  kprobes hpc := hcapture ▸ h.kprobes (hrearms ▸ hpc)
  pending hpc := hpending.trans (h.pending (hrearms ▸ hpc))
  sweep hpc := hcapture ▸ h.sweep (hsweep ▸ hpc)

theorem ThreadInv.rests {t : LoadedModule} (h : t.ThreadInv) (hrests : Rests t s') :
    s'.ThreadInv :=
  h.of_eq hrests.capture hrests.sweepPending (by rw [hrests.exitPc]) (by rw [hrests.exitPc])
    (by rw [hrests.exitPc])

theorem ThreadInv.thread (h : s.ThreadInv) {a : CaptureAct} (hmay : s.MayStep a)
    (hstep : (captureMachine hash).step s.capture a = some s'.capture)
    (hpending : s'.sweepPending = s.pendingAfter a) (hexit : s'.exitPc = s.exitPc) :
    s'.ThreadInv := by
  have heffect := CaptureState.stepEffect hstep
  refine ⟨heffect.known h.known, fun hpc => ?_, fun hpc => ?_, fun hpc => ?_, fun hpc => ?_⟩ <;>
    rw [hexit] at hpc
  · exact heffect.without
      (hmay.not_inKretprobe (ExitPc.kretprobesArmed_of_kprobesArmed hpc)) rfl (h.kretprobes hpc)
  · exact heffect.without (hmay.not_inKprobe (ExitPc.kprobesArmed_of_rearms hpc)) rfl
      (h.kprobes hpc)
  · rw [hpending]
    cases a <;> simp [pendingAfter, hpc, h.pending hpc]
  · refine (heffect.sweep (h.sweep hpc)).resolve_right fun ha => ?_
    have hidle := h.pending (ExitPc.rearms_of_sweepGone hpc)
    rcases hmay with hallows | ⟨tid, rfl⟩
    · simp [ha, allows, hidle] at hallows
    · cases ha

theorem ThreadInv.exit (h : s.ThreadInv) (hexit : ExitMove s s') : s'.ThreadInv := by
  cases hexit with
  | activation hpc | mounts hpc | kretprobes hpc | lock hpc | blkdevs hpc | loops hpc | done hpc =>
    refine h.of_eq rfl rfl ?_ ?_ ?_ <;> (rw [hpc]; rfl)
  | flush hpc => exact h.of_eq rfl rfl rfl rfl rfl
  | kprobes hpc hover =>
    exact ⟨h.known, fun _ => without_of_handling h.known hover, by simp [ExitPc.rearms],
      by simp [ExitPc.rearms], by simp [ExitPc.sweepGone, ExitPc.tableCleaned]⟩
  | cancel hpc hover =>
    exact ⟨h.known, fun _ => h.kretprobes (by rw [hpc]; rfl),
      fun _ => without_of_handling h.known hover, fun _ => rfl,
      by simp [ExitPc.sweepGone, ExitPc.tableCleaned]⟩
  | sweep hpc hover =>
    exact ⟨h.known, fun _ => h.kretprobes (by rw [hpc]; rfl),
      fun _ => h.kprobes (by rw [hpc]; rfl), fun _ => h.pending (by rw [hpc]; rfl),
      fun _ => hover⟩
  | table hpc hc =>
    obtain ⟨hpids, hused, hsweep⟩ := s.capture.cleanupXkpblocksHt_frame
    rw [hc] at hpids hused hsweep
    refine ⟨fun tid t ht => ?_, fun _ => ?_, fun _ => ?_, fun _ => h.pending (by rw [hpc]; rfl),
      fun _ => hsweep.trans (h.sweep (by rw [hpc]; rfl))⟩
    · exact hused ▸ h.known tid t (hpids ▸ ht)
    · exact (h.kretprobes (by rw [hpc]; rfl)).of_pids hpids
    · exact (h.kprobes (by rw [hpc]; rfl)).of_pids hpids

theorem ThreadInv.next (h : s.ThreadInv) (hmove : SystemMove hash act s s') : s'.ThreadInv := by
  cases hmove with
  | rest hrests => exact h.rests hrests
  | thread _ hmay hstep _ hpending _ hexit => exact h.thread hmay hstep hpending hexit
  | @callback node _ hrests =>
    have herased : ThreadInv { s with callbacks := s.callbacks.erase node } :=
      h.of_eq rfl rfl rfl rfl rfl
    exact herased.rests hrests
  | @worklist i _ scheduled _ _ _ hrests =>
    have hlisted : ThreadInv { s with
        worklist := (s.worklist ++ if scheduled then [i] else []).filter s.busyAt } :=
      h.of_eq rfl rfl rfl rfl rfl
    exact hlisted.rests hrests
  | exit _ hexit => exact h.exit hexit

/-- What holds of the objects as the exit goes on. -/
structure ObjectInv (s : LoadedModule) : Prop where
  objects : ∀ o ∈ s.objects, o.Inv
  listed : ∀ (k : ℕ) (o : ModuleObject), s.objects[k]? = some o → o.phase = .cleaned true →
    o.closing.cleanup.busy = true → k ∈ s.worklist
  blkdevs : s.exitPc.blkdevsFreed = true → ∀ o ∈ s.objects, o.key.isBlock = true →
    o.phase ≠ .registered
  freed : s.exitPc.objectsFreed = true → ∀ o ∈ s.objects, ∃ b, o.phase = .cleaned b
  flushed : s.exitPc = .returned → s.worklist = []

/-- Every object of the new state is new or comes from one of the old state. -/
theorem Moves.mem (h : Moves act s s') {k : ℕ} {o' : ModuleObject}
    (ho' : s'.objects[k]? = some o') :
    (∃ o, s.objects[k]? = some o ∧ ObjectMove act k o o') ∨
      s.exitPc = .loaded ∧ ∃ key name, o' = ⟨key, initClosing name, .registered⟩ := by
  cases ho : s.objects[k]? with
  | none => exact .inr (h.new k o' ho' ho)
  | some o =>
    obtain ⟨o'', ho'', hmove⟩ := h.old k o ho
    obtain rfl : o'' = o' := Option.some.inj (ho''.symm.trans ho')
    exact .inl ⟨o, rfl, hmove⟩

theorem inv_newObject (key : Mountinfo) (name : CStr) :
    (⟨key, initClosing name, .registered⟩ : ModuleObject).Inv :=
  ⟨Closing.inv_initClosing name, rfl⟩

/-- The section on the worklist keeps a deferred work that is busy. -/
theorem mem_worklist_of_update {k : ℕ} {o : ModuleObject} (ho : s.objects[k]? = some o)
    (hphase : o.phase = .allocated true) (hbusy : s.busyAt k = true)
    (hstep : (moduleMachine hash).step s (.updateWorklist k) = some s') : k ∈ s'.worklist := by
  simp only [moduleMachine, updateWorklist, ho, Option.bind_some, hphase,
    Option.some.injEq] at hstep
  rw [← hstep]
  simp [hbusy]

/-- A step that leaves the exit where it is. -/
theorem ObjectInv.of_moves (h : s.ObjectInv) (hmoves : Moves act s s')
    (hpc : s'.exitPc = s.exitPc)
    (hkeeps : ∀ k ∈ s.worklist, s.busyAt k = true → k ∈ s'.worklist)
    (hadds : ∀ k o, s.objects[k]? = some o → o.phase = .allocated true → s.busyAt k = true →
      act = .updateWorklist k → k ∈ s'.worklist)
    (hflushed : s.exitPc = .returned → s'.worklist = []) : s'.ObjectInv := by
  refine ⟨fun o' ho' => ?_, fun k o' ho' hphase hbusy => ?_, fun hfreed o' ho' hblock => ?_,
    fun hfreed o' ho' => ?_, fun hret => hflushed (hpc ▸ hret)⟩
  · obtain ⟨k, ho'⟩ := List.mem_iff_getElem?.mp ho'
    rcases hmoves.mem ho' with ⟨o, ho, hmove⟩ | ⟨-, key, name, rfl⟩
    · exact hmove.inv (h.objects o (List.mem_of_getElem? ho))
    · exact inv_newObject key name
  · rcases hmoves.mem ho' with ⟨o, ho, hmove⟩ | ⟨-, key, name, rfl⟩
    · obtain ⟨hbusy, hold | ⟨hallocated, hact⟩⟩ := hmove.busy hphase hbusy
      · exact hkeeps k (h.listed k o ho hold hbusy) ((busyAt_eq ho).trans hbusy)
      · exact hadds k o ho hallocated ((busyAt_eq ho).trans hbusy) hact
    · cases hphase
  · obtain ⟨k, ho'⟩ := List.mem_iff_getElem?.mp ho'
    rw [hpc] at hfreed
    rcases hmoves.mem ho' with ⟨o, ho, hmove⟩ | ⟨hloaded, -⟩
    · rw [hmove.key_eq] at hblock
      exact hmove.registered (h.blkdevs hfreed o (List.mem_of_getElem? ho) hblock)
    · rw [hloaded] at hfreed
      cases hfreed
  · obtain ⟨k, ho'⟩ := List.mem_iff_getElem?.mp ho'
    rw [hpc] at hfreed
    rcases hmoves.mem ho' with ⟨o, ho, hmove⟩ | ⟨hloaded, -⟩
    · obtain ⟨b, hb⟩ := h.freed hfreed o (List.mem_of_getElem? ho)
      exact ⟨b, hmove.cleaned hb⟩
    · rw [hloaded] at hfreed
      cases hfreed

/-- The exit moves on while the tables and the worklist stay as they are. -/
theorem ObjectInv.goTo (h : s.ObjectInv) (hobjects : s'.objects = s.objects)
    (hworklist : s'.worklist = s.worklist)
    (hblkdevs : s'.exitPc.blkdevsFreed = true → s.exitPc.blkdevsFreed = true ∨
      s.holdsObject true = false)
    (hfreed : s'.exitPc.objectsFreed = true → s.exitPc.objectsFreed = true ∨
      ∀ o ∈ s.objects, ∃ b, o.phase = .cleaned b)
    (hflushed : s'.exitPc = .returned → s.worklist = []) : s'.ObjectInv := by
  refine ⟨hobjects ▸ h.objects, hworklist ▸ hobjects ▸ h.listed, fun hpc => ?_, fun hpc => ?_,
    fun hpc => hworklist.trans (hflushed hpc)⟩ <;> rw [hobjects]
  · rcases hblkdevs hpc with hold | hover
    · exact h.blkdevs hold
    · intro o ho hblock hphase
      simp only [holdsObject, List.any_eq_false] at hover
      exact hover o ho (decide_eq_true ⟨hblock, hphase⟩)
  · rcases hfreed hpc with hold | hall
    · exact h.freed hold
    · exact hall

/-- Behind both walks every object is cleaned up. -/
theorem ObjectInv.cleaned (h : s.ObjectInv) (hpc : s.exitPc = .freeLoops)
    (hreging : s.reging = false) (hover : s.holdsObject false = false) (o : ModuleObject)
    (ho : o ∈ s.objects) : ∃ b, o.phase = .cleaned b := by
  simp only [reging, holdsObject, List.any_eq_false, decide_eq_true_eq] at hreging hover
  have hunder := hreging o ho
  have hregistered : o.phase ≠ .registered := by
    intro hphase
    cases hblock : o.key.isBlock with
    | true => exact h.blkdevs (by rw [hpc]; rfl) o ho hblock hphase
    | false => exact hover o ho ⟨hblock, hphase⟩
  cases hphase : o.phase with
  | registered => exact absurd hphase hregistered
  | cleaning | allocated =>
    rw [hphase] at hunder
    exact absurd rfl hunder
  | cleaned b => exact ⟨b, rfl⟩

theorem ObjectInv.exit (h : s.ObjectInv) (hexit : ExitMove s s') : s'.ObjectInv := by
  cases hexit with
  | activation | mounts | kretprobes | kprobes | cancel | sweep | table | lock =>
    exact h.goTo rfl rfl (by simp [ExitPc.blkdevsFreed]) (by simp [ExitPc.objectsFreed]) (by simp)
  | blkdevs hpc hover =>
    exact h.goTo rfl rfl (fun _ => .inr hover) (by simp [ExitPc.objectsFreed]) (by simp)
  | loops hpc hreging hover =>
    exact h.goTo rfl rfl (fun _ => .inl (by rw [hpc]; rfl))
      (fun _ => .inr (h.cleaned hpc hreging hover)) (by simp)
  | @flush hpc i worklist hwork hover =>
    refine ⟨h.objects, fun k o ho hphase hbusy => ?_, h.blkdevs, h.freed, fun hret => ?_⟩
    · have hk := h.listed k o ho hphase hbusy
      rw [hwork, List.mem_cons] at hk
      refine hk.resolve_left ?_
      rintro rfl
      rw [busyAt_eq (s := s) ho, hbusy] at hover
      cases hover
    · simp [hpc] at hret
  | done hpc hwork =>
    exact h.goTo rfl rfl (fun _ => .inl (by rw [hpc]; rfl)) (fun _ => .inl (by rw [hpc]; rfl))
      fun _ => hwork

theorem ObjectInv.next (h : s.ObjectInv) (hstep : (moduleMachine hash).step s act = some s') :
    s'.ObjectInv := by
  obtain ⟨hmoves, hsystem⟩ := move hstep
  have hadds (k : ℕ) (o : ModuleObject) (ho : s.objects[k]? = some o)
      (hphase : o.phase = .allocated true) (hbusy : s.busyAt k = true)
      (hact : act = .updateWorklist k) : k ∈ s'.worklist := by
    subst hact
    exact mem_worklist_of_update ho hphase hbusy hstep
  cases hsystem with
  | rest hrests =>
    exact h.of_moves hmoves hrests.exitPc (fun k hk _ => hrests.worklist ▸ hk) hadds
      fun hret => hrests.worklist.trans (h.flushed hret)
  | thread _ _ _ _ _ hworklist hexit =>
    exact h.of_moves hmoves hexit (fun k hk _ => hworklist ▸ hk) hadds
      fun hret => hworklist.trans (h.flushed hret)
  | callback _ hrests =>
    exact h.of_moves hmoves hrests.exitPc (fun k hk _ => hrests.worklist ▸ hk) hadds
      fun hret => hrests.worklist.trans (h.flushed hret)
  | worklist _ ho hphase hrests =>
    refine h.of_moves hmoves hrests.exitPc (fun k hk hbusy => ?_) hadds fun hret => ?_
    · rw [hrests.worklist]
      exact List.mem_filter.mpr ⟨List.mem_append_left _ hk, hbusy⟩
    · obtain ⟨b, hb⟩ := h.freed (by rw [hret]; rfl) _ (List.mem_of_getElem? ho)
      rw [hphase] at hb
      cases hb
  | exit _ hexit => exact h.exit hexit

/-! ## What is left -/

/-- No callback of the module is pending, and no work of it is pending or running. -/
structure NothingLeft (s : LoadedModule) : Prop where
  callbacks : s.callbacks = []
  sweep : s.sweepPending = false ∧ s.capture.sweep = none
  queues : ∀ o ∈ s.objects, o.closing.Idle
  teardown : ∀ o ∈ s.objects, o.closing.cleanup.busy = false

/-- No queue was given up with works in it, and no callback was left behind. -/
structure Clear (s : LoadedModule) : Prop where
  queues : ∀ o ∈ s.objects, o.phase.abandoned = true → o.closing.Idle
  callbacks : s.exitPc.tableCleaned = true → s.callbacks = []

/-- The invariants of all runs. -/
structure Inv (s : LoadedModule) : Prop where
  threads : s.ThreadInv
  objects : s.ObjectInv

theorem Inv.next (h : s.Inv) (hstep : (moduleMachine hash).step s act = some s') : s'.Inv :=
  ⟨h.threads.next (move hstep).system, h.objects.next hstep⟩

/-- Everything else is covered when the exit returns. -/
theorem Inv.nothingLeft_iff (h : s.Inv) (hret : s.exitPc = .returned) :
    s.NothingLeft ↔ s.Clear := by
  obtain ⟨hthreads, hobjects⟩ := h
  have hbusy (o : ModuleObject) (ho : o ∈ s.objects) : o.closing.cleanup.busy = false := by
    obtain ⟨k, hk⟩ := List.mem_iff_getElem?.mp ho
    obtain ⟨b, hb⟩ := hobjects.freed (by rw [hret]; rfl) o ho
    have hfits := (hobjects.objects o ho).fits
    rw [hb] at hfits
    cases b with
    | false => exact CleanupPc.not_busy_of_not_deferred (CleanupPc.not_deferred_of_allocates hfits)
    | true =>
      by_contra hbusy
      have hlisted := hobjects.listed k o hk hb (by simpa using hbusy)
      simp [hobjects.flushed hret] at hlisted
  constructor
  · rintro ⟨hcallbacks, -, hqueues, -⟩
    exact ⟨fun o ho _ => hqueues o ho, fun _ => hcallbacks⟩
  · rintro ⟨hqueues, hcallbacks⟩
    refine ⟨hcallbacks (by rw [hret]; rfl), ⟨hthreads.pending (by rw [hret]; rfl),
      hthreads.sweep (by rw [hret]; rfl)⟩, fun o ho => ?_, hbusy⟩
    obtain ⟨b, hb⟩ := hobjects.freed (by rw [hret]; rfl) o ho
    obtain ⟨hclosing, hfits⟩ := hobjects.objects o ho
    cases b with
    | false => exact hqueues o ho (by rw [hb]; rfl)
    | true =>
      rw [hb] at hfits
      exact hclosing.drained (CleanupPc.busy_of_deferred hfits (hbusy o ho))

/-- Nothing is under way that no one will wait for: at `cleanup_xkpblocks_ht` no callback is
pending and no node is in the table, and where an allocation of `cleanup_object_data` fails
the queue of the object is idle. -/
def Settled (s : LoadedModule) : ModuleAct → Prop
  | .exit => s.exitPc = .sweepOver → s.callbacks = [] ∧ s.capture.HtEmpty
  | .allocate i wlistnode wargs =>
    (wlistnode && wargs) = false → ∀ o ∈ s.objects[i]?, o.closing.Idle
  | _ => True

/-- The kernel puts off whatever nobody waits for: the callbacks from the end of
`cleanup_xkpblocks_ht` on, and the works of a queue that was given up. -/
def PutsOff (s : LoadedModule) : ModuleAct → Prop
  | .callback _ => s.exitPc.tableCleaned = false
  | .startWork i | .finishWork i => ∀ o ∈ s.objects[i]?, o.phase.abandoned = false
  | _ => True

/-- The steps of threads and sweeps free nothing any more. -/
theorem ThreadInv.callbacks_eq (h : s.ThreadInv) (hpc : s.exitPc.tableCleaned = true)
    {a : CaptureAct} (hstep : (captureMachine hash).step s.capture a = some s'.capture) :
    (s.moveTo s'.capture).callbacks = s.callbacks := by
  have hgone := ExitPc.sweepGone_of_tableCleaned hpc
  have hrearms := ExitPc.rearms_of_sweepGone hgone
  have hfreed := (CaptureState.stepEffect hstep).freed_eq
    (h.kretprobes (ExitPc.kprobesArmed_of_rearms hrearms)) (h.kprobes hrearms) (h.sweep hgone)
  rw [moveTo_callbacks, hfreed, List.drop_length, List.append_nil]

theorem Clear.next (h : s.Inv) (hclear : s.Clear) (hact : s.Settled act)
    (hstep : (moduleMachine hash).step s act = some s') : s'.Clear := by
  obtain ⟨hmoves, hsystem⟩ := move hstep
  refine ⟨fun o' ho' habandoned => ?_, fun hpc => ?_⟩
  · obtain ⟨k, ho'⟩ := List.mem_iff_getElem?.mp ho'
    rcases hmoves.mem ho' with ⟨o, ho, hmove⟩ | ⟨-, key, name, rfl⟩
    · have hmem := List.mem_of_getElem? ho
      refine hmove.idle (h.objects.objects o hmem) (hclear.queues o hmem)
        (fun wlistnode wargs hallocate hfails => ?_) habandoned
      subst hallocate
      exact hact hfails o ho
    · cases habandoned
  · cases hsystem with
    | rest hrests => exact hrests.callbacks.trans (hclear.callbacks (hrests.exitPc ▸ hpc))
    | thread _ _ hcapture hcallbacks _ _ hexit =>
      rw [hexit] at hpc
      rw [hcallbacks, h.threads.callbacks_eq hpc hcapture, hclear.callbacks hpc]
    | callback _ hrests =>
      rw [hrests.callbacks, hclear.callbacks (hrests.exitPc ▸ hpc), List.erase_nil]
    | worklist _ _ _ hrests =>
      exact hrests.callbacks.trans (hclear.callbacks (hrests.exitPc ▸ hpc))
    | exit hexit hmove =>
      subst hexit
      cases hmove with
      | activation | mounts | kretprobes | kprobes | cancel | sweep => cases hpc
      | table hover hc =>
        obtain ⟨hnil, hempty⟩ := hact hover
        rw [CaptureState.cleanupXkpblocksHt_of_empty hempty] at hc
        rw [goTo_callbacks, moveTo_callbacks, ← hc, hnil, List.drop_length, List.append_nil]
      | lock hover | blkdevs hover | loops hover | flush hover | done hover =>
        exact hclear.callbacks (by rw [hover]; rfl)

/-- An unsettled step leaves something behind. -/
theorem not_clear_of_not_settled (hact : ¬ s.Settled act)
    (hstep : (moduleMachine hash).step s act = some s') : ¬ s'.Clear := by
  rintro ⟨hqueues, hcallbacks⟩
  cases act with
  | exit =>
    obtain ⟨hpc, hunder⟩ := Classical.not_imp.mp hact
    simp only [moduleMachine, exitStep, hpc, Option.some.injEq] at hstep
    subst hstep
    have hnil := hcallbacks rfl
    rw [goTo_callbacks, moveTo_callbacks, List.append_eq_nil_iff, List.drop_eq_nil_iff] at hnil
    refine hunder ⟨hnil.1, ?_⟩
    by_contra hempty
    exact absurd (CaptureState.length_freed_cleanupXkpblocksHt hempty) (not_lt.mpr hnil.2)
  | allocate i wlistnode wargs =>
    obtain ⟨hfails, hbusy⟩ := Classical.not_imp.mp hact
    simp only [not_forall] at hbusy
    obtain ⟨o, ho, hidle⟩ := hbusy
    have ho : s.objects[i]? = some o := ho
    simp only [moduleMachine, allocate, ho, Option.bind_some, hfails, Bool.false_eq_true,
      if_false, Option.ite_none_right_eq_some, Option.some.injEq] at hstep
    obtain ⟨-, rfl⟩ := hstep
    have hmem : { o with phase := .allocated false } ∈
        (s.setObject i { o with phase := .allocated false }).objects :=
      List.mem_set (List.getElem?_eq_some_iff.mp ho).1 _
    have hidle' := hqueues _ hmem rfl
    exact hidle hidle'
  | _ => exact hact trivial

/-- What was left behind stays there while the kernel puts it off. -/
theorem not_clear_step (hclear : ¬ s.Clear) (hoff : s.PutsOff act)
    (hstep : (moduleMachine hash).step s act = some s') : ¬ s'.Clear := by
  obtain ⟨hmoves, hsystem⟩ := move hstep
  rintro ⟨hqueues, hcallbacks⟩
  refine hclear ⟨fun o ho habandoned => ?_, fun hpc => ?_⟩
  · by_contra hidle
    obtain ⟨k, hk⟩ := List.mem_iff_getElem?.mp ho
    obtain ⟨o', ho', hmove⟩ := hmoves.old k o hk
    have hstart : act ≠ .startWork k := by
      rintro rfl
      exact absurd habandoned (by rw [hoff o hk]; exact Bool.false_ne_true)
    have hfinish : act ≠ .finishWork k := by
      rintro rfl
      exact absurd habandoned (by rw [hoff o hk]; exact Bool.false_ne_true)
    obtain ⟨habandoned', hidle'⟩ := hmove.not_idle habandoned hidle hstart hfinish
    exact hidle' (hqueues o' (List.mem_of_getElem? ho') habandoned')
  · cases hsystem with
    | rest hrests => exact hrests.callbacks.symm.trans (hcallbacks (hrests.exitPc ▸ hpc))
    | thread _ _ _ hmoved _ _ hexit =>
      have hnil := hcallbacks (hexit ▸ hpc)
      rw [hmoved, moveTo_callbacks, List.append_eq_nil_iff] at hnil
      exact hnil.1
    | callback hact _ =>
      subst hact
      exact absurd hpc (by rw [hoff]; exact Bool.false_ne_true)
    | worklist _ _ _ hrests =>
      exact hrests.callbacks.symm.trans (hcallbacks (hrests.exitPc ▸ hpc))
    | exit _ hmove =>
      cases hmove with
      | activation hover | mounts hover | kretprobes hover | kprobes hover | cancel hover
        | sweep hover | table hover =>
        rw [hover] at hpc
        cases hpc
      | lock | blkdevs | loops | done => exact hcallbacks rfl
      | flush => exact hcallbacks hpc

/-- A step of no thread, and no allocation fails. -/
def quiet : ModuleAct → Bool
  | .allocate _ wlistnode wargs => wlistnode && wargs
  | act => !ofThread act

theorem ofThread_of_quiet {a : ModuleAct} (h : quiet a = true) : ofThread a = false := by
  cases a with
  | capture | searchDevice | snapshotReturn => cases h
  | _ => rfl

/-- Without tracked writes and without failed allocations all steps are settled. -/
theorem settled_of_quiet {acts : List ModuleAct} (hcallbacks : s.callbacks = [])
    (hempty : s.capture.HtEmpty) (hacts : ∀ a ∈ acts, quiet a = true) :
    (moduleMachine hash).Meets Settled s acts := by
  refine Machine.meets_of_invariant (I := fun s => s.callbacks = [] ∧ s.capture.HtEmpty)
    (p := fun a => quiet a = true) (fun s a h ha => ?_) (fun s a s' h ha hstep => ?_)
    ⟨hcallbacks, hempty⟩ hacts
  · cases a with
    | exit => exact fun _ => h
    | allocate i wlistnode wargs =>
      have hboth : (wlistnode && wargs) = true := ha
      intro hfails
      rw [hboth] at hfails
      cases hfails
    | _ => trivial
  · obtain ⟨hcallbacks, hempty⟩ := h
    cases (move hstep).system with
    | rest hrests | worklist _ _ _ hrests =>
      exact ⟨hrests.callbacks.trans hcallbacks, hrests.capture ▸ hempty⟩
    | thread hact =>
      rw [ofThread_of_quiet ha] at hact
      cases hact
    | callback _ hrests =>
      refine ⟨?_, hrests.capture ▸ hempty⟩
      rw [hrests.callbacks, hcallbacks, List.erase_nil]
    | exit _ hmove =>
      cases hmove with
      | table _ hc =>
        rw [CaptureState.cleanupXkpblocksHt_of_empty hempty] at hc
        subst hc
        refine ⟨?_, hempty⟩
        rw [goTo_callbacks, moveTo_callbacks, hcallbacks, List.drop_length, List.append_nil]
      | _ => exact ⟨hcallbacks, hempty⟩

theorem inv_of_init (h : (moduleMachine hash).init s) : s.Inv ∧ s.Clear := by
  obtain ⟨hcapture, hcallbacks, -, hobjects, -, -, -, hpc⟩ := h
  have hnone (o : ModuleObject) : o ∉ s.objects := by simp [hobjects]
  refine ⟨⟨⟨fun tid t ht => ?_, ?_, ?_, ?_, ?_⟩, ⟨?_, ?_, ?_, ?_, ?_⟩⟩, ⟨?_, fun _ => hcallbacks⟩⟩
  · simp [hcapture.1] at ht
  all_goals simp [hpc, hobjects, ExitPc.kprobesArmed, ExitPc.rearms, ExitPc.sweepGone,
    ExitPc.tableCleaned, ExitPc.blkdevsFreed, ExitPc.objectsFreed]

end LoadedModule

/-- When the exit returns, nothing of the module is left to run if every step was settled, and,
where the kernel puts off what nobody waits for, only then. -/
theorem moduleExit_nothingLeft {hash : XkpblocksKey → ℕ} {acts : List ModuleAct}
    {s₀ s : LoadedModule} (hinit : (moduleMachine hash).init s₀)
    (hrun : (moduleMachine hash).run s₀ acts = some s) (hret : s.exitPc = .returned) :
    ((moduleMachine hash).Meets LoadedModule.Settled s₀ acts → s.NothingLeft) ∧
      ((moduleMachine hash).Meets LoadedModule.PutsOff s₀ acts → s.NothingLeft →
        (moduleMachine hash).Meets LoadedModule.Settled s₀ acts) := by
  have hgood (s : LoadedModule) (a : ModuleAct) (s' : LoadedModule) (h : s.Inv ∧ s.Clear)
      (ha : s.Settled a) (hstep : (moduleMachine hash).step s a = some s') :
      s'.Inv ∧ s'.Clear :=
    ⟨h.1.next hstep, h.2.next h.1 ha hstep⟩
  have hbad (s : LoadedModule) (a : ModuleAct) (s' : LoadedModule) (h : s.Inv ∧ s.Clear)
      (ha : ¬ s.Settled a) (hstep : (moduleMachine hash).step s a = some s') :
      s'.Inv ∧ ¬ s'.Clear :=
    ⟨h.1.next hstep, LoadedModule.not_clear_of_not_settled ha hstep⟩
  have hdoom (s : LoadedModule) (a : ModuleAct) (s' : LoadedModule) (h : s.Inv ∧ ¬ s.Clear)
      (ha : s.PutsOff a) (hstep : (moduleMachine hash).step s a = some s') :
      s'.Inv ∧ ¬ s'.Clear :=
    ⟨h.1.next hstep, LoadedModule.not_clear_step h.2 ha hstep⟩
  have hstart := LoadedModule.inv_of_init hinit
  refine ⟨fun hmeets => ?_, fun hoff hnothing => ?_⟩
  · have hall := Machine.throughout_of_meets (P := fun s => s.Inv ∧ s.Clear) (fun _ h => h) hgood
      hstart hmeets
    obtain ⟨hinv, hclear⟩ := hall.run hrun
    exact (hinv.nothingLeft_iff hret).mpr hclear
  · rcases Machine.run_ends_of_meets hgood hbad hdoom hstart hoff hrun with h | ⟨-, hinv, hnot⟩
    · exact h.1
    · exact absurd ((hinv.nothingLeft_iff hret).mp hnothing) hnot

/-- The module behind `init_blkdev_snapshot_module`. -/
def freshModule : LoadedModule :=
  ⟨noNodes, [], true, [], fun _ => none, [], [], .loaded⟩

/-- A device is activated, and the exit deactivates it. -/
def exitWithDevice : List ModuleAct :=
  [ModuleAct.register (.block 0x800001) "/dev/sda1".toList] ++ List.replicate 8 ModuleAct.exit ++
    [ModuleAct.freeObject 0] ++ List.replicate 6 (ModuleAct.cleanupStep 0) ++
    [ModuleAct.allocate 0 true true, .updateWorklist 0, .exit, .exit] ++
    List.replicate 4 (ModuleAct.teardown 0) ++ List.replicate 2 ModuleAct.exit

/-- A tracked write returns, and its thread dies. -/
def exitBehindWrite : List ModuleAct :=
  [ModuleAct.capture (.spawn ⟨7, 1⟩), .capture (.enterWrite 7 (some onesBlock)),
    .capture (.returnWrite 7), .capture (.removeThreadentry 7)] ++
    List.replicate 11 ModuleAct.exit

theorem freshModule_init (hash : XkpblocksKey → ℕ) : (moduleMachine hash).init freshModule :=
  ⟨init_noNodes hash, rfl, rfl, rfl, rfl, rfl, rfl, rfl⟩

theorem moduleExit_nothingLeft_device :
    ∃ s, (moduleMachine fun _ => 0).run freshModule exitWithDevice = some s ∧
      s.exitPc = .returned ∧ s.NothingLeft := by
  have hrun := Machine.run_eq_getD (moduleMachine fun _ => 0) freshModule exitWithDevice
    (by decide +kernel)
  have hempty : freshModule.capture.HtEmpty := fun _ _ => rfl
  have hret : (((moduleMachine fun _ => 0).run freshModule exitWithDevice).getD
      freshModule).exitPc = .returned := by decide +kernel
  have hquiet : ∀ a ∈ exitWithDevice, LoadedModule.quiet a = true := by decide
  exact ⟨_, hrun, hret, (moduleExit_nothingLeft (freshModule_init _) hrun hret).1
    (LoadedModule.settled_of_quiet rfl hempty hquiet)⟩

/-- The callback of a write that has returned is still pending when the exit returns. -/
theorem not_moduleExit_nothingLeft :
    (moduleMachine fun _ => 0).init freshModule ∧
    ∃ s, (moduleMachine fun _ => 0).run freshModule exitBehindWrite = some s ∧
      s.exitPc = .returned ∧ s.callbacks ≠ [] ∧ ¬ s.NothingLeft := by
  have hrun := Machine.run_eq_getD (moduleMachine fun _ => 0) freshModule exitBehindWrite
    (by decide +kernel)
  have hpending : (((moduleMachine fun _ => 0).run freshModule exitBehindWrite).getD
      freshModule).callbacks.isEmpty = false := by decide +kernel
  have hleft := List.isEmpty_eq_false_iff.mp hpending
  exact ⟨freshModule_init _, _, hrun, by decide +kernel, hleft, fun h => hleft h.callbacks⟩

end BlkdevSnapshot

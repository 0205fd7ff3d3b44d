import BlkdevSnapshot.ActivatedDisks

/-!
# Flushing the queues

A deactivation leaves the works of its device to a flush of its queue, and the exit of the
module waits for all flushes. However the queues take turns, every work that is executed
is one less to wait for, none of them gets stuck, and when nothing is queued any more all
epochs are restorable.
-/
namespace BlkdevSnapshot
open SnapshotDirs

variable {δ : Type*} {N : δ → ℕ}

/-- A sum of which one term, known by its key, is one larger than in another. -/
theorem sum_map_eq_succ {α : Type*} {key f g : α → ℕ} {l : List α} (hnodup : (l.map key).Nodup)
    {a : α} (ha : a ∈ l) (hself : f a = g a + 1) (hrest : ∀ b ∈ l, key b ≠ key a → f b = g b) :
    (l.map f).sum = (l.map g).sum + 1 := by
  induction l with
  | nil => cases ha
  | cons b l ih =>
    rw [List.map_cons, List.nodup_cons] at hnodup
    obtain ⟨hnew, hnodup⟩ := hnodup
    rw [List.map_cons, List.map_cons, List.sum_cons, List.sum_cons]
    rcases List.mem_cons.mp ha with rfl | ha
    · have hsame : l.map f = l.map g := by
        apply List.map_congr_left
        intro c hc
        apply hrest c (List.mem_cons_of_mem _ hc)
        intro hkey
        exact hnew (hkey ▸ List.mem_map_of_mem hc)
      rw [hsame, hself]
      omega
    · have hb : f b = g b := by
        apply hrest b List.mem_cons_self
        intro hkey
        exact hnew (hkey ▸ List.mem_map_of_mem ha)
      rw [hb, ih hnodup ha fun c hc => hrest c (List.mem_cons_of_mem _ hc)]
      omega

/-- The execution of a work. -/
def ActivatedAct.IsWork : ActivatedAct δ N → Prop
  | .work _ _ => True
  | _ => False

namespace ActivatedDisks
variable [DecidableEq δ] {hash : UInt64 → ℕ} {maxEntries fuel : ℕ} {s : ActivatedDisks δ N}

/-- The number of works that are queued. -/
def queued (s : ActivatedDisks δ N) : ℕ :=
  (s.dirs.opened.map fun x => (s.dirs.pending x).length).sum

section Reached
variable (h : (activatedMachine hash maxEntries fuel N).Reach WorksSucceed s)
include h

/-- Every queued work is one of an epoch of its object. -/
theorem owned (o : ObjectId δ) {q : ℕ × MakeSnapshotWork} (hq : q ∈ s.dirs.wq o) :
    ∃ x ∈ s.dirs.opened, x.dev = o ∧ x.addr = q.1 := by
  obtain ⟨D, hD, hR⟩ := exists_related h
  have howned := (Disks.inv_of_reach hD).owned o q
  rw [hR.dirs] at howned
  exact howned hq

theorem addr_nodup : (s.dirs.opened.map Opening.addr).Nodup := by
  obtain ⟨D, hD, hR⟩ := exists_related h
  have hnodup := (SnapshotDirs.inv_of_reachable (Disks.dirs_reachable hD)).nodup
  rwa [hR.dirs] at hnodup

/-- A queue with a work in it counts. -/
theorem wq_eq_nil (hnone : s.queued = 0) (o : ObjectId δ) : s.dirs.wq o = [] := by
  rw [List.eq_nil_iff_forall_not_mem]
  intro q hq
  obtain ⟨x, hx, rfl, haddr⟩ := owned h o hq
  have hzero : (s.dirs.pending x).length = 0 := by
    apply List.sum_eq_zero_iff.mp hnone
    exact List.mem_map_of_mem hx
  have hmem : q.2 ∈ s.dirs.pending x :=
    List.mem_map_of_mem (List.mem_filter.mpr ⟨hq, by simpa using haddr.symm⟩)
  rw [List.eq_nil_of_length_eq_zero hzero] at hmem
  cases hmem

/-- The execution of a work changes nothing that an epoch is judged by, and leaves one work less. -/
theorem work_effect {o : ObjectId δ} {outcomes : WorkOutcomes} {s' : ActivatedDisks δ N}
    (hstep : (activatedMachine hash maxEntries fuel N).step s (.work o outcomes) = some s') :
    s'.dirs.opened = s.dirs.opened ∧ s'.begun = s.begun ∧ s'.since = s.since ∧
      s.queued = s'.queued + 1 := by
  simp only [activatedMachine] at hstep
  cases hqueue : s.dirs.wq o with
  | nil => simp [hqueue] at hstep
  | cons q wq =>
    obtain ⟨addr, w⟩ := q
    simp only [hqueue, Option.map_eq_some_iff] at hstep
    obtain ⟨r, -, rfl⟩ := hstep
    have hhead : (addr, w) ∈ s.dirs.wq o := by
      rw [hqueue]
      exact List.mem_cons_self
    obtain ⟨x, hx, rfl, rfl⟩ := owned h o hhead
    refine ⟨rfl, rfl, rfl, sum_map_eq_succ (addr_nodup h) hx ?_ fun y hy haddr => ?_⟩
    · simp [SnapshotDirs.pending, SnapshotDirs.worked, hqueue]
    · by_cases hdev : y.dev = x.dev
      · simp [SnapshotDirs.pending, SnapshotDirs.worked, hdev, hqueue, Ne.symm haddr]
      · simp [SnapshotDirs.pending, SnapshotDirs.worked, Function.update_of_ne hdev]

/-- Some works one after another. -/
theorem works_effect {as : List (ActivatedAct δ N)} (hworks : ∀ a ∈ as, a.IsWork)
    (hmeets : (activatedMachine hash maxEntries fuel N).Meets WorksSucceed s as)
    {s' : ActivatedDisks δ N}
    (hrun : (activatedMachine hash maxEntries fuel N).run s as = some s') :
    s'.dirs.opened = s.dirs.opened ∧ s'.begun = s.begun ∧ s'.since = s.since ∧
      s.queued = s'.queued + as.length := by
  induction as generalizing s with
  | nil =>
    obtain rfl := Option.some.inj hrun
    exact ⟨rfl, rfl, rfl, rfl⟩
  | cons a as ih =>
    simp only [Machine.run, Option.bind_eq_some_iff] at hrun
    obtain ⟨u, hstep, hrun⟩ := hrun
    cases a with
    | work o outcomes =>
      obtain ⟨hopened, hbegun, hsince, hqueued⟩ := work_effect h hstep
      obtain ⟨hopened', hbegun', hsince', hqueued'⟩ := ih (h.step hmeets.1 hstep)
        (fun a ha => hworks a (List.mem_cons_of_mem _ ha)) (hmeets.2 u hstep) hrun
      refine ⟨hopened'.trans hopened, hbegun'.trans hbegun, hsince'.trans hsince, ?_⟩
      rw [hqueued, hqueued', List.length_cons]
      omega
    | activate i path => exact absurd (hworks _ List.mem_cons_self) id
    | deactivate i wlistnode wargs => exact absurd (hworks _ List.mem_cons_self) id
    | mount i kzalloc tv => exact absurd (hworks _ List.mem_cons_self) id
    | umount i kmalloc => exact absurd (hworks _ List.mem_cons_self) id
    | write i b block calls => exact absurd (hworks _ List.mem_cons_self) id

/-- A queue that is not empty can go on. -/
theorem flush_continues (hall : ∀ x ∈ s.dirs.opened, s.Loggable fuel x) {o : ObjectId δ}
    (ho : s.dirs.wq o ≠ []) {outcomes : WorkOutcomes} (hout : outcomes.Succeeds) :
    ∃ s', (activatedMachine hash maxEntries fuel N).step s (.work o outcomes) = some s' := by
  cases hqueue : s.dirs.wq o with
  | nil => exact absurd hqueue ho
  | cons q wq =>
    obtain ⟨addr, w⟩ := q
    have hhead : (addr, w) ∈ s.dirs.wq o := by
      rw [hqueue]
      exact List.mem_cons_self
    obtain ⟨x, hx, rfl, rfl⟩ := owned h o hhead
    exact work_returns h (hall x hx) hout hqueue

end Reached

omit [DecidableEq δ] in
/-- What an epoch is judged by is the same in two states. -/
theorem Loggable.congr {s' : ActivatedDisks δ N} (hopened : s'.dirs.opened = s.dirs.opened)
    (hsince : s'.since = s.since) {x : Opening (ObjectId δ)} (hx : s.Loggable fuel x) :
    s'.Loggable fuel x := by
  refine ⟨hopened ▸ hx.opened, fun y hy => hx.alone y (hopened ▸ hy), ?_, ?_⟩
  · rw [hsince]
    exact hx.scans
  · rw [hsince]
    exact hx.fits

end ActivatedDisks

/-- The queued works of all queues in any order: the longest runs are as long as there are works,
no queue with a work in it is stuck on the way, and behind them every epoch that was ever
opened, of devices registered or not, takes its device back from its end to its start. -/
theorem flush_restorable [DecidableEq δ] {hash : UInt64 → ℕ} {maxEntries fuel : ℕ}
    {s : ActivatedDisks δ N}
    (h : (activatedMachine hash maxEntries fuel N).Reach ActivatedDisks.WorksSucceed s)
    (hN : ∀ x ∈ s.dirs.opened, N x.dev.dev * singlefilefsBlockSize < 2 ^ 63)
    (hall : ∀ x ∈ s.dirs.opened, s.Loggable fuel x) {as : List (ActivatedAct δ N)}
    (hworks : ∀ a ∈ as, a.IsWork)
    (hmeets : (activatedMachine hash maxEntries fuel N).Meets ActivatedDisks.WorksSucceed s as)
    {s' : ActivatedDisks δ N}
    (hrun : (activatedMachine hash maxEntries fuel N).run s as = some s') :
    s.queued = s'.queued + as.length ∧
    (∀ o outcomes, s'.dirs.wq o ≠ [] → outcomes.Succeeds →
      ∃ s'', (activatedMachine hash maxEntries fuel N).step s' (.work o outcomes) = some s'') ∧
    (s'.queued = 0 → ∀ x ∈ s.dirs.opened, ∀ opts : RestoreOpts, opts.All → ∀ kind stdin,
      ∃ t, doRestore opts (fun _ => .allDone) fuel (s'.content x)
        (.start kind (flatten (s.ended x.dev.dev x.addr)) stdin) = some (t, true) ∧
        t.dev.data = flatten (s.begun x.dev.dev x.addr)) := by
  obtain ⟨hopened, hbegun, hsince, hqueued⟩ := ActivatedDisks.works_effect h hworks hmeets hrun
  have h' := h.run hmeets hrun
  have hall' : ∀ x ∈ s'.dirs.opened, s'.Loggable fuel x := fun x hx =>
    (hall x (hopened ▸ hx)).congr hopened hsince
  refine ⟨hqueued, fun o outcomes ho hout => ActivatedDisks.flush_continues h' hall' ho hout, ?_⟩
  intro hnone x hx opts hopts kind stdin
  have hdrained : ∀ q ∈ s'.dirs.wq x.dev, q.1 ≠ x.addr := by
    rw [ActivatedDisks.wq_eq_nil h' hnone]
    nofun
  obtain ⟨t, hrestore, hdata⟩ := ActivatedDisks.doRestore_epoch h' (hall' x (hopened ▸ hx))
    (hN x hx) hdrained hopts kind stdin []
  refine ⟨t, ?_, ?_⟩
  · rwa [ActivatedDisks.ended, hbegun, hsince] at hrestore
  · rwa [hbegun] at hdata

/-- The work of the activation that goes on is executed before that of the one that ended. -/
theorem flush_restorable_bare :
    ∃ s s', (activatedMachine (fun _ => 0) 4 4 fun _ => 1).run bareDisk bareHistory.dropLast =
        some s ∧
      (activatedMachine (fun _ => 0) 4 4 fun _ => 1).run s
        [.work ⟨(), 1, "/img".toList⟩ .allDone, .work ⟨(), 0, "/img".toList⟩ .allDone] = some s' ∧
      s.queued = 2 ∧
      ∀ x ∈ s.dirs.opened, ∃ t, doRestore ⟨true, 0, false⟩ (fun _ => .allDone) 4 (s'.content x)
        (.start .block (flatten (s.ended x.dev.dev x.addr)) []) = some (t, true) ∧
        t.dev.data = flatten (s.begun x.dev.dev x.addr) := by
  have hrun := Machine.run_eq_getD (activatedMachine (fun _ => 0) 4 4 fun _ => 1) bareDisk
    bareHistory.dropLast (by decide +kernel)
  generalize hs : ((activatedMachine (fun _ => 0) 4 4 fun _ => 1).run bareDisk
    bareHistory.dropLast).getD bareDisk = s at hrun
  have hrun' := Machine.run_eq_getD (activatedMachine (fun _ => 0) 4 4 fun _ => 1) s
    [.work ⟨(), 1, "/img".toList⟩ .allDone, .work ⟨(), 0, "/img".toList⟩ .allDone]
    (by rw [← hs]; decide +kernel)
  generalize hs' : ((activatedMachine (fun _ => 0) 4 4 fun _ => 1).run s
    [.work ⟨(), 1, "/img".toList⟩ .allDone, .work ⟨(), 0, "/img".toList⟩ .allDone]).getD s = s'
    at hrun'
  have hopened : s.dirs.opened.map (fun x => (x.dev, x.addr, x.dir ObjectId.path)) =
      bareEpochs := by
    rw [← hs]
    decide +kernel
  have hsince : ∀ addr ∈ [0, 1], (s.since () addr).length = 1 := by
    rw [← hs]
    decide +kernel
  have hqueued : s.queued = 2 := by
    rw [← hs]
    decide +kernel
  have hnone : s'.queued = 0 := by
    rw [← hs', ← hs]
    decide +kernel
  have hreach := Machine.Reach.run (.init bareDisk_init)
    (bareHistory_succeeds _ _ fun _ ha => List.mem_of_mem_dropLast ha) hrun
  have hall := bare_loggable hopened hsince
  have hworks : ∀ a ∈ ([.work ⟨(), 1, "/img".toList⟩ .allDone,
      .work ⟨(), 0, "/img".toList⟩ .allDone] : List (ActivatedAct Unit fun _ => 1)),
      a.IsWork := by
    intro a ha
    simp only [List.mem_cons, List.not_mem_nil, or_false] at ha
    rcases ha with rfl | rfl
    · trivial
    · trivial
  have hmeets : (activatedMachine (fun _ => 0) 4 4 fun _ => 1).Meets ActivatedDisks.WorksSucceed s
      [.work ⟨(), 1, "/img".toList⟩ .allDone, .work ⟨(), 0, "/img".toList⟩ .allDone] :=
    ⟨WorkOutcomes.allDone_succeeds, fun _ _ => ⟨WorkOutcomes.allDone_succeeds, fun _ _ => trivial⟩⟩
  refine ⟨s, s', hrun, hrun', hqueued, fun x hx => ?_⟩
  exact (flush_restorable hreach (fun _ _ => by decide) hall hworks hmeets hrun').2.2 hnone x hx _
    ⟨rfl, rfl⟩ .block []

end BlkdevSnapshot

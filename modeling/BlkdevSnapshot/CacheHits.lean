import BlkdevSnapshot.CachedLog
import BlkdevSnapshot.Restorable

/-!
# Whether the cache spares the file scan

Works of one epoch in which every allocation and file operation succeeds, over a
snapblocks file that may hold any bytes before the first of them. A work that finds its
block in the file caches it; a work that writes its block does not. The cache follows
the submitted blocks exactly as long as no work writes.
-/
namespace BlkdevSnapshot
open LruNg RecencyList PartialWalk

/-- The shared state of the works of an epoch and the blocks submitted so far, oldest
first. -/
structure EpochRun where
  work : WorkState
  submitted : List UInt64

variable (hash : UInt64 → ℕ) (maxEntries fuel : ℕ) (dir : CStr)

/-- The works of one epoch over whatever snapblocks file its directory holds. -/
def submissionMachine : Machine EpochRun WorkRun where
  init s := s.work.Ok hash dir ∧ s.work.cached = [] ∧ s.submitted = []
  step s x :=
    if x.2.dir = dir then
      (makeSnapshot hash maxEntries fuel x.1 x.2 s.work).map fun r =>
        ⟨r.1, s.submitted ++ [x.2.blockNr]⟩
    else none

namespace EpochRun

/-- The work belongs to the epoch, its operations succeed and it returns; a record
that it writes is written completely. -/
structure Healthy (s : EpochRun) (x : WorkRun) : Prop where
  dir_eq : x.2.dir = dir
  succeeds : x.1.Succeeds
  nodeAlloc : x.1.nodeAlloc = true
  returns : ∃ t e, makeSnapshot hash maxEntries fuel x.1 x.2 s.work = some (t, e) ∧
    e ≠ .writeFailed

/-- Afterwards the block of the work is the most recently used one, and the work opened
and scanned no file if its block was among the most recent ones. -/
def Spares (s : EpochRun) (x : WorkRun) : Prop :=
  ∀ t e, makeSnapshot hash maxEntries fuel x.1 x.2 s.work = some (t, e) →
    t.cached.getLast? = some x.2.blockNr ∧
    (x.2.blockNr ∈ recent maxEntries s.submitted → e = .hit)

/-- What holds before a work as long as every submitted block is recorded in `file`. -/
structure Follows (file : Bytes) (s : EpochRun) : Prop where
  ok : s.work.Ok hash dir
  content_eq : s.work.content dir = file
  cached_eq : s.work.cached = recent maxEntries s.submitted
  recorded : ∀ b ∈ s.submitted, OnLookupChain file b

end EpochRun

/-- With succeeding operations the exits of a work are a hit, a find and a write. -/
theorem makeSnapshot_exit {hash : UInt64 → ℕ} {maxEntries fuel : ℕ} {o : WorkOutcomes}
    (ho : o.Succeeds) {w : MakeSnapshotWork} {s s' : WorkState} (hs : s.Ok hash w.dir)
    {e : WorkEnd} (h : makeSnapshot hash maxEntries fuel o w s = some (s', e))
    (hw : e ≠ .writeFailed) : e = .hit ∨ e = .found ∨ e = .written := by
  rcases makeSnapshot_ends hash maxEntries fuel ho hs with
    ⟨t, hend⟩ | ⟨-, hend⟩ | ⟨-, t, hend⟩ | ⟨-, t, hend⟩
  · rw [hend, Option.some.injEq, Prod.mk.injEq] at h
    exact .inl h.2.symm
  · rw [hend] at h
    cases h
  · rw [hend, Option.some.injEq, Prod.mk.injEq] at h
    exact .inr (.inl h.2.symm)
  · rw [hend, Option.some.injEq, Prod.mk.injEq] at h
    split at h
    · exact .inr (.inr h.2.symm)
    · exact absurd h.2.symm hw

/-- A scan that ends without the block leaves it off the chain of headers. -/
theorem not_onLookupChain_of_fileLookup {file : Bytes} {b : UInt64} {fuel : ℕ}
    (h : fileLookup fuel (fun _ => true) b file = some false) : ¬ OnLookupChain file b := by
  rintro ⟨n, off, hwalk, hnamed⟩
  have hend : walk (lookupNext file b) fuel 0 = none := by
    by_contra hne
    rw [fileLookup, (fileLookupFrom_eq_none_iff file b fuel 0 0).mpr hne] at h
    cases h
  have hn : n < fuel := by
    by_contra hn
    rw [walk_of_le hend (Nat.not_lt.mp hn)] at hwalk
    cases hwalk
  rw [fileLookup, (fileLookupFrom_true_iff file b fuel 0 0).mpr ⟨n, hn, off, hwalk, hnamed⟩]
    at h
  cases h

namespace EpochRun
variable {hash : UInt64 → ℕ} {maxEntries fuel : ℕ} {dir : CStr} {file : Bytes}
variable {s : EpochRun} {x : WorkRun}

theorem Follows.off_cache (h : s.Follows hash maxEntries dir file) {b : UInt64}
    (hb : ¬ OnLookupChain file b) : b ∉ s.work.cached := by
  intro hmem
  rw [h.cached_eq] at hmem
  exact hb (h.recorded b (mem_of_mem_recent hmem))

/-- What a healthy work does in a state that follows the submitted blocks. -/
theorem Follows.work (h : s.Follows hash maxEntries dir file)
    (hx : s.Healthy hash maxEntries fuel dir x) :
    ∃ t e, makeSnapshot hash maxEntries fuel x.1 x.2 s.work = some (t, e) ∧ t.Ok hash dir ∧
      (OnLookupChain file x.2.blockNr → t.content dir = file ∧
        t.cached = recent maxEntries (s.submitted ++ [x.2.blockNr]) ∧
        (x.2.blockNr ∈ s.work.cached → e = .hit)) ∧
      (¬ OnLookupChain file x.2.blockNr → t.cached = s.work.cached) := by
  obtain ⟨rfl, ho, hnode, t, e, hstep, hnf⟩ := hx
  have hread : x.1.headerRead = fun _ => true := funext ho.headerRead
  have he := makeSnapshot_exit ho h.ok hstep hnf
  obtain ⟨hok, -, heff⟩ := makeSnapshot_effect h.ok hstep
  refine ⟨t, e, hstep, hok, ?_⟩
  generalize hf : t.content x.2.dir = file' at heff
  generalize hc : t.cached = cached' at heff
  rw [h.content_eq] at heff
  cases heff with
  | lruFailed => simp at he
  | dirFailed => simp at he
  | fileFailed => simp at he
  | writeFailed => simp at he
  | hit hk =>
    refine ⟨fun _ => ⟨rfl, ?_, fun _ => rfl⟩, fun hoff => absurd hk (h.off_cache hoff)⟩
    rw [h.cached_eq] at hk ⊢
    exact touch_recent hk
  | found hk hl =>
    rw [hread] at hl
    have hon := (fileLookup_true_iff file x.2.blockNr).mp ⟨_, hl⟩
    refine ⟨fun _ => ⟨rfl, ?_, fun hin => absurd hin hk⟩, fun hoff => absurd hon hoff⟩
    rw [hnode, if_pos rfl]
    rw [h.cached_eq] at hk ⊢
    exact push_recent hk
  | written hk hl =>
    rw [hread] at hl
    exact ⟨fun hon => absurd hon (not_onLookupChain_of_fileLookup hl), fun _ => rfl⟩

/-- A work on a recorded block keeps the cache in step with the submitted blocks. -/
theorem Follows.recorded_step (h : s.Follows hash maxEntries dir file)
    (hx : s.Healthy hash maxEntries fuel dir x) (hon : OnLookupChain file x.2.blockNr) :
    (0 < maxEntries → s.Spares hash maxEntries fuel x) ∧
    ∀ s', (submissionMachine hash maxEntries fuel dir).step s x = some s' →
      s'.Follows hash maxEntries dir file := by
  obtain ⟨t, e, hstep, hok, hrec, -⟩ := h.work hx
  obtain ⟨hf, hc, hhit⟩ := hrec hon
  constructor
  · intro hpos t' e' hstep'
    rw [hstep, Option.some.injEq, Prod.mk.injEq] at hstep'
    obtain ⟨rfl, rfl⟩ := hstep'
    refine ⟨?_, fun hin => hhit (h.cached_eq ▸ hin)⟩
    rw [hc, getLast?_recent_concat hpos]
  · intro s' hs'
    simp only [submissionMachine, if_pos hx.dir_eq, hstep, Option.map_some,
      Option.some.injEq] at hs'
    subst hs'
    refine ⟨hok, hf, hc, ?_⟩
    intro b hb
    rcases List.mem_append.mp hb with hb | hb
    · exact h.recorded b hb
    · rw [List.mem_singleton.mp hb]
      exact hon

/-- A work that writes its block leaves it out of the cache. -/
theorem Follows.not_spares (h : s.Follows hash maxEntries dir file)
    (hx : s.Healthy hash maxEntries fuel dir x) (hoff : ¬ OnLookupChain file x.2.blockNr) :
    ¬ s.Spares hash maxEntries fuel x := by
  obtain ⟨t, e, hstep, -, -, hkeep⟩ := h.work hx
  intro hspares
  have hlast := (hspares t e hstep).1
  rw [hkeep hoff] at hlast
  exact h.off_cache hoff (List.mem_of_getLast? hlast)

/-- Without room in the cache no work leaves its block there. -/
theorem Follows.not_spares_of_zero (h : s.Follows hash 0 dir file)
    (hx : s.Healthy hash 0 fuel dir x) : ¬ s.Spares hash 0 fuel x := by
  by_cases hon : OnLookupChain file x.2.blockNr
  · obtain ⟨t, e, hstep, -, hrec, -⟩ := h.work hx
    intro hspares
    have hlast := (hspares t e hstep).1
    have hnil := length_recent_le 0 (s.submitted ++ [x.2.blockNr])
    rw [← (hrec hon).2.1, Nat.le_zero, List.length_eq_zero_iff] at hnil
    rw [hnil] at hlast
    cases hlast
  · exact h.not_spares hx hon

/-- From a state that follows the submitted blocks, the works spare the scans exactly
when there is room in the cache and all their blocks are recorded. -/
theorem Follows.meets_iff {xs : List WorkRun} (h : s.Follows hash maxEntries dir file)
    (hx : (submissionMachine hash maxEntries fuel dir).Meets
      (EpochRun.Healthy hash maxEntries fuel dir) s xs) :
    (submissionMachine hash maxEntries fuel dir).Meets
        (EpochRun.Spares hash maxEntries fuel) s xs ↔
      xs = [] ∨ 0 < maxEntries ∧ ∀ x ∈ xs, OnLookupChain file x.2.blockNr := by
  rcases Nat.eq_zero_or_pos maxEntries with rfl | hpos
  · cases xs with
    | nil => simp [Machine.Meets]
    | cons x xs =>
      simp only [reduceCtorEq, lt_irrefl, false_and, or_self, iff_false]
      exact fun hmeets => h.not_spares_of_zero hx.1 hmeets.1
  · suffices hall : (submissionMachine hash maxEntries fuel dir).Meets
        (EpochRun.Spares hash maxEntries fuel) s xs ↔
          ∀ x ∈ xs, OnLookupChain file x.2.blockNr by
      rw [hall]
      constructor
      · exact fun hon => .inr ⟨hpos, hon⟩
      · rintro (rfl | ⟨-, hon⟩)
        · simp
        · exact hon
    induction xs generalizing s with
    | nil => simp [Machine.Meets]
    | cons x xs ih =>
      rw [List.forall_mem_cons]
      by_cases hon : OnLookupChain file x.2.blockNr
      · obtain ⟨hspares, hnext⟩ := h.recorded_step hx.1 hon
        obtain ⟨t, e, hstep, -⟩ := h.work hx.1
        obtain ⟨s', hs'⟩ : ∃ s', (submissionMachine hash maxEntries fuel dir).step s x =
            some s' := by
          simp only [submissionMachine, if_pos hx.1.dir_eq, hstep, Option.map_some]
          exact ⟨_, rfl⟩
        have hrest := ih (hnext s' hs') (hx.2 s' hs')
        constructor
        · exact fun hmeets => ⟨hon, hrest.mp (hmeets.2 s' hs')⟩
        · rintro ⟨-, hxs⟩
          refine ⟨hspares hpos, fun u hu => ?_⟩
          obtain rfl : s' = u := Option.some.inj (hs'.symm.trans hu)
          exact hrest.mpr hxs
      · constructor
        · exact fun hmeets => absurd hmeets.1 (h.not_spares hx.1 hon)
        · exact fun hall => absurd hall.1 hon

end EpochRun

/-- The works of an epoch keep their blocks cached and spare the scans exactly when
there are none, or there is room in the cache and every submitted block has a header in
the file that the epoch finds. -/
theorem submissions_spare_iff {hash : UInt64 → ℕ} {maxEntries fuel : ℕ} {dir : CStr}
    {s : EpochRun} {xs : List WorkRun}
    (hs : (submissionMachine hash maxEntries fuel dir).init s)
    (hx : (submissionMachine hash maxEntries fuel dir).Meets
      (EpochRun.Healthy hash maxEntries fuel dir) s xs) :
    (submissionMachine hash maxEntries fuel dir).Meets
        (EpochRun.Spares hash maxEntries fuel) s xs ↔
      xs = [] ∨ 0 < maxEntries ∧
        ∀ x ∈ xs, OnLookupChain (s.work.content dir) x.2.blockNr := by
  obtain ⟨hok, hcached, hsub⟩ := hs
  have hfollows : s.Follows hash maxEntries dir (s.work.content dir) := by
    refine ⟨hok, rfl, ?_, ?_⟩
    · simp [hcached, hsub, recent, List.rtake]
    · simp [hsub]
  exact hfollows.meets_iff hx

/-- A work of two bytes on a block, with nothing that fails. -/
def twoByteWork (b : UInt64) : WorkRun :=
  (.allDone, ⟨b, [1, 2], "/dev/sda".toList, "-2025-02-03_04:05:06".toList, by simp⟩)

/-- The first work of an epoch whose directory holds a file of the given bytes already. -/
def EpochRun.onFile (dir : CStr) (file : Bytes) : EpochRun :=
  ⟨⟨none, none, fun d => if d = dir then some file else none⟩, []⟩

theorem EpochRun.onFile_init (hash : UInt64 → ℕ) (maxEntries fuel : ℕ) (dir : CStr)
    (file : Bytes) : (submissionMachine hash maxEntries fuel dir).init (.onFile dir file) :=
  ⟨⟨by simp [onFile], by simp [onFile]⟩, rfl, rfl⟩

/-- The exits of the works tell whether a run is healthy. -/
theorem meets_healthy_twoByteWork {hash : UInt64 → ℕ} {maxEntries fuel : ℕ} {s : EpochRun}
    {bs : List UInt64}
    (h : (submissionMachine hash maxEntries fuel (twoByteWork 0).2.dir).Meets
      (fun s x => (makeSnapshot hash maxEntries fuel x.1 x.2 s.work).map
        (fun r => decide (r.2 ≠ .writeFailed)) = some true) s (bs.map twoByteWork)) :
    (submissionMachine hash maxEntries fuel (twoByteWork 0).2.dir).Meets
      (EpochRun.Healthy hash maxEntries fuel (twoByteWork 0).2.dir) s (bs.map twoByteWork) := by
  refine h.imp_mem fun s x hx hend => ?_
  obtain ⟨b, -, rfl⟩ := List.mem_map.mp hx
  rw [Option.map_eq_some_iff] at hend
  obtain ⟨r, hr, hne⟩ := hend
  exact ⟨rfl, WorkOutcomes.allDone_succeeds, rfl, r.1, r.2, hr, of_decide_eq_true hne⟩

/-- A block with a record, submitted twice. -/
theorem submissions_spare_iff_recorded :
    let s := EpochRun.onFile (twoByteWork 0).2.dir (twoByteWork 7).2.record.encode
    (submissionMachine (fun _ => 0) 1 4 (twoByteWork 0).2.dir).Meets
        (EpochRun.Spares (fun _ => 0) 1 4) s ([7, 7].map twoByteWork) ↔
      [7, 7].map twoByteWork = [] ∨ 0 < 1 ∧ ∀ x ∈ [7, 7].map twoByteWork,
        OnLookupChain (s.work.content (twoByteWork 0).2.dir) x.2.blockNr :=
  submissions_spare_iff (EpochRun.onFile_init _ _ _ _ _)
    (meets_healthy_twoByteWork (by decide +kernel))

/-- The second submission of a block that the first one wrote scans the file again. -/
theorem not_submissions_spare :
    (submissionMachine (fun _ => 0) 1 4 (twoByteWork 0).2.dir).init
      (.onFile (twoByteWork 0).2.dir []) ∧
    (submissionMachine (fun _ => 0) 1 4 (twoByteWork 0).2.dir).Meets
      (EpochRun.Healthy (fun _ => 0) 1 4 (twoByteWork 0).2.dir)
      (.onFile (twoByteWork 0).2.dir []) ([7, 7].map twoByteWork) ∧
    ¬ (submissionMachine (fun _ => 0) 1 4 (twoByteWork 0).2.dir).Meets
      (EpochRun.Spares (fun _ => 0) 1 4)
      (.onFile (twoByteWork 0).2.dir []) ([7, 7].map twoByteWork) := by
  have hx : (submissionMachine (fun _ => 0) 1 4 (twoByteWork 0).2.dir).Meets
      (EpochRun.Healthy (fun _ => 0) 1 4 (twoByteWork 0).2.dir)
      (.onFile (twoByteWork 0).2.dir []) ([7, 7].map twoByteWork) :=
    meets_healthy_twoByteWork (by decide +kernel)
  refine ⟨EpochRun.onFile_init _ _ _ _ _, hx, fun hspares => ?_⟩
  have hscan : fileLookup 1 (fun _ => true) 7 [] = some false := by decide +kernel
  have hoff : ¬ OnLookupChain [] 7 := not_onLookupChain_of_fileLookup hscan
  have hfollows : (EpochRun.onFile (twoByteWork 0).2.dir []).Follows (fun _ => 0) 1
      (twoByteWork 0).2.dir [] :=
    ⟨(EpochRun.onFile_init (fun _ => 0) 1 4 _ []).1, by simp [EpochRun.onFile, WorkState.content],
      rfl, by simp [EpochRun.onFile]⟩
  exact hfollows.not_spares hx.1 hoff hspares.1

end BlkdevSnapshot

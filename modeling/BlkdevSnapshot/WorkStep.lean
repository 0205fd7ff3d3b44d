import BlkdevSnapshot.LogScan
import BlkdevSnapshot.Machine

/-!
# What one snapshot work does

`make_snapshot` seen from the two things that outlive it: the bytes of its
snapblocks file and the list of cached block numbers. `WorkEffect` lists its
exits once; later results take cases on it and never unfold the work again.
-/
namespace BlkdevSnapshot
open LruNg RecencyList

theorem writePart_appends (o : IoOutcome) (file buf : Bytes) :
    Appends file buf (writePart o file buf).2 (writePart o file buf).1 :=
  kernelWrite_appends o file buf

/-- `write_snapblock` appends a prefix of the record, all of it iff it returns true. -/
theorem writeSnapblock_appends (o : WriteOutcomes) (file : Bytes) (wargs : WriteSnapblockArgs) :
    Appends file wargs.bytes (writeSnapblock o file wargs).2 (writeSnapblock o file wargs).1 := by
  have hhdr := writePart_appends o.mandatoryHdr file wargs.mandatoryHdr.toBytes
  unfold writeSnapblock WriteSnapblockArgs.bytes
  cases h1 : (writePart o.mandatoryHdr file wargs.mandatoryHdr.toBytes).2 with
  | false =>
    rw [h1] at hhdr
    simpa [h1] using (hhdr.stop (wargs.extendedHdr.getD [])).stop wargs.payload
  | true =>
    rw [h1] at hhdr
    cases hext : wargs.extendedHdr with
    | none =>
      simpa [h1, hext] using hhdr.trans (writePart_appends o.payload _ wargs.payload)
    | some e =>
      by_cases he : 0 < e.length
      · have hx := writePart_appends o.extendedHdr
          (writePart o.mandatoryHdr file wargs.mandatoryHdr.toBytes).1 e
        cases h2 : (writePart o.extendedHdr
            (writePart o.mandatoryHdr file wargs.mandatoryHdr.toBytes).1 e).2 with
        | false =>
          rw [h2] at hx
          simpa [h1, hext, he, h2] using (hhdr.trans hx).stop wargs.payload
        | true =>
          rw [h2] at hx
          simpa [h1, hext, he, h2] using
            (hhdr.trans hx).trans (writePart_appends o.payload _ wargs.payload)
      · have hnil : e = [] := List.eq_nil_of_length_eq_zero (by omega)
        simpa [h1, hext, hnil] using hhdr.trans (writePart_appends o.payload _ wargs.payload)

namespace WorkState

/-- The bytes of the snapblocks file of a directory; an absent file has none. -/
def content (s : WorkState) (dir : CStr) : Bytes := (s.snapblocks dir).getD []

/-- The block numbers in the cache of the epoch. -/
def cached (s : WorkState) : List UInt64 := (s.cachedBlocks.map keys).getD []

/-- The cache is well formed and the directory handle, if any, is that of the epoch. -/
structure Ok (hash : UInt64 → ℕ) (dir : CStr) (s : WorkState) : Prop where
  cache_wf : ∀ lru, s.cachedBlocks = some lru → lru.Wf hash
  path_eq : ∀ d, s.pathSnapdir = some d → d = dir

end WorkState

/-- The exits of `make_snapshot` on a file and a list of cached blocks, with what
led to each of them and the file and the list afterwards. -/
inductive WorkEffect (maxEntries fuel : ℕ) (o : WorkOutcomes) (w : MakeSnapshotWork)
    (file : Bytes) (cached : List UInt64) : WorkEnd → Bytes → List UInt64 → Prop where
  | lruFailed : WorkEffect _ _ o w file cached .lruFailed file cached
  | hit (hk : w.blockNr ∈ cached) :
      WorkEffect _ _ o w file cached .hit file (touch cached w.blockNr)
  | dirFailed (hk : w.blockNr ∉ cached) : WorkEffect _ _ o w file cached .dirFailed file cached
  | fileFailed (hk : w.blockNr ∉ cached) : WorkEffect _ _ o w file cached .fileFailed file cached
  | found (hk : w.blockNr ∉ cached)
      (hl : fileLookup fuel o.headerRead w.blockNr file = some true) :
      WorkEffect _ _ o w file cached .found file
        (if o.nodeAlloc then push maxEntries cached w.blockNr else cached)
  | written (hk : w.blockNr ∉ cached)
      (hl : fileLookup fuel o.headerRead w.blockNr file = some false)
      (hw : (writeSnapblock o.write file w.wargs).2 = true) :
      WorkEffect _ _ o w file cached .written (writeSnapblock o.write file w.wargs).1 cached
  | writeFailed (hk : w.blockNr ∉ cached)
      (hl : fileLookup fuel o.headerRead w.blockNr file = some false)
      (hw : (writeSnapblock o.write file w.wargs).2 = false) :
      WorkEffect _ _ o w file cached .writeFailed (writeSnapblock o.write file w.wargs).1
        (if o.nodeAlloc then push maxEntries cached w.blockNr else cached)

variable {hash : UInt64 → ℕ} {maxEntries : ℕ}

theorem ensureCachedBlocksLruOk_spec {alloc : Bool} {c : Option LruNg} {lru : LruNg}
    (hwf : ∀ l, c = some l → l.Wf hash) (h : ensureCachedBlocksLruOk alloc c = some lru) :
    lru.Wf hash ∧ lru.keys = (c.map keys).getD [] := by
  cases c with
  | none =>
    cases alloc with
    | false => simp [ensureCachedBlocksLruOk] at h
    | true =>
      simp only [ensureCachedBlocksLruOk, if_true, Option.some.injEq] at h
      subst h
      exact ⟨init_wf, rfl⟩
  | some l =>
    simp only [ensureCachedBlocksLruOk, Option.some.injEq] at h
    subst h
    exact ⟨hwf l rfl, rfl⟩

theorem ensurePathSnapdirOk_eq {o : WorkOutcomes} {path : Option CStr} {w : MakeSnapshotWork}
    {dir : CStr} (hp : ∀ d, path = some d → d = w.dir)
    (h : ensurePathSnapdirOk o path w.originalDevName w.firstMountDate = some dir) :
    dir = w.dir := by
  have hinit : initPathSnapdir o w.originalDevName w.firstMountDate = some dir → dir = w.dir := by
    intro hi
    unfold initPathSnapdir at hi
    split at hi
    · exact (Option.some.inj hi).symm
    · cases hi
  cases path with
  | none => exact hinit h
  | some d =>
    unfold ensurePathSnapdirOk at h
    cases hd : o.dirHealthy with
    | true => simp only [hd, if_true, Option.some.injEq] at h; exact h ▸ hp d rfl
    | false => simp only [hd, Bool.false_eq_true, if_false] at h; exact hinit h

/-- Opening or creating the file keeps its bytes. -/
theorem ensureSnapblocksFileOk_content (o : WorkOutcomes) (file : Option Bytes) :
    (ensureSnapblocksFileOk o file).2.getD [] = file.getD [] ∧
    ∀ c, (ensureSnapblocksFileOk o file).1 = .opened c → c = file.getD [] := by
  cases file with
  | some content =>
    cases h1 : o.pathLookup <;> cases h2 : o.dentryOpen <;>
      simp [ensureSnapblocksFileOk, createSnapblocksFile, h1, h2]
  | none =>
    cases h1 : o.create <;> cases h2 : o.dentryOpen <;>
      simp [ensureSnapblocksFileOk, createSnapblocksFile, h1, h2]

/-- The work after its file was opened. -/
theorem snapshotInto_effect {fuel : ℕ} {o : WorkOutcomes} {w : MakeSnapshotWork} {lru : LruNg}
    {s s' : WorkState} {e : WorkEnd} (hwf : lru.Wf hash) (hk : w.blockNr ∉ lru.keys)
    (hc : s.cachedBlocks = some lru) (hp : s.pathSnapdir = some w.dir)
    (h : snapshotInto hash maxEntries fuel o w lru w.dir (s.content w.dir) s = some (s', e)) :
    s'.Ok hash w.dir ∧ (∀ d ≠ w.dir, s'.snapblocks d = s.snapblocks d) ∧
    WorkEffect maxEntries fuel o w (s.content w.dir) lru.keys e (s'.content w.dir) s'.cached := by
  obtain ⟨hadd, -, hkeys⟩ := lruNgAdd_spec maxEntries hwf hk o.nodeAlloc
  have hpath : ∀ d, s.pathSnapdir = some d → d = w.dir := fun d hd => by
    rw [hp] at hd; exact (Option.some.inj hd).symm
  unfold snapshotInto at h
  cases hl : fileLookup fuel o.headerRead w.blockNr (s.content w.dir) with
  | none => simp [hl] at h
  | some found =>
    cases found with
    | true =>
      simp only [hl, Option.some.injEq, Prod.mk.injEq] at h
      obtain ⟨rfl, rfl⟩ := h
      refine ⟨⟨fun l hl' => ?_, hpath⟩, fun _ _ => rfl, ?_⟩
      · cases hl'; exact hadd
      · simpa [WorkState.cached, WorkState.content, hkeys] using WorkEffect.found hk hl
    | false =>
      simp only [hl] at h
      cases hw : (writeSnapblock o.write (s.content w.dir) w.wargs).2 with
      | true =>
        simp only [hw, if_true, Option.some.injEq, Prod.mk.injEq] at h
        obtain ⟨rfl, rfl⟩ := h
        refine ⟨⟨fun l hl' => ?_, hpath⟩, fun d hd => Function.update_of_ne hd _ _, ?_⟩
        · rw [hc] at hl'; cases hl'; exact hwf
        · simpa [WorkState.cached, WorkState.content, hc] using WorkEffect.written hk hl hw
      | false =>
        simp only [hw, Bool.false_eq_true, if_false, Option.some.injEq, Prod.mk.injEq] at h
        obtain ⟨rfl, rfl⟩ := h
        refine ⟨⟨fun l hl' => ?_, hpath⟩, fun d hd => Function.update_of_ne hd _ _, ?_⟩
        · cases hl'; exact hadd
        · simpa [WorkState.cached, WorkState.content, hkeys] using WorkEffect.writeFailed hk hl hw

/-- Every terminating `make_snapshot` of an epoch takes one of the listed exits,
keeps the state in order and leaves the files of other directories alone. -/
theorem makeSnapshot_effect {fuel : ℕ} {o : WorkOutcomes} {w : MakeSnapshotWork}
    {s s' : WorkState} {e : WorkEnd} (hs : s.Ok hash w.dir)
    (h : makeSnapshot hash maxEntries fuel o w s = some (s', e)) :
    s'.Ok hash w.dir ∧ (∀ d ≠ w.dir, s'.snapblocks d = s.snapblocks d) ∧
    WorkEffect maxEntries fuel o w (s.content w.dir) s.cached e (s'.content w.dir) s'.cached := by
  unfold makeSnapshot at h
  cases hlru : ensureCachedBlocksLruOk o.lruAlloc s.cachedBlocks with
  | none =>
    simp only [hlru, Option.some.injEq, Prod.mk.injEq] at h
    obtain ⟨rfl, rfl⟩ := h
    exact ⟨hs, fun _ _ => rfl, .lruFailed⟩
  | some lru =>
    obtain ⟨hwf, hcached⟩ := ensureCachedBlocksLruOk_spec hs.cache_wf hlru
    obtain ⟨hwf', hhit, hkeys⟩ := lruNgLookup_spec hwf w.blockNr
    have hcached' : s.cached = lru.keys := hcached.symm
    rw [hcached']
    simp only [hlru] at h
    by_cases hk : w.blockNr ∈ lru.keys
    · rw [if_pos hk] at hkeys
      simp only [hhit, hk, decide_true, if_true, Option.some.injEq, Prod.mk.injEq] at h
      obtain ⟨rfl, rfl⟩ := h
      refine ⟨⟨fun l hl => ?_, hs.path_eq⟩, fun _ _ => rfl, ?_⟩
      · cases hl; exact hwf'
      · simpa [WorkState.cached, hkeys, WorkState.content] using WorkEffect.hit hk
    · rw [if_neg hk] at hkeys
      simp only [hhit, hk, decide_false, Bool.false_eq_true, if_false] at h
      cases hdir : ensurePathSnapdirOk o s.pathSnapdir w.originalDevName w.firstMountDate with
      | none =>
        simp only [hdir, Option.some.injEq, Prod.mk.injEq] at h
        obtain ⟨rfl, rfl⟩ := h
        refine ⟨⟨fun l hl => ?_, by simp⟩, fun _ _ => rfl, ?_⟩
        · cases hl; exact hwf'
        · simpa [WorkState.cached, hkeys, WorkState.content] using WorkEffect.dirFailed hk
      | some dir =>
        have hd : dir = w.dir := ensurePathSnapdirOk_eq hs.path_eq hdir
        subst hd
        simp only [hdir] at h
        obtain ⟨hfile, hopen⟩ := ensureSnapblocksFileOk_content o (s.snapblocks w.dir)
        cases hsetup : (ensureSnapblocksFileOk o (s.snapblocks w.dir)).1 with
        | errPtr => simp [hsetup] at h
        | failed =>
          simp only [hsetup, Option.some.injEq, Prod.mk.injEq] at h
          obtain ⟨rfl, rfl⟩ := h
          refine ⟨⟨fun l hl => ?_, by simp⟩, fun d hd => Function.update_of_ne hd _ _, ?_⟩
          · cases hl; exact hwf'
          · simpa [WorkState.cached, hkeys, WorkState.content, hfile] using WorkEffect.fileFailed hk
        | opened content =>
          have hcontent := hopen content hsetup
          simp only [hsetup] at h
          have hcont : WorkState.content ⟨some (lruNgLookup hash lru w.blockNr).2, some w.dir,
              Function.update s.snapblocks w.dir
                (ensureSnapblocksFileOk o (s.snapblocks w.dir)).2⟩ w.dir = s.content w.dir := by
            simp [WorkState.content, hfile]
          have heff := snapshotInto_effect hwf' (by rw [hkeys]; exact hk) rfl rfl
            (by rw [hcont, ← show content = s.content w.dir from hcontent]; exact h)
          rw [hcont, hkeys] at heff
          refine ⟨heff.1, fun d hd => ?_, heff.2.2⟩
          rw [heff.2.1 d hd]
          exact Function.update_of_ne hd _ _

/-- A queued work together with the outcomes that its execution meets. -/
abbrev WorkRun := WorkOutcomes × MakeSnapshotWork

/-- The state of an epoch before its first work: nothing cached, no directory
handle of another epoch, and no snapblocks file in its directory. -/
structure FreshEpoch (hash : UInt64 → ℕ) (dir : CStr) (s : WorkState) : Prop where
  ok : s.Ok hash dir
  cached_nil : s.cached = []
  absent : s.snapblocks dir = none

/-- The works of one epoch, executed one after the other. -/
def epochMachine (hash : UInt64 → ℕ) (maxEntries fuel : ℕ) (dir : CStr) :
    Machine WorkState WorkRun where
  init := FreshEpoch hash dir
  step s x :=
    if x.2.dir = dir then (makeSnapshot hash maxEntries fuel x.1 x.2 s).map Prod.fst else none

end BlkdevSnapshot

import BlkdevSnapshot.LruNg
import BlkdevSnapshot.Machine

/-!
# The block cache over its history

Lookups and adds of one cache, with their results and the nodes that evictions free. A
key is added only when the last operation on it was a lookup that missed. The cache
then holds the most recently used keys, and its cleanup frees every node that an
eviction has not freed.
-/
namespace BlkdevSnapshot
open LruNg RecencyList

namespace LruNg
variable (hash : UInt64 → ℕ)

/-- `list_lru_walk` with `evict_cb` over at most `n` items, and what it frees. -/
def listLruWalk : ℕ → LruNg → List ℕ × LruNg
  | 0, lru => ([], lru)
  | n + 1, lru =>
    match lru.llru with
    | [] => ([], lru)
    | node :: _ =>
      let walked := listLruWalk n (evictCb hash lru node)
      (node.addr :: walked.1, walked.2)

/-- What `lru_ng_add` frees, when its allocation succeeds. -/
def lruNgAddFrees (maxEntries : ℕ) (lru : LruNg) (key : UInt64) : List ℕ :=
  let l := (llruAdd lru.llru ⟨lru.next, key⟩).2
  if l.length ≤ maxEntries then []
  else (listLruWalk hash 1 ⟨l, hashAdd lru.hasht (hash key) ⟨lru.next, key⟩, lru.next + 1⟩).1

/-- `lru_ng_cleanup`: no list has more than `ULONG_MAX` items. -/
def lruNgCleanup (lru : LruNg) : List ℕ × LruNg := listLruWalk hash lru.llru.length lru

end LruNg

/-- An operation on a cache. -/
inductive LruOp where
  | lookup (key : UInt64)
  | add (key : UInt64)
  deriving DecidableEq

def LruOp.key : LruOp → UInt64
  | lookup key | add key => key

/-- A cache, the addresses that its evictions freed, and its operations with their
results, oldest first. -/
structure CacheRun where
  lru : LruNg
  freed : List ℕ
  log : List (LruOp × Bool)

namespace CacheRun

/-- The last operation on a key was a lookup that missed. -/
def lastMissed (s : CacheRun) (key : UInt64) : Bool :=
  s.log.reverse.find? (fun e => e.1.key == key) == some (.lookup key, false)

/-- The keys that were added or looked up with a hit, oldest use first. -/
def uses (s : CacheRun) : List UInt64 := (s.log.filter Prod.snd).map fun e => e.1.key

end CacheRun

/-- Lookups and adds, with succeeding allocations. -/
def lruMachine (hash : UInt64 → ℕ) (maxEntries : ℕ) : Machine CacheRun LruOp where
  init s := s = ⟨LruNg.init, [], []⟩
  step
    | s, .lookup key =>
      let looked := lruNgLookup hash s.lru key
      some { s with lru := looked.2, log := s.log ++ [(.lookup key, looked.1)] }
    | s, .add key =>
      if s.lastMissed key then
        let added := lruNgAdd hash maxEntries true s.lru key
        some ⟨added.2, s.freed ++ lruNgAddFrees hash maxEntries s.lru key,
          s.log ++ [(.add key, added.1)]⟩
      else none

/-- The cache is the set of the `maxEntries` most recently used keys. -/
structure CacheRun.Exact (hash : UInt64 → ℕ) (maxEntries : ℕ) (s : CacheRun) : Prop where
  /-- Table and list hold the same nodes. -/
  mem_hasht : ∀ b node, node ∈ s.lru.hasht b ↔ node ∈ s.lru.llru ∧ hash node.blknr = b
  bucket_nodup : ∀ b, (s.lru.hasht b).Nodup
  keys_nodup : s.lru.keys.Nodup
  bounded : s.lru.llru.length ≤ maxEntries
  /-- The list is in recency order. -/
  keys_eq : s.lru.keys = recent maxEntries s.uses
  lookup_eq : ∀ key,
    (lruNgLookup hash s.lru key).1 = decide (key ∈ recent maxEntries s.uses)
  /-- An add that fits evicts nothing. -/
  add_fits : ∀ key, s.lastMissed key → s.lru.llru.length < maxEntries →
    lruNgAddFrees hash maxEntries s.lru key = [] ∧
    (lruNgAdd hash maxEntries true s.lru key).2.llru = s.lru.llru ++ [⟨s.lru.next, key⟩]
  /-- Any other add evicts and frees exactly the least recently used node. -/
  add_evicts : ∀ key, s.lastMissed key → maxEntries ≤ s.lru.llru.length →
    ∃ oldest, s.lru.llru ++ [⟨s.lru.next, key⟩] =
        oldest :: (lruNgAdd hash maxEntries true s.lru key).2.llru ∧
      lruNgAddFrees hash maxEntries s.lru key = [oldest.addr]
  /-- Cleanup empties both structures. -/
  cleanup_empty : (lruNgCleanup hash s.lru).2.llru = [] ∧
    ∀ b, (lruNgCleanup hash s.lru).2.hasht b = []
  /-- Evictions and cleanup free every allocated node exactly once. -/
  frees_perm : (s.freed ++ (lruNgCleanup hash s.lru).1).Perm (List.range s.lru.next)

namespace LruNg
variable {hash : UInt64 → ℕ}

/-- A walk from the head frees the first nodes in order and keeps the rest. -/
theorem listLruWalk_spec (n : ℕ) {lru : LruNg} (h : Wf hash lru) :
    Wf hash (listLruWalk hash n lru).2 ∧
    (listLruWalk hash n lru).1 = (lru.llru.take n).map LruNode.addr ∧
    (listLruWalk hash n lru).2.llru = lru.llru.drop n := by
  induction n generalizing lru with
  | zero => exact ⟨h, by simp [listLruWalk], by simp [listLruWalk]⟩
  | succ n ih =>
    rw [listLruWalk]
    cases hl : lru.llru with
    | nil => exact ⟨h, by simp, by simpa using hl⟩
    | cons node rest =>
      have hmem : node ∈ lru.llru := by simp [hl]
      obtain ⟨hwf, hfrees, hrest⟩ := ih (evictCb_wf h hmem)
      have hevict : (evictCb hash lru node).llru = rest := by simp [evictCb, hl]
      rw [hevict] at hfrees hrest
      exact ⟨hwf, by simp [hfrees], by simp [hrest]⟩

theorem lruNgCleanup_spec {lru : LruNg} (h : Wf hash lru) :
    (lruNgCleanup hash lru).1 = lru.llru.map LruNode.addr ∧
    (lruNgCleanup hash lru).2.llru = [] ∧
    ∀ b, (lruNgCleanup hash lru).2.hasht b = [] := by
  obtain ⟨hwf, hfrees, hrest⟩ := listLruWalk_spec lru.llru.length h
  rw [List.take_length] at hfrees
  rw [List.drop_length] at hrest
  refine ⟨hfrees, hrest, fun b => List.eq_nil_iff_forall_not_mem.mpr fun node hnode => ?_⟩
  have hmem := ((hwf.mem_hasht b node).mp hnode).1
  rw [hrest] at hmem
  exact List.not_mem_nil hmem

/-- The list after an add is its old content with the new node, less what it frees. -/
theorem lruNgAdd_frees (maxEntries : ℕ) {lru : LruNg} (h : Wf hash lru) {key : UInt64}
    (hk : key ∉ lru.keys) :
    (lruNgAdd hash maxEntries true lru key).2.next = lru.next + 1 ∧
    if lru.llru.length < maxEntries then
      lruNgAddFrees hash maxEntries lru key = [] ∧
        (lruNgAdd hash maxEntries true lru key).2.llru = lru.llru ++ [⟨lru.next, key⟩]
    else ∃ oldest, lru.llru ++ [⟨lru.next, key⟩] =
          oldest :: (lruNgAdd hash maxEntries true lru key).2.llru ∧
        lruNgAddFrees hash maxEntries lru key = [oldest.addr] := by
  have hadd : llruAdd lru.llru ⟨lru.next, key⟩ = (true, lru.llru ++ [⟨lru.next, key⟩]) := by
    rw [llruAdd, if_neg (h.new_not_mem key)]
  have heq : (lruNgAdd hash maxEntries true lru key).2 =
      enforceLruSizeLimit hash maxEntries ⟨lru.llru ++ [⟨lru.next, key⟩],
        hashAdd lru.hasht (hash key) ⟨lru.next, key⟩, lru.next + 1⟩ := by
    simp [lruNgAdd, hadd]
  rw [heq, lruNgAddFrees, hadd, enforceLruSizeLimit]
  by_cases hroom : lru.llru.length < maxEntries
  · have hle : (lru.llru ++ [(⟨lru.next, key⟩ : LruNode)]).length ≤ maxEntries := by
      rw [List.length_append, List.length_singleton]
      exact hroom
    rw [if_pos hroom, if_pos hle, if_pos hle]
    exact ⟨rfl, rfl, rfl⟩
  · have hgt : ¬ (lru.llru ++ [(⟨lru.next, key⟩ : LruNode)]).length ≤ maxEntries := by
      rw [List.length_append, List.length_singleton]
      omega
    obtain ⟨-, hfrees, -⟩ := listLruWalk_spec 1 (h.insert hk)
    rw [if_neg hroom, if_neg hgt, if_neg hgt, hfrees]
    cases hl : lru.llru ++ [(⟨lru.next, key⟩ : LruNode)] with
    | nil => simp at hl
    | cons oldest rest => exact ⟨rfl, oldest, by simp [evictCb], by simp⟩

end LruNg

namespace CacheRun
variable {hash : UInt64 → ℕ} {maxEntries : ℕ} {s : CacheRun}

/-- What holds between any two operations on a cache. -/
structure Inv (hash : UInt64 → ℕ) (maxEntries : ℕ) (s : CacheRun) : Prop where
  wf : Wf hash s.lru
  keys_eq : s.lru.keys = recent maxEntries s.uses
  missed : ∀ key, s.lastMissed key → key ∉ s.lru.keys
  ledger : (s.freed ++ s.lru.llru.map LruNode.addr).Perm (List.range s.lru.next)

theorem uses_concat (lru lru' : LruNg) (freed freed' : List ℕ) (log : List (LruOp × Bool))
    (e : LruOp × Bool) :
    (CacheRun.mk lru' freed' (log ++ [e])).uses =
      (CacheRun.mk lru freed log).uses ++ if e.2 then [e.1.key] else [] := by
  cases he : e.2 <;> simp [uses, List.filter_append, he]

theorem lastMissed_concat {key : UInt64} {lru : LruNg} {freed : List ℕ}
    {log : List (LruOp × Bool)} {e : LruOp × Bool}
    (h : (CacheRun.mk lru freed (log ++ [e])).lastMissed key) :
    e = (.lookup key, false) ∨
      e.1.key ≠ key ∧ ∀ lru freed, (CacheRun.mk lru freed log).lastMissed key := by
  simp only [lastMissed, List.reverse_append, List.reverse_singleton, List.singleton_append,
    List.find?_cons, beq_iff_eq] at h
  by_cases hk : e.1.key = key
  · simp only [hk, beq_self_eq_true] at h
    exact .inl (by simpa using h)
  · have hne : (e.1.key == key) = false := by simpa using hk
    simp only [hne] at h
    exact .inr ⟨hk, fun _ _ => by simpa [lastMissed] using h⟩

theorem init_inv : Inv hash maxEntries ⟨LruNg.init, [], []⟩ where
  wf := init_wf
  keys_eq := by simp [LruNg.init, LruNg.keys, uses, recent, List.rtake]
  missed := by simp [LruNg.init, LruNg.keys]
  ledger := by simp [LruNg.init]

/-- A lookup keeps the nodes and reports their keys. -/
theorem Inv.lookup (h : Inv hash maxEntries s) (key : UInt64) :
    Inv hash maxEntries { s with
      lru := (lruNgLookup hash s.lru key).2
      log := s.log ++ [(.lookup key, (lruNgLookup hash s.lru key).1)] } := by
  have hcase (key' : UInt64)
      (hm : (CacheRun.mk (lruNgLookup hash s.lru key).2 s.freed
        (s.log ++ [(.lookup key, (lruNgLookup hash s.lru key).1)])).lastMissed key') :
      key' = key ∧ (lruNgLookup hash s.lru key).1 = false ∨ key' ∉ s.lru.keys := by
    rcases lastMissed_concat hm with he | ⟨-, hold⟩
    · simp only [Prod.mk.injEq, LruOp.lookup.injEq] at he
      exact .inl ⟨he.1.symm, he.2⟩
    · exact .inr (h.missed key' (hold s.lru s.freed))
  by_cases hk : key ∈ s.lru.keys
  · obtain ⟨node, hn, rfl, heq⟩ := lruNgLookup_hit h.wf hk
    obtain ⟨hwf, -, hkeys⟩ := lruNgLookup_spec h.wf node.blknr
    rw [if_pos hk] at hkeys
    refine ⟨hwf, ?_, ?_, ?_⟩
    · rw [hkeys, uses_concat s.lru _ s.freed, heq, h.keys_eq]
      exact touch_recent (h.keys_eq ▸ hk)
    · intro key' hm
      rw [hkeys, mem_touch hk]
      rcases hcase key' hm with hit | hout
      · rw [heq] at hit
        exact absurd hit.2 (by simp)
      · exact hout
    · have hperm : (s.lru.llru.erase node ++ [node]).Perm s.lru.llru :=
        (List.perm_append_singleton _ _).trans (List.perm_cons_erase hn).symm
      simp only [heq]
      exact ((hperm.map LruNode.addr).append_left s.freed).trans h.ledger
  · have heq := lruNgLookup_miss h.wf hk
    refine ⟨heq ▸ h.wf, ?_, ?_, heq ▸ h.ledger⟩
    · rw [uses_concat s.lru _ s.freed, heq]
      simpa using h.keys_eq
    · intro key' hm
      rcases hcase key' hm with hmiss | hout
      · rw [heq, hmiss.1]
        exact hk
      · rwa [heq]

/-- An add after a miss pushes its key and moves at most one node to the freed ones. -/
theorem Inv.add (h : Inv hash maxEntries s) {key : UInt64} (hm : s.lastMissed key) :
    Inv hash maxEntries ⟨(lruNgAdd hash maxEntries true s.lru key).2,
      s.freed ++ lruNgAddFrees hash maxEntries s.lru key,
      s.log ++ [(.add key, (lruNgAdd hash maxEntries true s.lru key).1)]⟩ := by
  have hk := h.missed key hm
  obtain ⟨hwf, hok, hkeys⟩ := lruNgAdd_spec maxEntries h.wf hk true
  obtain ⟨hnext, hnodes⟩ := lruNgAdd_frees maxEntries h.wf hk
  rw [if_pos rfl] at hkeys
  refine ⟨hwf, ?_, ?_, ?_⟩
  · rw [hkeys, uses_concat s.lru _ s.freed, hok, h.keys_eq]
    exact push_recent (h.keys_eq ▸ hk)
  · intro key' hm' hmem
    rcases lastMissed_concat hm' with he | ⟨hne, hold⟩
    · simp at he
    · rw [hkeys] at hmem
      rcases mem_of_mem_push hmem with hin | rfl
      · exact h.missed key' (hold s.lru s.freed) hin
      · exact hne rfl
  · have hnew : (s.freed ++ (s.lru.llru ++ [(⟨s.lru.next, key⟩ : LruNode)]).map LruNode.addr).Perm
        (List.range (s.lru.next + 1)) := by
      rw [List.map_append, ← List.append_assoc, List.range_succ]
      exact h.ledger.append_right _
    rw [hnext]
    refine List.Perm.trans ?_ hnew
    by_cases hroom : s.lru.llru.length < maxEntries
    · rw [if_pos hroom] at hnodes
      rw [hnodes.1, hnodes.2, List.append_nil]
    · rw [if_neg hroom] at hnodes
      obtain ⟨oldest, hlist, hfrees⟩ := hnodes
      rw [hfrees, hlist, List.map_cons, List.append_assoc, List.singleton_append]

theorem Inv.step {s' : CacheRun} {op : LruOp} (h : Inv hash maxEntries s)
    (hs : (lruMachine hash maxEntries).step s op = some s') : Inv hash maxEntries s' := by
  cases op with
  | lookup key =>
    cases hs
    exact h.lookup key
  | add key =>
    simp only [lruMachine] at hs
    split at hs
    · rename_i hm
      cases hs
      exact h.add hm
    · cases hs

theorem Inv.exact (h : Inv hash maxEntries s) : s.Exact hash maxEntries := by
  obtain ⟨hfrees, hempty, hbuckets⟩ := lruNgCleanup_spec h.wf
  refine ⟨h.wf.mem_hasht, h.wf.bucket_nodup, h.wf.keys_nodup, ?_, h.keys_eq, ?_, ?_, ?_,
    ⟨hempty, hbuckets⟩, ?_⟩
  · have hlen := length_recent_le maxEntries s.uses
    rw [← h.keys_eq, LruNg.keys, List.length_map] at hlen
    exact hlen
  · intro key
    rw [(lruNgLookup_spec h.wf key).2.1, h.keys_eq]
  · intro key hm hroom
    have hnodes := (lruNgAdd_frees maxEntries h.wf (h.missed key hm)).2
    rwa [if_pos hroom] at hnodes
  · intro key hm hfull
    have hnodes := (lruNgAdd_frees maxEntries h.wf (h.missed key hm)).2
    rwa [if_neg (Nat.not_lt.mpr hfull)] at hnodes
  · rw [hfrees]
    exact h.ledger

end CacheRun

/-- After every sequence of lookups and adds the cache is an exact bounded LRU set. -/
theorem lruMachine_exact {hash : UInt64 → ℕ} {maxEntries : ℕ} {ops : List LruOp} {s : CacheRun}
    (h : (lruMachine hash maxEntries).run ⟨LruNg.init, [], []⟩ ops = some s) :
    s.Exact hash maxEntries := by
  have hreach := Machine.reachable_of_run (M := lruMachine hash maxEntries) rfl ops h
  have hinv : CacheRun.Inv hash maxEntries s :=
    hreach.invariant (fun s hs => by cases hs; exact CacheRun.init_inv)
      fun _ _ _ hs _ hstep => hs.step hstep
  exact hinv.exact

/-- Two colliding blocks in a cache for one: the second evicts the first. -/
def collidingUses : List LruOp := [.lookup 7, .add 7, .lookup 8, .add 8, .lookup 7]

theorem lruMachine_exact_collidingUses :
    (((lruMachine (fun _ => 0) 1).run ⟨LruNg.init, [], []⟩ collidingUses).getD
      ⟨LruNg.init, [], []⟩).Exact (fun _ => 0) 1 :=
  lruMachine_exact (Machine.run_eq_getD _ _ collidingUses (by decide))

end BlkdevSnapshot

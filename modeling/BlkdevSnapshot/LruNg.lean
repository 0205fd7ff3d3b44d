import BlkdevSnapshot.RecencyList

/-!
# The block cache of an epoch

A cache is a `list_lru` of nodes, least recently used first, and a hash table of
the same nodes. A node's address is the identity of its allocation. The hash of
a block number and the capacity are parameters, so collisions are arbitrary.
-/
namespace BlkdevSnapshot
open RecencyList

/-- `struct lru_node` -/
structure LruNode where
  addr : ℕ
  blknr : UInt64
  deriving DecidableEq, Repr

/-- `struct lru_ng`; `next` is the address that the next node allocation gets. -/
structure LruNg where
  llru : List LruNode
  hasht : ℕ → List LruNode
  next : ℕ

namespace LruNg

/-- `lru_ng_init` -/
def init : LruNg := ⟨[], fun _ => [], 0⟩

/-- `hash_add` -/
def hashAdd (t : ℕ → List LruNode) (b : ℕ) (n : LruNode) : ℕ → List LruNode :=
  Function.update t b (n :: t b)

/-- `hash_del` -/
def hashDel (t : ℕ → List LruNode) (b : ℕ) (n : LruNode) : ℕ → List LruNode :=
  Function.update t b ((t b).erase n)

/-- `list_lru_add_obj`: refuses an item that is on the list already. -/
def llruAdd (l : List LruNode) (n : LruNode) : Bool × List LruNode :=
  if n ∈ l then (false, l) else (true, l ++ [n])

/-- `list_lru_del_obj` -/
def llruDel (l : List LruNode) (n : LruNode) : Bool × List LruNode :=
  if n ∈ l then (true, l.erase n) else (false, l)

variable (hash : UInt64 → ℕ)

/-- `evict_cb` -/
def evictCb (lru : LruNg) (node : LruNode) : LruNg :=
  { lru with
    llru := lru.llru.erase node
    hasht := hashDel lru.hasht (hash node.blknr) node }

/-- `enforce_lru_size_limit`: walk one item from the head when the list is too long. -/
def enforceLruSizeLimit (maxEntries : ℕ) (lru : LruNg) : LruNg :=
  if lru.llru.length ≤ maxEntries then lru
  else match lru.llru with
    | [] => lru
    | node :: _ => evictCb hash lru node

/-- `lru_ng_add`; `alloc` tells whether `kzalloc` succeeds. -/
def lruNgAdd (maxEntries : ℕ) (alloc : Bool) (lru : LruNg) (key : UInt64) : Bool × LruNg :=
  if !alloc then (false, lru)
  else
    let node : LruNode := ⟨lru.next, key⟩
    let hasht := hashAdd lru.hasht (hash key) node
    match llruAdd lru.llru node with
    | (false, l) => (false, ⟨l, hashDel hasht (hash key) node, lru.next + 1⟩)
    | (true, l) => (true, enforceLruSizeLimit hash maxEntries ⟨l, hasht, lru.next + 1⟩)

/-- `lru_ng_lookup` -/
def lruNgLookup (lru : LruNg) (key : UInt64) : Bool × LruNg :=
  match (lru.hasht (hash key)).find? (fun node => node.blknr == key) with
  | none => (false, lru)
  | some node =>
    match llruDel lru.llru node with
    | (false, l) => (false, { lru with llru := l })
    | (true, l) =>
      let added := llruAdd l node
      (added.1, { lru with llru := added.2 })

/-- The cached block numbers, least recently used first. -/
def keys (lru : LruNg) : List UInt64 := lru.llru.map LruNode.blknr

/-- List and table hold the same nodes, no key twice, and addresses are not reused. -/
structure Wf (lru : LruNg) : Prop where
  keys_nodup : lru.keys.Nodup
  mem_hasht : ∀ b n, n ∈ lru.hasht b ↔ n ∈ lru.llru ∧ hash n.blknr = b
  bucket_nodup : ∀ b, (lru.hasht b).Nodup
  fresh : ∀ n ∈ lru.llru, n.addr < lru.next

variable {hash}

theorem init_wf : Wf hash init where
  keys_nodup := by simp [init, keys]
  mem_hasht := by simp [init]
  bucket_nodup := by simp [init]
  fresh := by simp [init]

theorem Wf.llru_nodup {lru : LruNg} (h : Wf hash lru) : lru.llru.Nodup :=
  List.Nodup.of_map _ h.keys_nodup

theorem Wf.blknr_inj {lru : LruNg} (h : Wf hash lru) {a b : LruNode} (ha : a ∈ lru.llru)
    (hb : b ∈ lru.llru) (he : a.blknr = b.blknr) : a = b :=
  List.inj_on_of_nodup_map h.keys_nodup ha hb he

/-- Erasing a node of a list with distinct keys erases its key. -/
theorem map_blknr_erase {l : List LruNode} (hl : (l.map LruNode.blknr).Nodup) {n : LruNode}
    (hn : n ∈ l) : (l.erase n).map LruNode.blknr = (l.map LruNode.blknr).erase n.blknr := by
  induction l with
  | nil => simp at hn
  | cons a l ih =>
    simp only [List.map_cons, List.nodup_cons] at hl
    by_cases ha : a = n
    · simp [ha]
    · have hnl : n ∈ l := by simpa [Ne.symm ha] using hn
      have hb : a.blknr ≠ n.blknr := fun he => hl.1 (he ▸ List.mem_map_of_mem hnl)
      rw [List.erase_cons_tail (by simpa using ha), List.map_cons, List.map_cons,
        List.erase_cons_tail (by simpa using hb), ih hl.2 hnl]

theorem Wf.find?_eq {lru : LruNg} (h : Wf hash lru) (key : UInt64) :
    (lru.hasht (hash key)).find? (fun node => node.blknr == key) =
      lru.llru.find? (fun node => node.blknr == key) := by
  cases hl : lru.llru.find? (fun node => node.blknr == key) with
  | none =>
    rw [List.find?_eq_none] at hl ⊢
    exact fun n hn => hl n ((h.mem_hasht _ n).mp hn).1
  | some node =>
    have hmem := List.mem_of_find?_eq_some hl
    have hkey : node.blknr = key := by simpa using List.find?_some hl
    cases ht : (lru.hasht (hash key)).find? (fun node => node.blknr == key) with
    | none =>
      have := List.find?_eq_none.mp ht node ((h.mem_hasht _ node).mpr ⟨hmem, by rw [hkey]⟩)
      simp [hkey] at this
    | some other =>
      have hother := ((h.mem_hasht _ other).mp (List.mem_of_find?_eq_some ht)).1
      have hkey' : other.blknr = key := by simpa using List.find?_some ht
      rw [h.blknr_inj hother hmem (hkey'.trans hkey.symm)]

/-- Moving a node of the list to its tail keeps the cache well formed. -/
theorem Wf.move_tail {lru : LruNg} (h : Wf hash lru) {node : LruNode} (hn : node ∈ lru.llru) :
    Wf hash { lru with llru := lru.llru.erase node ++ [node] } := by
  have hmem (x : LruNode) : x ∈ lru.llru.erase node ++ [node] ↔ x ∈ lru.llru :=
    mem_touch hn x
  have hkeys : (lru.llru.erase node ++ [node]).map LruNode.blknr = touch lru.keys node.blknr := by
    simp [touch, keys, map_blknr_erase h.keys_nodup hn]
  refine ⟨?_, ?_, h.bucket_nodup, ?_⟩
  · simpa only [keys, hkeys] using nodup_touch h.keys_nodup node.blknr
  · intro b n
    rw [hmem]
    exact h.mem_hasht b n
  · exact fun n hn' => h.fresh n ((hmem n).mp hn')

/-- A lookup that hits moves the node of its key to the tail. -/
theorem lruNgLookup_hit {lru : LruNg} (h : Wf hash lru) {key : UInt64} (hk : key ∈ lru.keys) :
    ∃ node ∈ lru.llru, node.blknr = key ∧
      lruNgLookup hash lru key = (true, { lru with llru := lru.llru.erase node ++ [node] }) := by
  obtain ⟨n, hn, hnk⟩ := List.mem_map.mp hk
  cases hf : lru.llru.find? (fun node => node.blknr == key) with
  | none =>
    have := List.find?_eq_none.mp hf n hn
    simp [hnk] at this
  | some node =>
    have hmem := List.mem_of_find?_eq_some hf
    have hout : node ∉ lru.llru.erase node := h.llru_nodup.not_mem_erase
    refine ⟨node, hmem, by simpa using List.find?_some hf, ?_⟩
    simp [lruNgLookup, h.find?_eq, hf, llruDel, hmem, llruAdd, hout]

theorem lruNgLookup_miss {lru : LruNg} (h : Wf hash lru) {key : UInt64} (hk : key ∉ lru.keys) :
    lruNgLookup hash lru key = (false, lru) := by
  have hf : lru.llru.find? (fun node => node.blknr == key) = none := by
    rw [List.find?_eq_none]
    intro n hn he
    exact hk (List.mem_map.mpr ⟨n, hn, by simpa using he⟩)
  simp [lruNgLookup, h.find?_eq, hf]

/-- Lookup answers membership, and a hit makes its key the most recently used. -/
theorem lruNgLookup_spec {lru : LruNg} (h : Wf hash lru) (key : UInt64) :
    Wf hash (lruNgLookup hash lru key).2 ∧
    (lruNgLookup hash lru key).1 = decide (key ∈ lru.keys) ∧
    (lruNgLookup hash lru key).2.keys =
      if key ∈ lru.keys then touch lru.keys key else lru.keys := by
  by_cases hk : key ∈ lru.keys
  · obtain ⟨node, hn, rfl, heq⟩ := lruNgLookup_hit h hk
    rw [heq]
    refine ⟨h.move_tail hn, by simp [hk], ?_⟩
    rw [if_pos hk]
    simp [keys, touch, map_blknr_erase h.keys_nodup hn]
  · rw [lruNgLookup_miss h hk]
    exact ⟨h, by simp [hk], by simp [hk]⟩

theorem Wf.new_not_mem {lru : LruNg} (h : Wf hash lru) (key : UInt64) :
    (⟨lru.next, key⟩ : LruNode) ∉ lru.llru :=
  fun hm => Nat.lt_irrefl _ (h.fresh _ hm)

/-- The cache after a new node was put in both structures, before the size limit. -/
theorem Wf.insert {lru : LruNg} (h : Wf hash lru) {key : UInt64} (hk : key ∉ lru.keys) :
    Wf hash ⟨lru.llru ++ [⟨lru.next, key⟩],
      hashAdd lru.hasht (hash key) ⟨lru.next, key⟩, lru.next + 1⟩ := by
  refine ⟨?_, ?_, ?_, ?_⟩
  · simpa [keys] using nodup_concat h.keys_nodup hk
  · intro b n
    by_cases hb : b = hash key
    · subst hb
      simp only [hashAdd, Function.update_self, List.mem_cons, h.mem_hasht, List.mem_append,
        List.not_mem_nil, or_false]
      constructor
      · rintro (rfl | ⟨hn, hh⟩)
        · exact ⟨.inr rfl, rfl⟩
        · exact ⟨.inl hn, hh⟩
      · rintro ⟨hn | rfl, hh⟩
        · exact .inr ⟨hn, hh⟩
        · exact .inl rfl
    · simp only [hashAdd, Function.update_of_ne hb, h.mem_hasht, List.mem_append,
        List.mem_singleton]
      constructor
      · exact fun hn => ⟨.inl hn.1, hn.2⟩
      · rintro ⟨hn | rfl, hh⟩
        · exact ⟨hn, hh⟩
        · exact absurd hh.symm hb
  · intro b
    by_cases hb : b = hash key
    · subst hb
      simp only [hashAdd, Function.update_self, List.nodup_cons]
      exact ⟨fun hm => h.new_not_mem key ((h.mem_hasht _ _).mp hm).1, h.bucket_nodup _⟩
    · simpa only [hashAdd, Function.update_of_ne hb] using h.bucket_nodup b
  · intro n hn
    rcases List.mem_append.mp hn with hn | hn
    · exact (h.fresh n hn).trans (Nat.lt_succ_self _)
    · simp only [List.mem_singleton] at hn
      subst hn
      exact Nat.lt_succ_self _

/-- Evicting a node of the list removes it from the list and from its bucket. -/
theorem evictCb_wf {lru : LruNg} (h : Wf hash lru) {node : LruNode} (hn : node ∈ lru.llru) :
    Wf hash (evictCb hash lru node) := by
  refine ⟨?_, ?_, ?_, ?_⟩
  · simpa only [keys, evictCb, map_blknr_erase h.keys_nodup hn] using h.keys_nodup.erase _
  · intro b n
    by_cases hb : b = hash node.blknr
    · subst hb
      simp only [evictCb, hashDel, Function.update_self, (h.bucket_nodup _).mem_erase_iff,
        h.llru_nodup.mem_erase_iff, h.mem_hasht, and_assoc]
    · simp only [evictCb, hashDel, Function.update_of_ne hb, h.llru_nodup.mem_erase_iff,
        h.mem_hasht]
      constructor
      · rintro ⟨hm, rfl⟩
        exact ⟨⟨fun he => hb (by rw [he]), hm⟩, rfl⟩
      · exact fun hm => ⟨hm.1.2, hm.2⟩
  · intro b
    by_cases hb : b = hash node.blknr
    · subst hb
      simpa only [evictCb, hashDel, Function.update_self] using (h.bucket_nodup _).erase node
    · simpa only [evictCb, hashDel, Function.update_of_ne hb] using h.bucket_nodup b
  · exact fun n hm => h.fresh n (List.mem_of_mem_erase hm)

theorem enforceLruSizeLimit_spec (maxEntries : ℕ) {lru : LruNg} (h : Wf hash lru) :
    Wf hash (enforceLruSizeLimit hash maxEntries lru) ∧
    (enforceLruSizeLimit hash maxEntries lru).keys =
      if lru.keys.length ≤ maxEntries then lru.keys else lru.keys.tail := by
  unfold enforceLruSizeLimit
  have hlen : lru.keys.length = lru.llru.length := by simp [keys]
  by_cases hle : lru.llru.length ≤ maxEntries
  · rw [if_pos hle, if_pos (hlen ▸ hle)]
    exact ⟨h, rfl⟩
  · rw [if_neg hle, if_neg (hlen ▸ hle)]
    cases hl : lru.llru with
    | nil => simp [hl] at hle
    | cons node rest =>
      refine ⟨evictCb_wf h (by simp [hl]), ?_⟩
      simp [keys, evictCb, hl]

/-- Adding a key that is not cached pushes it on the recency list; a failed
allocation leaves the cache alone. -/
theorem lruNgAdd_spec (maxEntries : ℕ) {lru : LruNg} (h : Wf hash lru) {key : UInt64}
    (hk : key ∉ lru.keys) (alloc : Bool) :
    Wf hash (lruNgAdd hash maxEntries alloc lru key).2 ∧
    (lruNgAdd hash maxEntries alloc lru key).1 = alloc ∧
    (lruNgAdd hash maxEntries alloc lru key).2.keys =
      if alloc then push maxEntries lru.keys key else lru.keys := by
  cases alloc with
  | false => exact ⟨h, rfl, rfl⟩
  | true =>
    have heq : lruNgAdd hash maxEntries true lru key =
        (true, enforceLruSizeLimit hash maxEntries ⟨lru.llru ++ [⟨lru.next, key⟩],
          hashAdd lru.hasht (hash key) ⟨lru.next, key⟩, lru.next + 1⟩) := by
      simp [lruNgAdd, llruAdd, h.new_not_mem key]
    obtain ⟨hwf, hkeys⟩ := enforceLruSizeLimit_spec maxEntries (h.insert hk)
    rw [heq]
    refine ⟨hwf, rfl, ?_⟩
    rw [hkeys]
    simp [push, keys]

end LruNg
end BlkdevSnapshot

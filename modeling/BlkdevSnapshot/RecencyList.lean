import Mathlib.Data.List.Dedup
import Mathlib.Data.List.DropRight
import Mathlib.Data.List.Nodup
import Mathlib.Data.List.Perm.Basic
import Mathlib.Tactic

/-!
# Bounded recency lists

The abstract view of a least-recently-used set: distinct keys, least recently
used first. A use moves its key to the end; an insertion into a full list drops
the head.
-/
namespace BlkdevSnapshot.RecencyList

/-- Make a key the most recently used one. -/
def touch {κ : Type*} [DecidableEq κ] (l : List κ) (k : κ) : List κ := l.erase k ++ [k]

/-- Insert at the most recently used end, then drop at most one key from the other. -/
def push {κ : Type*} (cap : ℕ) (l : List κ) (k : κ) : List κ :=
  if (l ++ [k]).length ≤ cap then l ++ [k] else (l ++ [k]).tail

theorem mem_touch {κ : Type*} [DecidableEq κ] {l : List κ} {k : κ} (hk : k ∈ l) (x : κ) :
    x ∈ touch l k ↔ x ∈ l := by
  simp only [touch, List.mem_append, List.mem_singleton]
  by_cases hx : x = k
  · simp [hx, hk]
  · simp [hx, List.mem_erase_of_ne hx]

theorem nodup_concat {κ : Type*} {l : List κ} (h : l.Nodup) {k : κ} (hk : k ∉ l) :
    (l ++ [k]).Nodup := by
  simpa using h.concat hk

theorem nodup_touch {κ : Type*} [DecidableEq κ] {l : List κ} (h : l.Nodup) (k : κ) :
    (touch l k).Nodup :=
  nodup_concat (h.erase k) h.not_mem_erase

theorem mem_of_mem_push {κ : Type*} {cap : ℕ} {l : List κ} {k x : κ}
    (h : x ∈ push cap l k) : x ∈ l ∨ x = k := by
  unfold push at h
  split at h
  · simpa using h
  · simpa using List.mem_of_mem_tail h

/-! ## The most recently used keys of a history -/

/-- The `cap` most recently used distinct keys, where `uses` lists every use, oldest first. -/
def recent {κ : Type*} [DecidableEq κ] (cap : ℕ) (uses : List κ) : List κ :=
  uses.dedup.rtake cap

/-- `q` is the end of `l`, and it has `cap` elements unless it is all of `l`. -/
def IsTop {κ : Type*} (cap : ℕ) (q l : List κ) : Prop :=
  ∃ p, l = p ++ q ∧ q.length ≤ cap ∧ (p ≠ [] → q.length = cap)

section Recent
variable {κ : Type*} {cap : ℕ} {q l : List κ}

theorem IsTop.eq_rtake (h : IsTop cap q l) : q = l.rtake cap := by
  obtain ⟨p, rfl, hle, hfull⟩ := h
  rw [List.rtake, List.length_append]
  by_cases hp : p = []
  · subst hp
    have hzero : ([] : List κ).length + q.length - cap = 0 := by
      rw [List.length_nil, Nat.zero_add, Nat.sub_eq_zero_of_le hle]
    rw [hzero, List.nil_append, List.drop_zero]
  · have hlen : p.length + q.length - cap = p.length := by rw [hfull hp]; omega
    rw [hlen, List.drop_left]

variable [DecidableEq κ] {k : κ}

theorem dedup_concat (uses : List κ) (k : κ) : (uses ++ [k]).dedup = touch uses.dedup k := by
  induction uses with
  | nil => simp [touch]
  | cons a uses ih =>
    rw [List.cons_append, List.dedup_cons, List.dedup_cons, ih]
    by_cases ha : a ∈ uses
    · rw [if_pos (List.mem_append_left _ ha), if_pos ha]
    · rw [if_neg ha]
      by_cases hk : a = k
      · subst hk
        have hout : a ∉ uses.dedup := by rwa [List.mem_dedup]
        rw [if_pos (by simp), touch, touch, List.erase_cons_head, List.erase_of_not_mem hout]
      · rw [if_neg (by simp [ha, hk]), touch, touch, List.erase_cons_tail (by simpa using hk),
          List.cons_append]

theorem isTop_touch (h : IsTop cap q l) (hl : l.Nodup) (hk : k ∈ q) :
    IsTop cap (touch q k) (touch l k) := by
  obtain ⟨p, rfl, hle, hfull⟩ := h
  have hp : k ∉ p := fun hp => (List.disjoint_of_nodup_append hl) hp hk
  have hlen : (touch q k).length = q.length := by
    have hpos := List.length_pos_of_mem hk
    rw [touch, List.length_append, List.length_erase_of_mem hk, List.length_singleton]
    omega
  refine ⟨p, ?_, hlen.trans_le hle, fun hne => hlen.trans (hfull hne)⟩
  rw [touch, touch, List.erase_append_right _ hp, List.append_assoc]

theorem isTop_push (h : IsTop cap q l) (hk : k ∉ q) : IsTop cap (push cap q k) (touch l k) := by
  obtain ⟨p, rfl, hle, hfull⟩ := h
  have herase : (p ++ q).erase k = p.erase k ++ q := by
    by_cases hp : k ∈ p
    · exact List.erase_append_left _ hp
    · rw [List.erase_append_right _ hp, List.erase_of_not_mem hk, List.erase_of_not_mem hp]
  rw [touch, herase, List.append_assoc, push]
  by_cases hroom : (q ++ [k]).length ≤ cap
  · rw [if_pos hroom]
    refine ⟨p.erase k, rfl, hroom, fun hne => ?_⟩
    have hp : p ≠ [] := by
      rintro rfl
      exact hne rfl
    have hq := hfull hp
    simp only [List.length_append, List.length_singleton] at hroom
    omega
  · rw [if_neg hroom]
    simp only [List.length_append, List.length_singleton] at hroom
    have htail : (q ++ [k]).tail.length = cap := by
      rw [List.length_tail, List.length_append, List.length_singleton]
      omega
    refine ⟨p.erase k ++ (q ++ [k]).take 1, ?_, htail.le, fun _ => htail⟩
    rw [List.append_assoc, ← List.drop_one, List.take_append_drop]

theorem isTop_recent (cap : ℕ) (uses : List κ) : IsTop cap (recent cap uses) uses.dedup := by
  refine ⟨uses.dedup.take (uses.dedup.length - cap), (List.take_append_drop _ _).symm, ?_, ?_⟩
  · rw [recent, List.rtake, List.length_drop]
    omega
  · intro hne
    have hpos := List.length_pos_iff.mpr hne
    rw [List.length_take] at hpos
    rw [recent, List.rtake, List.length_drop]
    omega

/-- A use of one of the most recently used keys reorders them. -/
theorem touch_recent {uses : List κ} (hk : k ∈ recent cap uses) :
    touch (recent cap uses) k = recent cap (uses ++ [k]) := by
  rw [recent, recent, dedup_concat]
  exact (isTop_touch (isTop_recent cap uses) uses.nodup_dedup hk).eq_rtake

/-- A use of another key drops the least recently used one when there are `cap` already. -/
theorem push_recent {uses : List κ} (hk : k ∉ recent cap uses) :
    push cap (recent cap uses) k = recent cap (uses ++ [k]) := by
  rw [recent, recent, dedup_concat]
  exact (isTop_push (isTop_recent cap uses) hk).eq_rtake

theorem length_recent_le (cap : ℕ) (uses : List κ) : (recent cap uses).length ≤ cap := by
  obtain ⟨-, -, hle, -⟩ := isTop_recent cap uses
  exact hle

theorem mem_of_mem_recent {cap : ℕ} {uses : List κ} {x : κ} (h : x ∈ recent cap uses) :
    x ∈ uses :=
  List.mem_dedup.mp (List.mem_of_mem_drop h)

/-- The last use is the most recent one. -/
theorem getLast?_recent_concat {cap : ℕ} (hcap : 0 < cap) (uses : List κ) (k : κ) :
    (recent cap (uses ++ [k])).getLast? = some k := by
  rw [recent, List.rtake, List.getLast?_drop, dedup_concat, touch, List.getLast?_concat, if_neg]
  rw [List.length_append, List.length_singleton]
  omega

end Recent

end BlkdevSnapshot.RecencyList

import Mathlib.Logic.Function.Basic
import Mathlib.Data.List.Nodup
import Mathlib.Tactic.Common

/-!
# A hash table with chains

Entries live at addresses and are linked into the chain that their key hashes to, the
newest first. Unlinking works on an address, like on the node of an intrusive list, and
hands the entry over to be freed. A well-formed table has one entry for a key at most
and has freed no address twice.
-/
namespace BlkdevSnapshot

/-- An entry of a table: where it lives, and its key. -/
@[ext] structure Entry (κ : Type*) where
  addr : ℕ
  key : κ
  deriving DecidableEq

/-- The chains, the next address to be handed out, and the addresses that were freed. -/
structure ChainedTable (κ : Type*) where
  chains : ℕ → List (Entry κ)
  nextAddr : ℕ
  freed : List ℕ

namespace ChainedTable

variable {κ : Type*}

instance : Membership (Entry κ) (ChainedTable κ) := ⟨fun T e => ∃ b, e ∈ T.chains b⟩

/-- A table without entries. -/
def empty : ChainedTable κ := ⟨fun _ => [], 0, []⟩

section Operations

variable (hash : κ → ℕ) (T : ChainedTable κ)

/-- The first entry for a key in its chain. -/
def find [DecidableEq κ] (key : κ) : Option (Entry κ) :=
  (T.chains (hash key)).find? fun e => decide (e.key = key)

/-- A new entry at the head of its chain. -/
def insert (key : κ) : ChainedTable κ where
  chains := Function.update T.chains (hash key) (⟨T.nextAddr, key⟩ :: T.chains (hash key))
  nextAddr := T.nextAddr + 1
  freed := T.freed

/-- The entry at an address is taken out of its chain and freed. -/
def unlink (addr : ℕ) : ChainedTable κ where
  chains b := (T.chains b).filter fun e => decide (e.addr ≠ addr)
  nextAddr := T.nextAddr
  freed := T.freed ++ [addr]

end Operations

/-- Entries are in the chains of their keys; keys and addresses tell them apart; freed
addresses are old, are not in the table, and were freed once. -/
structure Wf (hash : κ → ℕ) (T : ChainedTable κ) : Prop where
  hashed : ∀ b, ∀ e ∈ T.chains b, hash e.key = b
  nodup : ∀ b, (T.chains b).Nodup
  keys : ∀ e ∈ T, ∀ e' ∈ T, e.key = e'.key → e = e'
  addrs : ∀ e ∈ T, ∀ e' ∈ T, e.addr = e'.addr → e = e'
  fresh : ∀ e ∈ T, e.addr < T.nextAddr
  freedOld : ∀ addr ∈ T.freed, addr < T.nextAddr
  freedOut : ∀ e ∈ T, e.addr ∉ T.freed
  freedOnce : T.freed.Nodup

theorem wf_empty (hash : κ → ℕ) : (empty : ChainedTable κ).Wf hash := by
  have hnone (e : Entry κ) : e ∉ (empty : ChainedTable κ) := by
    rintro ⟨b, hb⟩
    cases hb
  exact ⟨nofun, fun _ => List.nodup_nil, fun e he => absurd he (hnone e),
    fun e he => absurd he (hnone e), fun e he => absurd he (hnone e), nofun,
    fun e he => absurd he (hnone e), List.nodup_nil⟩

variable {hash : κ → ℕ} {T : ChainedTable κ} {key : κ} {addr : ℕ} {e : Entry κ}

theorem mem_insert : e ∈ T.insert hash key ↔ e = ⟨T.nextAddr, key⟩ ∨ e ∈ T := by
  constructor
  · rintro ⟨b, hb⟩
    by_cases hk : b = hash key
    · subst hk
      simp only [insert, Function.update_self, List.mem_cons] at hb
      exact hb.imp_right fun h => ⟨_, h⟩
    · simp only [insert, Function.update_of_ne hk] at hb
      exact .inr ⟨b, hb⟩
  · rintro (rfl | ⟨b, hb⟩)
    · exact ⟨hash key, by simp [insert]⟩
    · refine ⟨b, ?_⟩
      by_cases hk : b = hash key
      · subst hk
        simp [insert, hb]
      · simpa [insert, Function.update_of_ne hk] using hb

theorem mem_unlink : e ∈ T.unlink addr ↔ e ∈ T ∧ e.addr ≠ addr := by
  constructor
  · rintro ⟨b, hb⟩
    obtain ⟨hb, hne⟩ := List.mem_filter.mp hb
    exact ⟨⟨b, hb⟩, of_decide_eq_true hne⟩
  · rintro ⟨⟨b, hb⟩, hne⟩
    exact ⟨b, List.mem_filter.mpr ⟨hb, decide_eq_true hne⟩⟩

theorem Wf.mem_chain (h : T.Wf hash) (he : e ∈ T) : e ∈ T.chains (hash e.key) := by
  obtain ⟨b, hb⟩ := he
  exact (h.hashed b e hb).symm ▸ hb

section Find

variable [DecidableEq κ]

theorem find_some (h : T.find hash key = some e) : e ∈ T ∧ e.key = key := by
  unfold find at h
  exact ⟨⟨_, List.mem_of_find?_eq_some h⟩, by simpa using List.find?_some h⟩

/-- A lookup that finds nothing has looked in the right chain. -/
theorem Wf.find_none (h : T.Wf hash) (hnone : T.find hash key = none) (he : e ∈ T) :
    e.key ≠ key := by
  rintro rfl
  simpa using List.find?_eq_none.mp hnone e (h.mem_chain he)

end Find

theorem Wf.insert (h : T.Wf hash) (hkey : ∀ e ∈ T, e.key ≠ key) : (T.insert hash key).Wf hash where
  hashed b e hb := by
    by_cases hk : b = hash key
    · subst hk
      simp only [ChainedTable.insert, Function.update_self, List.mem_cons] at hb
      rcases hb with rfl | hb
      · rfl
      · exact h.hashed _ e hb
    · simp only [ChainedTable.insert, Function.update_of_ne hk] at hb
      exact h.hashed b e hb
  nodup b := by
    by_cases hk : b = hash key
    · subst hk
      simp only [ChainedTable.insert, Function.update_self]
      exact List.nodup_cons.mpr ⟨fun hmem => hkey _ ⟨_, hmem⟩ rfl, h.nodup _⟩
    · simpa only [ChainedTable.insert, Function.update_of_ne hk] using h.nodup b
  keys e he e' he' hkeys := by
    rcases mem_insert.mp he with rfl | he
    · rcases mem_insert.mp he' with rfl | he'
      · rfl
      · exact absurd hkeys.symm (hkey e' he')
    · rcases mem_insert.mp he' with rfl | he'
      · exact absurd hkeys (hkey e he)
      · exact h.keys e he e' he' hkeys
  addrs e he e' he' haddrs := by
    rcases mem_insert.mp he with rfl | he
    · rcases mem_insert.mp he' with rfl | he'
      · rfl
      · exact absurd haddrs.symm (Nat.ne_of_lt (h.fresh e' he'))
    · rcases mem_insert.mp he' with rfl | he'
      · exact absurd haddrs (Nat.ne_of_lt (h.fresh e he))
      · exact h.addrs e he e' he' haddrs
  fresh e he := by
    rcases mem_insert.mp he with rfl | he
    · exact Nat.lt_succ_self _
    · exact Nat.lt_trans (h.fresh e he) (Nat.lt_succ_self _)
  freedOld addr haddr := Nat.lt_trans (h.freedOld addr haddr) (Nat.lt_succ_self _)
  freedOut e he := by
    rcases mem_insert.mp he with rfl | he
    · exact fun hmem => Nat.lt_irrefl _ (h.freedOld _ hmem)
    · exact h.freedOut e he
  freedOnce := h.freedOnce

/-- Unlinking an entry of the table keeps it well formed; that the entry is there is what
keeps its address from being freed twice. -/
theorem Wf.unlink (h : T.Wf hash) (he : e ∈ T) : (T.unlink e.addr).Wf hash where
  hashed b e' hb := h.hashed b e' (List.mem_of_mem_filter hb)
  nodup b := (h.nodup b).filter _
  keys e₁ h₁ e₂ h₂ := h.keys e₁ (mem_unlink.mp h₁).1 e₂ (mem_unlink.mp h₂).1
  addrs e₁ h₁ e₂ h₂ := h.addrs e₁ (mem_unlink.mp h₁).1 e₂ (mem_unlink.mp h₂).1
  fresh e' he' := h.fresh e' (mem_unlink.mp he').1
  freedOld addr haddr := by
    rcases List.mem_append.mp haddr with haddr | haddr
    · exact h.freedOld addr haddr
    · rw [List.mem_singleton.mp haddr]
      exact h.fresh e he
  freedOut e' he' haddr := by
    obtain ⟨hmem, hne⟩ := mem_unlink.mp he'
    rcases List.mem_append.mp haddr with haddr | haddr
    · exact h.freedOut e' hmem haddr
    · exact hne (List.mem_singleton.mp haddr)
  freedOnce := by
    refine List.nodup_append.mpr ⟨h.freedOnce, List.nodup_singleton _, ?_⟩
    rintro addr haddr _ haddr' rfl
    exact h.freedOut e he (List.mem_singleton.mp haddr' ▸ haddr)

end ChainedTable
end BlkdevSnapshot

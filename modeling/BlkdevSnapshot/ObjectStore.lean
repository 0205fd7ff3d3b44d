import BlkdevSnapshot.KeyHistory
import Mathlib.Data.Finset.Insert

/-!
# The objects of the device tables

All objects that the insertions of devices ever allocated, each with its stage: an object
is in its table while it is linked. A removed object is cleaned up and handed to
`kfree_rcu` with the RCU sections that are open then. The history of the tables and the
calls of `cleanup_object_data` are recorded.
-/
namespace BlkdevSnapshot
open KeyHistory

/-- How far an object is, with the call that works on it. -/
inductive Stage where
  | fresh (c : ℕ)
  | refused (c : ℕ)
  | dropped
  | linked
  | unlinked (c : ℕ)
  | retired (sections : Finset ℕ)
  | freed
  deriving DecidableEq

namespace Stage

/-- The memory of the object is not free. -/
def live : Stage → Bool
  | .dropped | .freed => false
  | _ => true

/-- The object has been in its table. -/
def published : Stage → Bool
  | .fresh _ | .refused _ | .dropped => false
  | _ => true

/-- The object has been in its table and was removed. -/
def gone : Stage → Bool
  | .unlinked _ | .retired _ | .freed => true
  | _ => false

/-- The object was passed to `cleanup_object_data`. -/
def cleaned : Stage → Bool
  | .retired _ | .freed => true
  | _ => false

/-- The insertion of the object was refused. -/
def rejected : Stage → Bool
  | .refused _ | .dropped => true
  | _ => false

end Stage

/-- `struct loop_object` or `struct blkdev_object`, with its address. -/
structure TableObject (κ : Type*) where
  addr : ℕ
  key : κ
  stage : Stage
  deriving DecidableEq

/-- The objects by their time of allocation, the objects that were passed to
`cleanup_object_data`, and the history of the tables; `none` stands for `destroy_devices`. -/
structure ObjectStore (κ : Type*) where
  objs : List (TableObject κ)
  cleanups : List ℕ
  history : List (Change κ (Option ℕ × ℕ))

namespace ObjectStore
variable {κ : Type*}

/-- The object at an index is in its table under the key. -/
def LinkedAt (st : ObjectStore κ) (i : ℕ) (k : κ) : Prop :=
  ∃ o, st.objs[i]? = some o ∧ o.stage = .linked ∧ o.key = k

/-- `kzalloc` of an object and its key. -/
def create (st : ObjectStore κ) (addr : ℕ) (key : κ) (c : ℕ) : ObjectStore κ :=
  { st with objs := st.objs ++ [⟨addr, key, .fresh c⟩] }

/-- An object comes to a stage; objects are cleaned up and the tables change. -/
def move (st : ObjectStore κ) (i : ℕ) (s : Stage) (cleaned : List ℕ)
    (changes : List (Change κ (Option ℕ × ℕ))) : ObjectStore κ where
  objs := st.objs.modify i fun o => { o with stage := s }
  cleanups := st.cleanups ++ cleaned
  history := st.history ++ changes

end ObjectStore

/-- The change inserts the object. -/
def isInsertionOf {κ : Type*} (i : ℕ) : Change κ (Option ℕ × ℕ) → Bool
  | .inserted _ who => who.2 = i
  | .removed _ _ => false

/-- The change removes the object. -/
def isRemovalOf {κ : Type*} (i : ℕ) : Change κ (Option ℕ × ℕ) → Bool
  | .inserted _ _ => false
  | .removed _ who => who.2 = i

namespace ObjectStore
variable {κ : Type*} [DecidableEq κ]

/-- Something holds of the stage of the object at an index, if there is one. -/
def stageAt (st : ObjectStore κ) (i : ℕ) (p : Stage → Bool) : Bool :=
  (st.objs[i]?).any fun o => p o.stage

/-- The steps of an object from a stage to the next, with the objects that are cleaned up
and the changes of the tables. -/
inductive Advance (st : ObjectStore κ) (i : ℕ) (key : κ) :
    Stage → Stage → List ℕ → List (Change κ (Option ℕ × ℕ)) → Prop where
  | refuse (c : ℕ) : Advance st i key (.fresh c) (.refused c) [] []
  | drop (c : ℕ) : Advance st i key (.refused c) .dropped [] []
  | link (c : ℕ) (hnew : ∀ j, ¬ st.LinkedAt j key) :
      Advance st i key (.fresh c) .linked [] [.inserted key (some c, i)]
  | unlink (c : ℕ) : Advance st i key .linked (.unlinked c) [] [.removed key (some c, i)]
  | destroy (sections : Finset ℕ) :
      Advance st i key .linked (.retired sections) [i] [.removed key (none, i)]
  | retire (c : ℕ) (sections : Finset ℕ) :
      Advance st i key (.unlinked c) (.retired sections) [i] []
  | free (sections : Finset ℕ) : Advance st i key (.retired sections) .freed [] []

/-- The stage of an object counts what happened to it. -/
structure Counted (st : ObjectStore κ) (i : ℕ) : Prop where
  inserted : st.history.countP (isInsertionOf i) = (st.stageAt i Stage.published).toNat
  removed : st.history.countP (isRemovalOf i) = (st.stageAt i Stage.gone).toNat
  cleaned : st.cleanups.count i = (st.stageAt i Stage.cleaned).toNat

/-- What holds of the objects and the history in every reachable state. -/
structure Ok (st : ObjectStore κ) : Prop where
  counted : ∀ i, st.Counted i
  present : ∀ k, Present st.history k ↔ ∃ i, st.LinkedAt i k
  unique : ∀ i j k, st.LinkedAt i k → st.LinkedAt j k → i = j
  alternates : ∀ k, Alternates st.history k
  addrs : ∀ (i j : ℕ) (o o' : TableObject κ), st.objs[i]? = some o → st.objs[j]? = some o' →
    o.stage.live → o'.stage.live → o.addr = o'.addr → i = j

variable {st : ObjectStore κ} {i j c addr : ℕ} {k key : κ} {o : TableObject κ} {s s' : Stage}
  {p : Stage → Bool} {cleaned : List ℕ} {changes : List (Change κ (Option ℕ × ℕ))}

section Lookup
omit [DecidableEq κ]

theorem getElem?_move (ho : st.objs[i]? = some o) (j : ℕ) :
    (st.move i s cleaned changes).objs[j]? =
      if i = j then some { o with stage := s } else st.objs[j]? := by
  rw [move, List.getElem?_modify]
  by_cases hij : i = j
  · subst hij
    simp [ho]
  · simp [hij]

theorem stageAt_move (ho : st.objs[i]? = some o) (j : ℕ) :
    (st.move i s cleaned changes).stageAt j p = if i = j then p s else st.stageAt j p := by
  rw [stageAt, getElem?_move ho]
  by_cases hij : i = j <;> simp [hij, stageAt]

theorem linkedAt_move (ho : st.objs[i]? = some o) (j : ℕ) (k : κ) :
    (st.move i s cleaned changes).LinkedAt j k ↔
      if i = j then s = .linked ∧ o.key = k else st.LinkedAt j k := by
  rw [LinkedAt, getElem?_move ho]
  by_cases hij : i = j <;> simp [hij, LinkedAt]

theorem linkedAt_iff (ho : st.objs[i]? = some o) :
    st.LinkedAt i k ↔ o.stage = .linked ∧ o.key = k := by
  simp [LinkedAt, ho]

theorem stageAt_eq (ho : st.objs[i]? = some o) (p : Stage → Bool) :
    st.stageAt i p = p o.stage := by
  simp [stageAt, ho]

theorem getElem?_create (h : (st.create addr key c).objs[j]? = some o) :
    st.objs[j]? = some o ∨ j = st.objs.length ∧ o = ⟨addr, key, .fresh c⟩ := by
  rw [create, List.getElem?_append] at h
  split at h
  · exact .inl h
  · rename_i hlt
    rw [List.getElem?_singleton] at h
    split at h
    · exact .inr ⟨by omega, (Option.some.inj h).symm⟩
    · cases h

/-- A new object is in no table and has no past. -/
theorem stageAt_create (hp : p (.fresh c) = false) :
    (st.create addr key c).stageAt j p = st.stageAt j p := by
  rw [stageAt, create, List.getElem?_append]
  split
  · rfl
  · rename_i hlt
    rw [stageAt, List.getElem?_eq_none (Nat.le_of_not_lt hlt), List.getElem?_singleton]
    split <;> simp [hp]

theorem linkedAt_create : (st.create addr key c).LinkedAt j k ↔ st.LinkedAt j k := by
  constructor
  · rintro ⟨o, ho, hs, hk⟩
    rcases getElem?_create ho with ho | ⟨-, rfl⟩
    · exact ⟨o, ho, hs, hk⟩
    · cases hs
  · rintro ⟨o, ho, hs, hk⟩
    refine ⟨o, ?_, hs, hk⟩
    rw [create, List.getElem?_append_left (List.getElem?_eq_some_iff.mp ho).1, ho]

end Lookup

section Invariant
variable (hok : st.Ok) (ho : st.objs[i]? = some o)
  (h : st.Advance i o.key o.stage s' cleaned changes)
include hok ho h

theorem Advance.counted (j : ℕ) : (st.move i s' cleaned changes).Counted j := by
  have hj := hok.counted j
  constructor
  · rw [move, List.countP_append, hj.inserted]
    change _ = ((st.move i s' cleaned changes).stageAt j Stage.published).toNat
    rw [stageAt_move ho]
    rcases eq_or_ne i j with rfl | hij
    · rw [if_pos rfl, stageAt_eq ho]
      generalize o.stage = s at h
      cases h <;> simp [isInsertionOf, Stage.published]
    · rw [if_neg hij]
      generalize o.stage = s at h
      cases h <;> simp [isInsertionOf, hij]
  · rw [move, List.countP_append, hj.removed]
    change _ = ((st.move i s' cleaned changes).stageAt j Stage.gone).toNat
    rw [stageAt_move ho]
    rcases eq_or_ne i j with rfl | hij
    · rw [if_pos rfl, stageAt_eq ho]
      generalize o.stage = s at h
      cases h <;> simp [isRemovalOf, Stage.gone]
    · rw [if_neg hij]
      generalize o.stage = s at h
      cases h <;> simp [isRemovalOf, hij]
  · rw [move, List.count_append, hj.cleaned]
    change _ = ((st.move i s' cleaned changes).stageAt j Stage.cleaned).toNat
    rw [stageAt_move ho]
    rcases eq_or_ne i j with rfl | hij
    · rw [if_pos rfl, stageAt_eq ho]
      generalize o.stage = s at h
      cases h <;> simp [Stage.cleaned]
    · rw [if_neg hij]
      generalize o.stage = s at h
      cases h <;> simp [hij]

end Invariant

section Keys
variable (hok : st.Ok) (ho : st.objs[i]? = some o)
include ho

omit [DecidableEq κ] in
/-- An object that is in no table before and after its step leaves the tables alone. -/
theorem exists_linkedAt_keep (hs : o.stage ≠ .linked) (hs' : s' ≠ .linked) (k : κ) :
    (∃ j, (st.move i s' cleaned changes).LinkedAt j k) ↔ ∃ j, st.LinkedAt j k := by
  refine exists_congr fun j => ?_
  rw [linkedAt_move ho]
  rcases eq_or_ne i j with rfl | hij
  · simp [linkedAt_iff ho, hs, hs']
  · rw [if_neg hij]

omit [DecidableEq κ] in
theorem exists_linkedAt_link (hs : o.stage ≠ .linked) (k : κ) :
    (∃ j, (st.move i .linked cleaned changes).LinkedAt j k) ↔
      o.key = k ∨ ∃ j, st.LinkedAt j k := by
  simp only [linkedAt_move ho]
  constructor
  · rintro ⟨j, hj⟩
    split at hj
    · exact .inl hj.2
    · exact .inr ⟨j, hj⟩
  · rintro (hk | ⟨j, hj⟩)
    · exact ⟨i, by simp [hk]⟩
    · refine ⟨j, ?_⟩
      rw [if_neg ?_]
      · exact hj
      · rintro rfl
        exact hs ((linkedAt_iff ho).mp hj).1

include hok in
theorem exists_linkedAt_unlink (hs : o.stage = .linked) (hs' : s' ≠ .linked) (k : κ) :
    (∃ j, (st.move i s' cleaned changes).LinkedAt j k) ↔
      o.key ≠ k ∧ ∃ j, st.LinkedAt j k := by
  simp only [linkedAt_move ho]
  constructor
  · rintro ⟨j, hj⟩
    split at hj
    · exact absurd hj.1 hs'
    · rename_i hij
      refine ⟨?_, j, hj⟩
      rintro rfl
      exact hij (hok.unique i j _ ((linkedAt_iff ho).mpr ⟨hs, rfl⟩) hj)
  · rintro ⟨hk, j, hj⟩
    refine ⟨j, ?_⟩
    rw [if_neg ?_]
    · exact hj
    · rintro rfl
      exact hk ((linkedAt_iff ho).mp hj).2

end Keys

omit [DecidableEq κ] in
/-- What takes a step is not free. -/
theorem Advance.live (h : st.Advance i key s s' cleaned changes) : s.live := by
  cases h <;> rfl

section Invariant
variable (hok : st.Ok) (ho : st.objs[i]? = some o)
  (h : st.Advance i o.key o.stage s' cleaned changes)
include hok ho h

theorem Advance.present (k : κ) :
    Present (st.history ++ changes) k ↔ ∃ j, (st.move i s' cleaned changes).LinkedAt j k := by
  have hpresent := hok.present k
  generalize hs : o.stage = s at h
  cases h with
  | refuse c | drop c | retire c w | free w =>
    rw [List.append_nil, hpresent, exists_linkedAt_keep ho (by simp [hs]) (by simp)]
  | link c hnew =>
    rw [present_concat_inserted, hpresent, exists_linkedAt_link ho (by simp [hs])]
  | unlink c | destroy w =>
    rw [present_concat_removed, hpresent, exists_linkedAt_unlink hok ho hs (by simp)]

theorem Advance.alternates (k : κ) : Alternates (st.history ++ changes) k := by
  have halt := hok.alternates k
  have hpresent := hok.present o.key
  generalize hs : o.stage = s at h
  cases h with
  | refuse c | drop c | retire c w | free w => rwa [List.append_nil]
  | link c hnew =>
    refine halt.concat_inserted fun hp => ?_
    obtain ⟨j, hj⟩ := hpresent.mp hp
    exact hnew j hj
  | unlink c | destroy w =>
    exact halt.concat_removed (hpresent.mpr ⟨i, (linkedAt_iff ho).mpr ⟨hs, rfl⟩⟩)

theorem Advance.unique (j j' : ℕ) (k : κ) (hj : (st.move i s' cleaned changes).LinkedAt j k)
    (hj' : (st.move i s' cleaned changes).LinkedAt j' k) : j = j' := by
  rw [linkedAt_move ho] at hj hj'
  by_cases hs' : s' = .linked
  · -- only a new key is linked
    have hnew : ∀ j, ¬ st.LinkedAt j o.key := by
      generalize o.stage = s at h
      subst hs'
      cases h with
      | link c hnew => exact hnew
    split at hj <;> split at hj'
    · omega
    · exact absurd (hj.2 ▸ hj') (hnew j')
    · exact absurd (hj'.2 ▸ hj) (hnew j)
    · exact hok.unique j j' k hj hj'
  · split at hj <;> split at hj'
    · exact absurd hj.1 hs'
    · exact absurd hj.1 hs'
    · exact absurd hj'.1 hs'
    · exact hok.unique j j' k hj hj'

theorem Advance.addrs (j j' : ℕ) (a b : TableObject κ)
    (hj : (st.move i s' cleaned changes).objs[j]? = some a)
    (hj' : (st.move i s' cleaned changes).objs[j']? = some b) (ha : a.stage.live)
    (hb : b.stage.live) (haddr : a.addr = b.addr) : j = j' := by
  rw [getElem?_move ho] at hj hj'
  split at hj <;> split at hj'
  · omega
  · cases hj
    rename_i hij _
    subst hij
    exact hok.addrs i j' o b ho hj' h.live hb haddr
  · cases hj'
    rename_i hij
    subst hij
    exact hok.addrs j i a o hj ho ha h.live haddr
  · exact hok.addrs j j' a b hj hj' ha hb haddr

/-- Every step of an object keeps the invariant. -/
theorem Ok.move : (st.move i s' cleaned changes).Ok where
  counted := h.counted hok ho
  present := h.present hok ho
  unique := h.unique hok ho
  alternates := h.alternates hok ho
  addrs := h.addrs hok ho

end Invariant

/-- An allocation takes an address that is not in use. -/
theorem Ok.create (hok : st.Ok) (hfresh : ∀ o ∈ st.objs, o.stage.live → o.addr ≠ addr) :
    (st.create addr key c).Ok where
  counted j := by
    have hj := hok.counted j
    constructor
    · rw [stageAt_create rfl]
      exact hj.inserted
    · rw [stageAt_create rfl]
      exact hj.removed
    · rw [stageAt_create rfl]
      exact hj.cleaned
  present k := by
    simp only [linkedAt_create]
    exact hok.present k
  unique j j' k hj hj' := hok.unique j j' k (linkedAt_create.mp hj) (linkedAt_create.mp hj')
  alternates := hok.alternates
  addrs j j' a b hj hj' ha hb haddr := by
    rcases getElem?_create hj with hj | ⟨rfl, rfl⟩ <;>
      rcases getElem?_create hj' with hj' | ⟨rfl, rfl⟩
    · exact hok.addrs j j' a b hj hj' ha hb haddr
    · exact absurd haddr (hfresh a (List.mem_of_getElem? hj) ha)
    · exact absurd haddr.symm (hfresh b (List.mem_of_getElem? hj') hb)
    · rfl

theorem ok_empty : (⟨[], [], []⟩ : ObjectStore κ).Ok where
  counted j := ⟨rfl, rfl, rfl⟩
  present k := by simp [not_present_nil, LinkedAt]
  unique j j' k hj := by simp [LinkedAt] at hj
  alternates k := alternates_nil
  addrs j j' a b hj := by simp at hj

end ObjectStore
end BlkdevSnapshot

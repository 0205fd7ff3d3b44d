import BlkdevSnapshot.DeviceRegistry
import BlkdevSnapshot.Machine
import BlkdevSnapshot.ObjectStore

/-!
# Concurrent registrations

Any number of calls of `register_device` and `unregister_device` at once, together with
`destroy_devices`. The calls hold the semaphore for reading; an insertion and a removal
of the tables are each one step, and an unregistration looks its object up in a step
before the removal, both in one RCU section. The keys are those of either table. A call that
fails before it has its key leaves with any value.
-/
namespace BlkdevSnapshot
open KeyHistory

inductive RegingKind where
  | register
  | unregister
  deriving DecidableEq

/-- Where a call is; `returned` keeps the length that the history had then. -/
inductive RegingPc where
  | idle
  | entered
  | prepared (i : ℕ)
  | refused (i : ℕ) (e : Errno)
  | found (i : ℕ)
  | cleaning (i : ℕ)
  | leaving (ret : ℤ)
  | returned (ret : ℤ) (finish : ℕ)
  deriving DecidableEq

/-- A call with the key that it came to and the length of the history at its start. -/
structure RegingCall (κ : Type*) where
  kind : RegingKind
  key : Option κ
  start : ℕ
  pc : RegingPc

/-- The tables, `allow_reging_operation` with its semaphore, the open RCU sections and the
calls. -/
structure ConcurrentRegistry (κ : Type*) where
  store : ObjectStore κ
  allowRegingOperation : Bool
  writer : Bool
  readers : Finset ℕ
  sections : Finset ℕ
  calls : ℕ → RegingCall κ

/-- The steps of a call `c`, of `kfree_rcu` and of `destroy_devices`. -/
inductive RegingStep (κ : Type*) where
  | enter (c : ℕ) (kind : RegingKind)
  | fail (c : ℕ) (ret : ℤ)
  | prepare (c : ℕ) (key : κ) (addr : ℕ)
  | insertFails (c : ℕ)
  | insert (c : ℕ) (old : Option ℕ)
  | discard (c : ℕ)
  | lookup (c : ℕ) (key : κ) (cur : Option ℕ)
  | removeFast (c : ℕ) (cur : Option ℕ)
  | freeFn (c : ℕ)
  | leave (c : ℕ)
  | reclaim (i : ℕ)
  | destroyBegin
  | destroyObject (i : ℕ)
  | destroyEnd

/-- What a search of the tables for a linked object may find. -/
def ObjectStore.Finds {κ : Type*} (st : ObjectStore κ) (p : TableObject κ → Prop) :
    Option ℕ → Prop
  | some i => ∃ o ∈ st.objs[i]?, o.stage = .linked ∧ p o
  | none => ∀ o ∈ st.objs, o.stage = .linked → ¬ p o

instance {κ : Type*} (st : ObjectStore κ) (p : TableObject κ → Prop) [DecidablePred p] :
    (found : Option ℕ) → Decidable (st.Finds p found)
  | some i => inferInstanceAs (Decidable (∃ o ∈ st.objs[i]?, o.stage = .linked ∧ p o))
  | none => inferInstanceAs (Decidable (∀ o ∈ st.objs, o.stage = .linked → ¬ p o))

namespace ConcurrentRegistry
variable {κ : Type*} [DecidableEq κ]

def setCall (s : ConcurrentRegistry κ) (c : ℕ) (call : RegingCall κ) : ConcurrentRegistry κ :=
  { s with calls := Function.update s.calls c call }

def setPc (s : ConcurrentRegistry κ) (c : ℕ) (pc : RegingPc) : ConcurrentRegistry κ :=
  s.setCall c { s.calls c with pc := pc }

def setStore (s : ConcurrentRegistry κ) (store : ObjectStore κ) : ConcurrentRegistry κ :=
  { s with store := store }

/-- The new object does not get into its table. -/
def refuse (s : ConcurrentRegistry κ) (c i : ℕ) (e : Errno) : ConcurrentRegistry κ :=
  (s.setPc c (.refused i e)).setStore (s.store.move i (.refused c) [] [])

/-- The address that a call found at its lookup. -/
def addrOf (s : ConcurrentRegistry κ) (i : ℕ) : Option ℕ := (s.store.objs[i]?).map (·.addr)

/-- `down_read` and the test of `allow_reging_operation`. -/
def enter (s : ConcurrentRegistry κ) (c : ℕ) (kind : RegingKind) : ConcurrentRegistry κ :=
  { s.setCall c ⟨kind, none, s.store.history.length,
      if s.allowRegingOperation then .entered else .leaving ebusy.code⟩ with
    readers := insert c s.readers }

/-- `rhashtable_lookup_get_insert_key` of the new object. -/
def insertObject (s : ConcurrentRegistry κ) (c i : ℕ) (key : κ) :
    Option ℕ → ConcurrentRegistry κ
  | some _ => s.refuse c i eexist
  | none => (s.setPc c (.leaving 0)).setStore
      (s.store.move i .linked [] [.inserted key (some c, i)])

/-- `rhashtable_lookup` of an unregistration; an object opens its RCU section. -/
def lookupObject (s : ConcurrentRegistry κ) (c : ℕ) (key : κ) :
    Option ℕ → ConcurrentRegistry κ
  | none => s.setCall c { s.calls c with key := some key, pc := .leaving enokey.code }
  | some i => { s.setCall c { s.calls c with key := some key, pc := .found i } with
      sections := insert c s.sections }

/-- `rhashtable_remove_fast` of an object, and the end of the RCU section. -/
def removeObject (s : ConcurrentRegistry κ) (c i : ℕ) (o : TableObject κ) :
    ConcurrentRegistry κ :=
  { (s.setPc c (.cleaning i)).setStore
      (s.store.move i (.unlinked c) [] [.removed o.key (some c, i)]) with
    sections := s.sections.erase c }

/-- `rhashtable_remove_fast` does not find the object. -/
def missObject (s : ConcurrentRegistry κ) (c : ℕ) : ConcurrentRegistry κ :=
  { s.setPc c (.leaving enokey.code) with sections := s.sections.erase c }

/-- One step of the registry. -/
def step (s : ConcurrentRegistry κ) : RegingStep κ → Option (ConcurrentRegistry κ)
  | .enter c kind =>
    if (s.calls c).pc = .idle ∧ s.writer = false then some (s.enter c kind) else none
  | .fail c ret =>
    if (s.calls c).pc = .entered then some (s.setPc c (.leaving ret)) else none
  | .prepare c key addr =>
    if (s.calls c).pc = .entered ∧ (s.calls c).kind = .register ∧
        ∀ o ∈ s.store.objs, o.stage.live → o.addr ≠ addr then
      some ((s.setCall c { s.calls c with
        key := some key, pc := .prepared s.store.objs.length }).setStore
          (s.store.create addr key c))
    else none
  | .insertFails c =>
    match (s.calls c).pc with
    | .prepared i => some (s.refuse c i efault)
    | _ => none
  | .insert c old =>
    match (s.calls c).pc, (s.calls c).key with
    | .prepared i, some key =>
      if s.store.Finds (·.key = key) old then some (s.insertObject c i key old) else none
    | _, _ => none
  | .discard c =>
    match (s.calls c).pc with
    | .refused i e =>
      some ((s.setPc c (.leaving e.code)).setStore (s.store.move i .dropped [] []))
    | _ => none
  | .lookup c key cur =>
    if (s.calls c).pc = .entered ∧ (s.calls c).kind = .unregister ∧
        s.store.Finds (·.key = key) cur then
      some (s.lookupObject c key cur)
    else none
  | .removeFast c cur =>
    match (s.calls c).pc with
    | .found i =>
      if s.store.Finds (fun o => some o.addr = s.addrOf i) cur then
        match cur with
        | none => some (s.missObject c)
        | some j => (s.store.objs[j]?).map fun o => s.removeObject c j o
      else none
    | _ => none
  | .freeFn c =>
    match (s.calls c).pc with
    | .cleaning i => some ((s.setPc c (.leaving 0)).setStore
        (s.store.move i (.retired s.sections) [i] []))
    | _ => none
  | .leave c =>
    match (s.calls c).pc with
    | .leaving ret => some { s.setPc c (.returned ret s.store.history.length) with
        readers := s.readers.erase c }
    | _ => none
  | .reclaim i =>
    match s.store.objs[i]? with
    | some ⟨_, _, .retired sections⟩ =>
      if Disjoint sections s.sections then some (s.setStore (s.store.move i .freed [] []))
      else none
    | _ => none
  | .destroyBegin =>
    if s.allowRegingOperation ∧ s.readers = ∅ then
      some { s with allowRegingOperation := false, writer := true }
    else none
  | .destroyObject i =>
    match s.store.objs[i]? with
    | some o =>
      if s.writer ∧ o.stage = .linked then
        some (s.setStore
          (s.store.move i (.retired s.sections) [i] [.removed o.key (none, i)]))
      else none
    | none => none
  | .destroyEnd =>
    if s.writer ∧ s.store.Finds (fun _ => True) none then some { s with writer := false }
    else none

/-- `setup_devices` has run. -/
def initial : ConcurrentRegistry κ where
  store := ⟨[], [], []⟩
  allowRegingOperation := true
  writer := false
  readers := ∅
  sections := ∅
  calls _ := ⟨.register, none, 0, .idle⟩

variable (κ) in
/-- The registry with all its calls. -/
def machine : Machine (ConcurrentRegistry κ) (RegingStep κ) where
  init s := s = initial
  step := step

end ConcurrentRegistry

/-- The change of the tables that a successful call makes. -/
def RegingKind.change {κ ω : Type*} : RegingKind → κ → ω → Change κ ω
  | .register => .inserted
  | .unregister => .removed

section Statement
variable {κ : Type*} [DecidableEq κ]

/-- The call that makes a change. -/
def doer : Change κ (Option ℕ × ℕ) → Option ℕ
  | .inserted _ who | .removed _ who => who.1

/-- The changes that a call made. -/
def changesBy (h : List (Change κ (Option ℕ × ℕ))) (c : ℕ) : List (Change κ (Option ℕ × ℕ)) :=
  h.filter fun change => doer change = some c

/-- The call succeeds, or has succeeded, or is about to. -/
def RegingPc.success : RegingPc → Bool
  | .cleaning _ => true
  | .leaving ret | .returned ret _ => ret = 0
  | _ => false

/-- A call that succeeds with a key made the one change of its kind, and any other call none. -/
structure Attributed (h : List (Change κ (Option ℕ × ℕ))) (c : ℕ) (call : RegingCall κ) :
    Prop where
  one : ∀ k, call.key = some k → call.pc.success →
    ∃ i, changesBy h c = [call.kind.change k (some c, i)]
  none : call.key = none ∨ call.pc.success = false → changesBy h c = []

/-- The value that a call returns was right at some moment of it, and a call that succeeded
changed the table for its key. -/
structure Justified (h : List (Change κ (Option ℕ × ℕ))) (c : ℕ) (call : RegingCall κ) (ret : ℤ)
    (finish : ℕ) : Prop where
  eexist : ret = eexist.code → ∀ k, call.key = some k →
    Sometime h call.start finish fun past => Present past k
  enokey : ret = enokey.code → ∀ k, call.key = some k →
    Sometime h call.start finish fun past => ¬ Present past k
  done : ret = 0 → ∀ k, call.key = some k → ∃ n i, call.start ≤ n ∧ n < finish ∧
    h[n]? = some (call.kind.change k (some c, i))

/-- The tables behave like one table that each call uses once, between its start and its end. -/
structure Linearized (s : ConcurrentRegistry κ) : Prop where
  unique : ∀ i j k, s.store.LinkedAt i k → s.store.LinkedAt j k → i = j
  present : ∀ k, Present s.store.history k ↔ ∃ i, s.store.LinkedAt i k
  alternates : ∀ k, Alternates s.store.history k
  cleaned : ∀ i, s.store.history.countP (isRemovalOf i) ≤ 1 ∧
    (s.store.cleanups.count i = s.store.history.countP (isRemovalOf i) ∨
      s.store.cleanups.count i = 0 ∧ ∃ c, (s.calls c).pc = .cleaning i)
  rejected : ∀ i, s.store.stageAt i Stage.rejected →
    s.store.history.countP (isInsertionOf i) = 0 ∧ ∀ k, ¬ s.store.LinkedAt i k
  attributed : ∀ c, Attributed s.store.history c (s.calls c)
  returned : ∀ c ret finish, (s.calls c).pc = .returned ret finish →
    finish ≤ s.store.history.length ∧
      Justified s.store.history c (s.calls c) ret finish

variable {c n : ℕ} {call : RegingCall κ} {ret : ℤ} {h h' : List (Change κ (Option ℕ × ℕ))}

/-- A value stays justified while the history goes on. -/
theorem Justified.mono (hj : Justified h c call ret n) (hn : n ≤ h.length) (hh : h <+: h')
    {n' : ℕ} (hle : n ≤ n') : Justified h' c call ret n' := by
  obtain ⟨t, rfl⟩ := hh
  refine ⟨fun hret k hk => ?_, fun hret k hk => ?_, fun hret k hk => ?_⟩
  · exact ((hj.eexist hret k hk).append hn t).mono hle
  · exact ((hj.enokey hret k hk).append hn t).mono hle
  · obtain ⟨m, i, h1, h2, hm⟩ := hj.done hret k hk
    refine ⟨m, i, h1, h2.trans_le hle, ?_⟩
    rw [List.getElem?_append_left (h2.trans_le hn), hm]

/-- The place of the call does not matter. -/
theorem Justified.setPc (hj : Justified h c call ret n) (pc : RegingPc) :
    Justified h c { call with pc := pc } ret n :=
  ⟨hj.eexist, hj.enokey, hj.done⟩

/-- A call that fails before it has its key says nothing about one. -/
theorem justified_of_no_key (hkey : call.key = none) : Justified h c call ret n :=
  ⟨by simp [hkey], by simp [hkey], by simp [hkey]⟩

theorem justified_efault : Justified h c call efault.code n :=
  ⟨fun hret => absurd hret (by decide), fun hret => absurd hret (by decide),
    fun hret => absurd hret (by decide)⟩

theorem justified_eexist {k : κ} (hkey : call.key = some k)
    (hs : Sometime h call.start n fun past => Present past k) :
    Justified h c call BlkdevSnapshot.eexist.code n := by
  refine ⟨fun _ k' hk => ?_, fun hret => absurd hret (by decide),
    fun hret => absurd hret (by decide)⟩
  cases hkey.symm.trans hk
  exact hs

theorem justified_enokey {k : κ} (hkey : call.key = some k)
    (hs : Sometime h call.start n fun past => ¬ Present past k) :
    Justified h c call BlkdevSnapshot.enokey.code n := by
  refine ⟨fun hret => absurd hret (by decide), fun _ k' hk => ?_,
    fun hret => absurd hret (by decide)⟩
  cases hkey.symm.trans hk
  exact hs

/-- A call that just made its change has succeeded. -/
theorem justified_done {k : κ} {i : ℕ} (hkey : call.key = some k) (hstart : call.start ≤ h.length) :
    Justified (h ++ [call.kind.change k (some c, i)]) c call 0
      (h ++ [call.kind.change k (some c, i)]).length := by
  refine ⟨fun hret => absurd hret (by decide), fun hret => absurd hret (by decide),
    fun _ k' hk => ?_⟩
  cases hkey.symm.trans hk
  exact ⟨h.length, i, hstart, by simp, List.getElem?_concat_length⟩

omit [DecidableEq κ] in
theorem changesBy_append_of_others (hdoer : ∀ change ∈ h', doer change ≠ some c) :
    changesBy (h ++ h') c = changesBy h c := by
  have hnone : changesBy h' c = [] := by
    rw [changesBy, List.filter_eq_nil_iff]
    simpa using hdoer
  rw [changesBy, List.filter_append]
  exact (congrArg (changesBy h c ++ ·) hnone).trans (List.append_nil _)

omit [DecidableEq κ] in
/-- A call keeps its changes while it comes to another place with the same success. -/
theorem Attributed.setPc (ha : Attributed h c call) {pc : RegingPc}
    (hpc : pc.success = call.pc.success) : Attributed h c { call with pc := pc } :=
  ⟨fun k hkey hsucc => ha.one k hkey (hpc ▸ hsucc), fun hor => ha.none (hpc ▸ hor)⟩

omit [DecidableEq κ] in
theorem attributed_none (hnone : changesBy h c = [])
    (hcall : call.key = none ∨ call.pc.success = false) : Attributed h c call := by
  refine ⟨fun k hkey hsucc => ?_, fun _ => hnone⟩
  rcases hcall with hcall | hcall
  · cases hcall.symm.trans hkey
  · cases hcall.symm.trans hsucc

omit [DecidableEq κ] in
/-- A call that just made its first change. -/
theorem attributed_one (i : ℕ) (pc : RegingPc) {k : κ} (hnone : changesBy h c = [])
    (hkey : call.key = some k) (hsucc : pc.success) :
    Attributed (h ++ [call.kind.change k (some c, i)]) c { call with pc := pc } := by
  refine ⟨fun k' hk _ => ⟨i, ?_⟩, fun hor => ?_⟩
  · cases hkey.symm.trans hk
    have hdoer : doer (call.kind.change k (some c, i)) = some c := by cases call.kind <;> rfl
    rw [changesBy, List.filter_append] at *
    rw [hnone]
    simp [hdoer]
  · simp [hkey, hsucc] at hor

end Statement

namespace ConcurrentRegistry
variable {κ : Type*} [DecidableEq κ]

/-- The memory of a removed object waits for the call. -/
def Held (c : ℕ) : Stage → Prop
  | .unlinked _ => True
  | .retired sections => c ∈ sections
  | _ => False

/-- What holds of a call at its place. -/
def PcOk (s : ConcurrentRegistry κ) (c : ℕ) (call : RegingCall κ) : RegingPc → Prop
  | .idle => True
  | .entered => call.key = none
  | .prepared i => call.kind = .register ∧
      ∃ o, s.store.objs[i]? = some o ∧ o.stage = .fresh c ∧ call.key = some o.key
  | .refused i e => (∃ o, s.store.objs[i]? = some o ∧ o.stage = .refused c) ∧
      Justified s.store.history c call e.code s.store.history.length
  | .found i => call.kind = .unregister ∧ c ∈ s.sections ∧
      ∃ o, s.store.objs[i]? = some o ∧ call.key = some o.key ∧
        (o.stage = .linked ∨ Held c o.stage ∧
          Sometime s.store.history call.start s.store.history.length fun past =>
            ¬ Present past o.key)
  | .cleaning i => (∃ o, s.store.objs[i]? = some o ∧ o.stage = .unlinked c) ∧
      Justified s.store.history c call 0 s.store.history.length
  | .leaving ret => Justified s.store.history c call ret s.store.history.length
  | .returned ret finish => finish ≤ s.store.history.length ∧
      Justified s.store.history c call ret finish

/-- The invariant of the registry. -/
structure Inv (s : ConcurrentRegistry κ) : Prop where
  store : s.store.Ok
  start : ∀ c, (s.calls c).start ≤ s.store.history.length
  pc : ∀ c, s.PcOk c (s.calls c) (s.calls c).pc
  unlinked : ∀ (i c : ℕ) (o : TableObject κ), s.store.objs[i]? = some o →
    o.stage = .unlinked c → (s.calls c).pc = .cleaning i
  attributed : ∀ c, Attributed s.store.history c (s.calls c)

/-- What the steps of others do to an object that a call may hold. -/
inductive Disturb (c : ℕ) (sections : Finset ℕ) (h : List (Change κ (Option ℕ × ℕ)))
    (key : κ) : Stage → Stage → Prop where
  | same (s : Stage) : Disturb c sections h key s s
  | unlink (d : ℕ) (hgone : ¬ Present h key) : Disturb c sections h key .linked (.unlinked d)
  | destroy (hgone : ¬ Present h key) : Disturb c sections h key .linked (.retired sections)
  | retire (d : ℕ) (hne : d ≠ c) : Disturb c sections h key (.unlinked d) (.retired sections)
  | free (w : Finset ℕ) (hw : Disjoint w sections) :
      Disturb c sections h key (.retired w) .freed
  | fresh (d : ℕ) (hne : d ≠ c) (s : Stage) : Disturb c sections h key (.fresh d) s
  | refused (d : ℕ) (hne : d ≠ c) (s : Stage) : Disturb c sections h key (.refused d) s

/-- What a step of others keeps of a call. -/
structure Frame (c : ℕ) (s s' : ConcurrentRegistry κ) : Prop where
  call : s'.calls c = s.calls c
  history : s.store.history <+: s'.store.history
  changes : changesBy s'.store.history c = changesBy s.store.history c
  sections : c ∈ s.sections → c ∈ s'.sections
  objs : ∀ (i : ℕ) (o : TableObject κ), s.store.objs[i]? = some o →
    ∃ st, s'.store.objs[i]? = some { o with stage := st } ∧
      Disturb c s.sections s'.store.history o.key o.stage st

variable {s s' : ConcurrentRegistry κ} {c d i n : ℕ} {call : RegingCall κ} {ret : ℤ}

/-- A call keeps its place through the steps of others. -/
theorem Frame.pcOk (hf : Frame c s s') (hstart : call.start ≤ s.store.history.length)
    {pc : RegingPc} (hpc : s.PcOk c call pc) : s'.PcOk c call pc := by
  have hlen := hf.history.length_le
  cases pc with
  | idle => trivial
  | entered => exact hpc
  | prepared i =>
    obtain ⟨hkind, o, ho, hs, hkey⟩ := hpc
    obtain ⟨st, hst, hd⟩ := hf.objs i o ho
    rw [hs] at hd
    cases hd with
    | same => exact ⟨hkind, _, hst, rfl, hkey⟩
    | fresh d hne => exact absurd rfl hne
  | refused i e =>
    obtain ⟨⟨o, ho, hs⟩, hj⟩ := hpc
    refine ⟨?_, hj.mono le_rfl hf.history hlen⟩
    obtain ⟨st, hst, hd⟩ := hf.objs i o ho
    rw [hs] at hd
    cases hd with
    | same => exact ⟨_, hst, rfl⟩
    | refused d hne => exact absurd rfl hne
  | found i =>
    obtain ⟨hkind, hmem, o, ho, hkey, hor⟩ := hpc
    obtain ⟨st, hst, hd⟩ := hf.objs i o ho
    refine ⟨hkind, hf.sections hmem, _, hst, hkey, ?_⟩
    have hpast (habs : Sometime s.store.history call.start s.store.history.length
        fun past => ¬ Present past o.key) :
        Sometime s'.store.history call.start s'.store.history.length
          fun past => ¬ Present past o.key := by
      obtain ⟨t, ht⟩ := hf.history
      rw [← ht] at hlen ⊢
      exact (habs.append le_rfl t).mono hlen
    have hnow (hgone : ¬ Present s'.store.history o.key) :
        Sometime s'.store.history call.start s'.store.history.length
          fun past => ¬ Present past o.key :=
      sometime_now (hstart.trans hlen) hgone
    generalize o.stage = stage at hor hd
    cases hd with
    | same => exact hor.imp_right fun hor => ⟨hor.1, hpast hor.2⟩
    | unlink d hgone => exact .inr ⟨trivial, hnow hgone⟩
    | destroy hgone => exact .inr ⟨hmem, hnow hgone⟩
    | retire d hne =>
      rcases hor with hor | hor
      · cases hor
      · exact .inr ⟨hmem, hpast hor.2⟩
    | free w hw =>
      rcases hor with hor | hor
      · cases hor
      · exact absurd hmem (Finset.disjoint_left.mp hw hor.1)
    | fresh d hne | refused d hne =>
      rcases hor with hor | hor
      · cases hor
      · exact hor.1.elim
  | cleaning i =>
    obtain ⟨⟨o, ho, hs⟩, hj⟩ := hpc
    refine ⟨?_, hj.mono le_rfl hf.history hlen⟩
    obtain ⟨st, hst, hd⟩ := hf.objs i o ho
    rw [hs] at hd
    cases hd with
    | same => exact ⟨_, hst, rfl⟩
    | retire d hne => exact absurd rfl hne
  | leaving ret => exact Justified.mono hpc le_rfl hf.history hlen
  | returned ret finish =>
    exact ⟨hpc.1.trans hlen, hpc.2.mono hpc.1 hf.history le_rfl⟩

theorem Frame.attributed (hf : Frame c s s')
    (ha : Attributed s.store.history c (s.calls c)) :
    Attributed s'.store.history c (s'.calls c) := by
  rw [hf.call]
  exact ⟨fun k hkey hsucc => hf.changes ▸ ha.one k hkey hsucc, fun hor => hf.changes ▸ ha.none hor⟩

/-- The call that alone works on an object. -/
def owner : Stage → Option ℕ
  | .fresh c | .refused c | .unlinked c => some c
  | _ => none

section Frames
variable {o : TableObject κ} {stage stage' : Stage} {cleaned : List ℕ}
  {changes : List (Change κ (Option ℕ × ℕ))}

/-- A step of an object that another call owns, if any, disturbs no call more than allowed. -/
theorem disturb_of_advance {key : κ} {sections : Finset ℕ}
    (hadv : s.store.Advance i key stage stage' cleaned changes) (hown : owner stage ≠ some c)
    (hretire : ∀ w, stage' = .retired w → w = sections)
    (hfree : ∀ w, stage = .retired w → Disjoint w sections) :
    Disturb c sections (s.store.history ++ changes) key stage stage' := by
  cases hadv with
  | refuse d => exact .fresh d (by simpa [owner] using hown) _
  | drop d => exact .refused d (by simpa [owner] using hown) _
  | link d hnew => exact .fresh d (by simpa [owner] using hown) _
  | unlink d => exact .unlink d (by simp [present_concat_removed])
  | destroy w =>
    rw [hretire w rfl]
    exact .destroy (by simp [present_concat_removed])
  | retire d w =>
    rw [hretire w rfl]
    exact .retire d (by simpa [owner] using hown)
  | free w => exact .free w (hfree w rfl)

theorem Frame.of_store (hcall : s'.calls c = s.calls c) (hstore : s'.store = s.store)
    (hsections : c ∈ s.sections → c ∈ s'.sections) : Frame c s s' where
  call := hcall
  history := by rw [hstore]
  changes := by rw [hstore]
  sections := hsections
  objs j o ho := ⟨o.stage, by rw [hstore, ho], .same _⟩

theorem Frame.of_create {addr : ℕ} {key : κ} (hcall : s'.calls c = s.calls c)
    (hstore : s'.store = s.store.create addr key d) (hsections : s'.sections = s.sections) :
    Frame c s s' where
  call := hcall
  history := by
    rw [hstore]
    exact List.prefix_rfl
  changes := by rw [hstore, ObjectStore.create]
  sections := by rw [hsections]; exact id
  objs j o ho := by
    refine ⟨o.stage, ?_, .same _⟩
    rw [hstore, ObjectStore.create,
      List.getElem?_append_left (List.getElem?_eq_some_iff.mp ho).1, ho]

theorem Frame.of_move (ho : s.store.objs[i]? = some o)
    (hadv : s.store.Advance i o.key o.stage stage' cleaned changes)
    (hown : owner o.stage ≠ some c) (hretire : ∀ w, stage' = .retired w → w = s.sections)
    (hfree : ∀ w, o.stage = .retired w → Disjoint w s.sections)
    (hdoer : ∀ change ∈ changes, doer change ≠ some c)
    (hcall : s'.calls c = s.calls c) (hstore : s'.store = s.store.move i stage' cleaned changes)
    (hsections : c ∈ s.sections → c ∈ s'.sections) : Frame c s s' where
  call := hcall
  history := by
    rw [hstore]
    exact List.prefix_append _ _
  changes := by
    rw [hstore, ObjectStore.move]
    exact changesBy_append_of_others hdoer
  sections := hsections
  objs j a ha := by
    rw [hstore, ObjectStore.getElem?_move ho]
    rcases eq_or_ne i j with rfl | hij
    · obtain rfl : o = a := Option.some.inj (ho.symm.trans ha)
      exact ⟨stage', if_pos rfl, disturb_of_advance hadv hown hretire hfree⟩
    · exact ⟨a.stage, by rw [if_neg hij, ha], .same _⟩

end Frames

/-- The rule for a step of one call: the others keep their places. -/
theorem Inv.act (hinv : s.Inv) (hcalls : s'.calls = Function.update s.calls c call)
    (hstore : s'.store.Ok) (hframe : ∀ d, d ≠ c → Frame d s s')
    (hlen : s.store.history.length ≤ s'.store.history.length)
    (hstart : call.start ≤ s'.store.history.length) (hpc : s'.PcOk c call call.pc)
    (hattr : Attributed s'.store.history c call)
    (hunlinked : ∀ (i d : ℕ) (o : TableObject κ), s'.store.objs[i]? = some o →
      o.stage = .unlinked d → (s'.calls d).pc = .cleaning i) : s'.Inv where
  store := hstore
  start d := by
    rcases eq_or_ne d c with rfl | hd
    · rwa [hcalls, Function.update_self]
    · rw [(hframe d hd).call]
      exact (hinv.start d).trans hlen
  pc d := by
    rcases eq_or_ne d c with rfl | hd
    · rwa [hcalls, Function.update_self]
    · rw [(hframe d hd).call]
      exact (hframe d hd).pcOk (hinv.start d) (hinv.pc d)
  unlinked := hunlinked
  attributed d := by
    rcases eq_or_ne d c with rfl | hd
    · rwa [hcalls, Function.update_self]
    · exact (hframe d hd).attributed (hinv.attributed d)

section Acting
variable {o : TableObject κ} {stage : Stage} {cleaned : List ℕ}
  {changes : List (Change κ (Option ℕ × ℕ))}

/-- A call that does not touch the objects. -/
theorem Inv.keep (hinv : s.Inv) (hcalls : s'.calls = Function.update s.calls c call)
    (hstore : s'.store = s.store) (hsections : ∀ d, d ≠ c → d ∈ s.sections → d ∈ s'.sections)
    (hclean : ∀ j, (s.calls c).pc ≠ .cleaning j) (hstart : call.start ≤ s.store.history.length)
    (hpc : s'.PcOk c call call.pc) (hattr : Attributed s.store.history c call) : s'.Inv := by
  refine hinv.act hcalls (hstore ▸ hinv.store) (fun d hd => ?_) (by rw [hstore])
    (by rwa [hstore]) hpc (by rwa [hstore]) fun j d a ha hs => ?_
  · refine .of_store ?_ hstore (hsections d hd)
    rw [hcalls, Function.update_of_ne hd]
  · rw [hstore] at ha
    have hd := hinv.unlinked j d a ha hs
    rw [hcalls, Function.update_of_ne, hd]
    rintro rfl
    exact hclean j hd

/-- A call that allocates an object. -/
theorem Inv.create {addr : ℕ} {key : κ} (hinv : s.Inv)
    (hcalls : s'.calls = Function.update s.calls c call)
    (hstore : s'.store = s.store.create addr key c) (hsections : s'.sections = s.sections)
    (hfresh : ∀ o ∈ s.store.objs, o.stage.live → o.addr ≠ addr)
    (hclean : ∀ j, (s.calls c).pc ≠ .cleaning j) (hstart : call.start ≤ s.store.history.length)
    (hpc : s'.PcOk c call call.pc) (hattr : Attributed s.store.history c call) : s'.Inv := by
  have hlen : s'.store.history = s.store.history := by
    rw [hstore]
    rfl
  refine hinv.act hcalls (hstore ▸ hinv.store.create hfresh) (fun d hd => ?_) (by rw [hlen])
    (by rwa [hlen]) hpc (by rwa [hlen]) fun j d a ha hs => ?_
  · refine .of_create ?_ hstore hsections
    rw [hcalls, Function.update_of_ne hd]
  · rw [hstore] at ha
    rcases ObjectStore.getElem?_create ha with ha | ⟨-, rfl⟩
    · have hd := hinv.unlinked j d a ha hs
      rw [hcalls, Function.update_of_ne, hd]
      rintro rfl
      exact hclean j hd
    · cases hs

/-- A call that takes an object, which no other call owns, to its next stage. -/
theorem Inv.move (hinv : s.Inv) (ho : s.store.objs[i]? = some o)
    (hadv : s.store.Advance i o.key o.stage stage cleaned changes)
    (hcalls : s'.calls = Function.update s.calls c call)
    (hstore : s'.store = s.store.move i stage cleaned changes)
    (hsections : ∀ d, d ≠ c → d ∈ s.sections → d ∈ s'.sections)
    (hown : ∀ d, d ≠ c → owner o.stage ≠ some d)
    (hretire : ∀ w, stage = .retired w → w = s.sections) (hlive : ∀ w, o.stage ≠ .retired w)
    (hclean : ∀ j, j ≠ i → (s.calls c).pc ≠ .cleaning j)
    (hunlink : ∀ d, stage = .unlinked d → d = c ∧ call.pc = .cleaning i)
    (hstart : call.start ≤ s.store.history.length) (hpc : s'.PcOk c call call.pc)
    (hdoer : ∀ d, d ≠ c → ∀ change ∈ changes, doer change ≠ some d)
    (hattr : Attributed (s.store.history ++ changes) c call) : s'.Inv := by
  have hlen : s.store.history.length ≤ s'.store.history.length := by
    rw [hstore]
    exact (List.prefix_append _ _).length_le
  refine hinv.act hcalls (hstore ▸ hinv.store.move ho hadv) (fun d hd => ?_) hlen
    (hstart.trans hlen) hpc (hstore ▸ hattr) fun j d a ha hs => ?_
  · refine .of_move ho hadv (hown d hd) hretire (fun w hw => absurd hw (hlive w)) (hdoer d hd) ?_
      hstore (hsections d hd)
    rw [hcalls, Function.update_of_ne hd]
  · rw [hstore, ObjectStore.getElem?_move ho] at ha
    split at ha
    · rename_i hij
      cases ha
      obtain ⟨rfl, hcall⟩ := hunlink d hs
      rw [hcalls, Function.update_self, hcall, hij]
    · rename_i hij
      have hd := hinv.unlinked j d a ha hs
      rw [hcalls, Function.update_of_ne, hd]
      rintro rfl
      exact hclean j (Ne.symm hij) hd

/-- A step of no call that takes an object to its next stage. -/
theorem Inv.move_alone (hinv : s.Inv) (ho : s.store.objs[i]? = some o)
    (hadv : s.store.Advance i o.key o.stage stage cleaned changes)
    (hcalls : s'.calls = s.calls) (hstore : s'.store = s.store.move i stage cleaned changes)
    (hsections : s'.sections = s.sections) (hown : owner o.stage = none)
    (hretire : ∀ w, stage = .retired w → w = s.sections)
    (hfree : ∀ w, o.stage = .retired w → Disjoint w s.sections)
    (hunlink : ∀ d, stage ≠ .unlinked d) (hdoer : ∀ change ∈ changes, doer change = none) :
    s'.Inv := by
  have hframe (d : ℕ) : Frame d s s' :=
    .of_move ho hadv (by simp [hown]) hretire hfree (fun e he => by simp [hdoer e he])
      (by rw [hcalls]) hstore (by rw [hsections]; exact id)
  refine ⟨hstore ▸ hinv.store.move ho hadv, fun d => ?_, fun d => ?_, fun j d a ha hs => ?_,
    fun d => (hframe d).attributed (hinv.attributed d)⟩
  · rw [hcalls]
    exact (hinv.start d).trans (hframe d).history.length_le
  · rw [hcalls]
    exact (hframe d).pcOk (hinv.start d) (hinv.pc d)
  · rw [hstore, ObjectStore.getElem?_move ho] at ha
    rw [hcalls]
    split at ha
    · cases ha
      exact absurd hs (hunlink d)
    · exact hinv.unlinked j d a ha hs

/-- A step of no call that leaves the objects alone. -/
theorem Inv.keep_alone (hinv : s.Inv) (hcalls : s'.calls = s.calls)
    (hstore : s'.store = s.store) (hsections : s'.sections = s.sections) : s'.Inv := by
  have hframe (d : ℕ) : Frame d s s' :=
    .of_store (by rw [hcalls]) hstore (by rw [hsections]; exact id)
  refine ⟨hstore ▸ hinv.store, fun d => ?_, fun d => ?_, fun j d a ha hs => ?_,
    fun d => (hframe d).attributed (hinv.attributed d)⟩
  · rw [hcalls]
    exact (hinv.start d).trans (hframe d).history.length_le
  · rw [hcalls]
    exact (hframe d).pcOk (hinv.start d) (hinv.pc d)
  · rw [hstore] at ha
    rw [hcalls]
    exact hinv.unlinked j d a ha hs

end Acting

/-- A call that has not succeeded has not changed the tables. -/
theorem Inv.changesBy_eq_nil (hinv : s.Inv) (hpc : (s.calls c).pc.success = false) :
    changesBy s.store.history c = [] :=
  (hinv.attributed c).none (.inr hpc)

section Steps

theorem inv_enter (hinv : s.Inv) (kind : RegingKind) (hidle : (s.calls c).pc = .idle) :
    (s.enter c kind).Inv := by
  refine hinv.keep rfl rfl (fun d _ hd => hd) (by simp [hidle]) le_rfl ?_
    (attributed_none (hinv.changesBy_eq_nil (by rw [hidle]; rfl)) (.inl rfl))
  cases s.allowRegingOperation with
  | true => exact rfl
  | false => exact justified_of_no_key rfl

theorem inv_fail (hinv : s.Inv) (hpc : (s.calls c).pc = .entered) (ret : ℤ) :
    (s.setPc c (.leaving ret)).Inv := by
  have hkey := hinv.pc c
  rw [hpc] at hkey
  exact hinv.keep rfl rfl (fun d _ hd => hd) (by simp [hpc]) (hinv.start c)
    (justified_of_no_key hkey)
    (attributed_none (hinv.changesBy_eq_nil (by rw [hpc]; rfl)) (.inl hkey))

theorem inv_prepare (hinv : s.Inv) {key : κ} {addr : ℕ} (hpc : (s.calls c).pc = .entered)
    (hkind : (s.calls c).kind = .register)
    (hfresh : ∀ o ∈ s.store.objs, o.stage.live → o.addr ≠ addr) :
    ((s.setCall c { s.calls c with
      key := some key, pc := .prepared s.store.objs.length }).setStore
        (s.store.create addr key c)).Inv := by
  refine hinv.create rfl rfl rfl hfresh (by simp [hpc]) (hinv.start c) ⟨hkind, ?_⟩
    (attributed_none (hinv.changesBy_eq_nil (by rw [hpc]; rfl)) (.inr rfl))
  exact ⟨_, List.getElem?_concat_length, rfl, rfl⟩

theorem inv_refuse (hinv : s.Inv) {e : Errno} (hpc : (s.calls c).pc = .prepared i)
    (hjust : Justified s.store.history c { s.calls c with pc := .refused i e } e.code
      s.store.history.length) : (s.refuse c i e).Inv := by
  have hok := hinv.pc c
  rw [hpc] at hok
  obtain ⟨-, o, ho, hs, -⟩ := hok
  refine hinv.move ho (hs ▸ .refuse c) rfl rfl (fun d _ hd => hd) ?_ ?_ ?_ ?_ ?_ (hinv.start c) ?_
    (by simp) ?_
  · rintro d hd
    simpa [hs, owner] using hd.symm
  · rintro w ⟨⟩
  · simp [hs]
  · simp [hpc]
  · rintro d ⟨⟩
  · refine ⟨⟨_, (ObjectStore.getElem?_move ho i).trans (if_pos rfl), rfl⟩, ?_⟩
    have hhist : (s.refuse c i e).store.history = s.store.history := List.append_nil _
    rwa [hhist]
  · rw [List.append_nil]
    exact attributed_none (hinv.changesBy_eq_nil (by rw [hpc]; rfl)) (.inr rfl)

omit [DecidableEq κ] in
/-- What a search finds is linked. -/
theorem linkedAt_of_finds {p : TableObject κ → Prop} (h : s.store.Finds p (some i)) :
    ∃ o, s.store.objs[i]? = some o ∧ o.stage = .linked ∧ p o := by
  obtain ⟨o, ho, hs, hp⟩ := h
  exact ⟨o, ho, hs, hp⟩

/-- A search for a key tells whether the key is present. -/
theorem present_of_finds (hok : s.store.Ok) {key : κ} {found : Option ℕ}
    (h : s.store.Finds (·.key = key) found) :
    Present s.store.history key ↔ found.isSome := by
  rw [hok.present key]
  cases found with
  | some i =>
    obtain ⟨o, ho, hs, hp⟩ := linkedAt_of_finds h
    exact iff_of_true ⟨i, o, ho, hs, hp⟩ rfl
  | none =>
    refine iff_of_false ?_ (by simp)
    rintro ⟨i, o, ho, hs, hp⟩
    exact h o (List.mem_of_getElem? ho) hs hp

theorem inv_insertObject (hinv : s.Inv) {key : κ} {old : Option ℕ}
    (hpc : (s.calls c).pc = .prepared i) (hkey : (s.calls c).key = some key)
    (hfound : s.store.Finds (·.key = key) old) : (s.insertObject c i key old).Inv := by
  have hpresent := present_of_finds hinv.store hfound
  cases old with
  | some j =>
    exact inv_refuse hinv hpc (justified_eexist hkey
      (sometime_now (hinv.start c) (hpresent.mpr rfl)))
  | none =>
    have hok := hinv.pc c
    rw [hpc] at hok
    obtain ⟨hkind, o, ho, hs, hkey'⟩ := hok
    obtain rfl : key = o.key := Option.some.inj (hkey.symm.trans hkey')
    have hnew : ∀ j, ¬ s.store.LinkedAt j o.key := by
      intro j hj
      exact absurd (hpresent.mp ((hinv.store.present _).mpr ⟨j, hj⟩)) (by simp)
    have hchange : (s.calls c).kind.change o.key (some c, i) = .inserted o.key (some c, i) := by
      rw [hkind]
      rfl
    refine hinv.move ho (hs ▸ .link c hnew) rfl rfl (fun d _ hd => hd) ?_ ?_ ?_ ?_ ?_
      (hinv.start c) ?_ ?_ ?_
    · rintro d hd
      simpa [hs, owner] using hd.symm
    · rintro w ⟨⟩
    · simp [hs]
    · simp [hpc]
    · rintro d ⟨⟩
    · have hdone := justified_done (c := c) (i := i) hkey (hinv.start c)
      rw [hchange] at hdone
      exact hdone.setPc _
    · rintro d hd change hmem
      obtain rfl := List.mem_singleton.mp hmem
      simpa [doer] using hd.symm
    · have hnone := hinv.changesBy_eq_nil (c := c) (by rw [hpc]; rfl)
      rw [← hchange]
      exact attributed_one i (.leaving 0) hnone hkey rfl

theorem inv_discard (hinv : s.Inv) {e : Errno} (hpc : (s.calls c).pc = .refused i e) :
    ((s.setPc c (.leaving e.code)).setStore (s.store.move i .dropped [] [])).Inv := by
  have hok := hinv.pc c
  rw [hpc] at hok
  obtain ⟨⟨o, ho, hs⟩, hjust⟩ := hok
  refine hinv.move ho (hs ▸ .drop c) rfl rfl (fun d _ hd => hd) ?_ ?_ ?_ ?_ ?_ (hinv.start c) ?_
    (by simp) ?_
  · rintro d hd
    simpa [hs, owner] using hd.symm
  · rintro w ⟨⟩
  · simp [hs]
  · simp [hpc]
  · rintro d ⟨⟩
  · exact (hjust.mono le_rfl (List.prefix_append _ _) (List.prefix_append _ _).length_le).setPc _
  · rw [List.append_nil]
    exact attributed_none (hinv.changesBy_eq_nil (by rw [hpc]; rfl))
      (.inr (decide_eq_false e.code_neg.ne))

theorem inv_lookupObject (hinv : s.Inv) {key : κ} {cur : Option ℕ}
    (hpc : (s.calls c).pc = .entered) (hkind : (s.calls c).kind = .unregister)
    (hfound : s.store.Finds (·.key = key) cur) : (s.lookupObject c key cur).Inv := by
  have hnone := hinv.changesBy_eq_nil (c := c) (by rw [hpc]; rfl)
  cases cur with
  | none =>
    have habs : ¬ Present s.store.history key := by simp [present_of_finds hinv.store hfound]
    exact hinv.keep rfl rfl (fun d _ hd => hd) (by simp [hpc]) (hinv.start c)
      (justified_enokey rfl (sometime_now (hinv.start c) habs))
      (attributed_none hnone (.inr (decide_eq_false enokey.code_neg.ne)))
  | some i =>
    obtain ⟨o, ho, hs, rfl⟩ := linkedAt_of_finds hfound
    refine hinv.keep rfl rfl (fun d _ hd => Finset.mem_insert_of_mem hd) (by simp [hpc])
      (hinv.start c) ?_ (attributed_none hnone (.inr rfl))
    exact ⟨hkind, Finset.mem_insert_self c _, o, ho, rfl, .inl hs⟩

/-- A call that finds no object at its address finds the key gone since its lookup. -/
theorem inv_missObject (hinv : s.Inv) (hpc : (s.calls c).pc = .found i)
    (hfound : s.store.Finds (fun o => some o.addr = s.addrOf i) none) : (s.missObject c).Inv := by
  have hnone := hinv.changesBy_eq_nil (c := c) (by rw [hpc]; rfl)
  have hok := hinv.pc c
  rw [hpc] at hok
  obtain ⟨-, -, o, ho, hkey, hor⟩ := hok
  refine hinv.keep rfl rfl (fun d hd hmem => Finset.mem_erase.mpr ⟨hd, hmem⟩) (by simp [hpc])
    (hinv.start c) ?_ (attributed_none hnone (.inr (decide_eq_false enokey.code_neg.ne)))
  rcases hor with hs | hor
  · exact absurd (by simp [addrOf, ho]) (hfound o (List.mem_of_getElem? ho) hs)
  · exact justified_enokey hkey hor.2

/-- The address that a call looked up still belongs to the same object. -/
theorem eq_of_finds_addr (hinv : s.Inv) {j : ℕ} (hpc : (s.calls c).pc = .found i)
    (hfound : s.store.Finds (fun o => some o.addr = s.addrOf i) (some j)) : j = i := by
  have hok := hinv.pc c
  rw [hpc] at hok
  obtain ⟨-, -, o, ho, -, hor⟩ := hok
  obtain ⟨a, ha, hs, haddr⟩ := linkedAt_of_finds hfound
  rw [addrOf, ho] at haddr
  refine hinv.store.addrs j i a o ha ho (by rw [hs]; rfl) ?_ (Option.some.inj haddr)
  rcases hor with hs | ⟨hheld, -⟩
  · rw [hs]
    rfl
  · generalize o.stage = stage at hheld
    cases stage <;> first | rfl | exact hheld.elim

theorem inv_removeObject (hinv : s.Inv) {j : ℕ} {o : TableObject κ}
    (hpc : (s.calls c).pc = .found i)
    (hfound : s.store.Finds (fun o => some o.addr = s.addrOf i) (some j))
    (ho : s.store.objs[j]? = some o) : (s.removeObject c j o).Inv := by
  obtain rfl := eq_of_finds_addr hinv hpc hfound
  obtain ⟨a, ha, hs, -⟩ := linkedAt_of_finds hfound
  obtain rfl : a = o := Option.some.inj (ha.symm.trans ho)
  have hok := hinv.pc c
  rw [hpc] at hok
  obtain ⟨hkind, -, b, hb, hkey, -⟩ := hok
  obtain rfl : a = b := Option.some.inj (ha.symm.trans hb)
  have hchange : (s.calls c).kind.change a.key (some c, j) = .removed a.key (some c, j) := by
    rw [hkind]
    rfl
  refine hinv.move ho (hs ▸ .unlink c) rfl rfl
    (fun d hd hmem => Finset.mem_erase.mpr ⟨hd, hmem⟩) ?_ ?_ ?_ ?_ ?_ (hinv.start c) ?_ ?_ ?_
  · simp [hs, owner]
  · rintro w ⟨⟩
  · simp [hs]
  · simp [hpc]
  · rintro d ⟨⟩
    exact ⟨rfl, rfl⟩
  · refine ⟨⟨_, (ObjectStore.getElem?_move ho j).trans (if_pos rfl), rfl⟩, ?_⟩
    have hdone := justified_done (c := c) (i := j) hkey (hinv.start c)
    rw [hchange] at hdone
    exact hdone.setPc _
  · rintro d hd change hmem
    obtain rfl := List.mem_singleton.mp hmem
    simpa [doer] using hd.symm
  · have hnone := hinv.changesBy_eq_nil (c := c) (by rw [hpc]; rfl)
    rw [← hchange]
    exact attributed_one j (.cleaning j) hnone hkey rfl

theorem inv_freeFn (hinv : s.Inv) (hpc : (s.calls c).pc = .cleaning i) :
    ((s.setPc c (.leaving 0)).setStore
      (s.store.move i (.retired s.sections) [i] [])).Inv := by
  have hok := hinv.pc c
  rw [hpc] at hok
  obtain ⟨⟨o, ho, hs⟩, hjust⟩ := hok
  refine hinv.move ho (hs ▸ .retire c _) rfl rfl (fun d _ hd => hd) ?_ ?_ ?_ ?_ ?_
    (hinv.start c) ?_ (by simp) ?_
  · rintro d hd
    simpa [hs, owner] using hd.symm
  · rintro w ⟨⟩
    rfl
  · simp [hs]
  · rintro j hj
    simpa [hpc] using hj.symm
  · rintro d ⟨⟩
  · exact (hjust.mono le_rfl (List.prefix_append _ _) (List.prefix_append _ _).length_le).setPc _
  · rw [List.append_nil]
    exact (hinv.attributed c).setPc (by rw [hpc]; rfl)

theorem inv_leave (hinv : s.Inv) (hpc : (s.calls c).pc = .leaving ret)
    (readers : Finset ℕ) :
    { s.setPc c (.returned ret s.store.history.length) with readers := readers }.Inv := by
  have hok := hinv.pc c
  rw [hpc] at hok
  exact hinv.keep rfl rfl (fun d _ hd => hd) (by simp [hpc]) (hinv.start c)
    ⟨le_rfl, Justified.setPc hok _⟩ ((hinv.attributed c).setPc (by rw [hpc]; rfl))

theorem inv_reclaim (hinv : s.Inv) {o : TableObject κ} {sections : Finset ℕ}
    (ho : s.store.objs[i]? = some o) (hs : o.stage = .retired sections)
    (hw : Disjoint sections s.sections) : (s.setStore (s.store.move i .freed [] [])).Inv := by
  refine hinv.move_alone ho (hs ▸ .free sections) rfl rfl rfl ?_ ?_ ?_ ?_ (by simp)
  · simp [hs, owner]
  · rintro w ⟨⟩
  · rintro w hw'
    obtain rfl : sections = w := by simpa [hs] using hw'
    exact hw
  · rintro d ⟨⟩

theorem inv_destroyObject (hinv : s.Inv) {o : TableObject κ}
    (ho : s.store.objs[i]? = some o) (hs : o.stage = .linked) :
    (s.setStore (s.store.move i (.retired s.sections) [i] [.removed o.key (none, i)])).Inv := by
  refine hinv.move_alone ho (hs ▸ .destroy _) rfl rfl rfl ?_ ?_ ?_ ?_ (by simp [doer])
  · simp [hs, owner]
  · rintro w ⟨⟩
    rfl
  · simp [hs]
  · rintro d ⟨⟩

/-- Every step keeps the invariant. -/
theorem inv_step {a : RegingStep κ} (hinv : s.Inv) (h : s.step a = some s') : s'.Inv := by
  cases a with
  | enter c kind =>
    simp only [step, Option.ite_none_right_eq_some, Option.some.injEq] at h
    obtain ⟨hpc, rfl⟩ := h
    exact inv_enter hinv kind hpc.1
  | fail c ret =>
    simp only [step, Option.ite_none_right_eq_some, Option.some.injEq] at h
    obtain ⟨hpc, rfl⟩ := h
    exact inv_fail hinv hpc ret
  | prepare c key addr =>
    simp only [step, Option.ite_none_right_eq_some, Option.some.injEq] at h
    obtain ⟨⟨hpc, hkind, hfresh⟩, rfl⟩ := h
    exact inv_prepare hinv hpc hkind hfresh
  | insertFails c =>
    simp only [step] at h
    split at h
    · rename_i hpc
      cases h
      exact inv_refuse hinv hpc justified_efault
    · cases h
  | insert c old =>
    simp only [step] at h
    split at h
    · rename_i hpc hkey
      simp only [Option.ite_none_right_eq_some, Option.some.injEq] at h
      obtain ⟨hfound, rfl⟩ := h
      exact inv_insertObject hinv hpc hkey hfound
    · cases h
  | discard c =>
    simp only [step] at h
    split at h
    · rename_i hpc
      cases h
      exact inv_discard hinv hpc
    · cases h
  | lookup c key cur =>
    simp only [step, Option.ite_none_right_eq_some, Option.some.injEq] at h
    obtain ⟨⟨hpc, hkind, hfound⟩, rfl⟩ := h
    exact inv_lookupObject hinv hpc hkind hfound
  | removeFast c cur =>
    simp only [step] at h
    split at h
    · rename_i hpc
      simp only [Option.ite_none_right_eq_some] at h
      obtain ⟨hfound, h⟩ := h
      cases cur with
      | none =>
        cases h
        exact inv_missObject hinv hpc hfound
      | some j =>
        simp only [Option.map_eq_some_iff] at h
        obtain ⟨o, ho, rfl⟩ := h
        exact inv_removeObject hinv hpc hfound ho
    · cases h
  | freeFn c =>
    simp only [step] at h
    split at h
    · rename_i hpc
      cases h
      exact inv_freeFn hinv hpc
    · cases h
  | leave c =>
    simp only [step] at h
    split at h
    · rename_i hpc
      cases h
      exact inv_leave hinv hpc _
    · cases h
  | reclaim i =>
    simp only [step] at h
    split at h
    · rename_i ho
      simp only [Option.ite_none_right_eq_some, Option.some.injEq] at h
      obtain ⟨hw, rfl⟩ := h
      exact inv_reclaim hinv ho rfl hw
    · cases h
  | destroyBegin =>
    simp only [step, Option.ite_none_right_eq_some, Option.some.injEq] at h
    obtain ⟨-, rfl⟩ := h
    exact hinv.keep_alone rfl rfl rfl
  | destroyObject i =>
    simp only [step] at h
    split at h
    · rename_i ho
      simp only [Option.ite_none_right_eq_some, Option.some.injEq] at h
      obtain ⟨⟨-, hs⟩, rfl⟩ := h
      exact inv_destroyObject hinv ho hs
    · cases h
  | destroyEnd =>
    simp only [step, Option.ite_none_right_eq_some, Option.some.injEq] at h
    obtain ⟨-, rfl⟩ := h
    exact hinv.keep_alone rfl rfl rfl

end Steps

theorem inv_initial : (initial : ConcurrentRegistry κ).Inv where
  store := ObjectStore.ok_empty
  start _ := le_rfl
  pc _ := trivial
  unlinked i c o ho := by simp [initial] at ho
  attributed _ := attributed_none rfl (.inl rfl)

/-- The invariant says that the calls are linearized. -/
theorem Inv.linearized (hinv : s.Inv) : Linearized s where
  unique := hinv.store.unique
  present := hinv.store.present
  alternates := hinv.store.alternates
  cleaned i := by
    obtain ⟨-, hremoved, hcleaned⟩ := hinv.store.counted i
    rw [hremoved, hcleaned]
    refine ⟨Bool.toNat_le _, ?_⟩
    rcases ho : s.store.objs[i]? with - | o
    · simp [ObjectStore.stageAt, ho]
    · simp only [ObjectStore.stageAt_eq ho]
      rcases hs : o.stage with c | c | - | - | c | w | - <;>
        simp [Stage.gone, Stage.cleaned]
      exact ⟨c, hinv.unlinked i c o ho hs⟩
  rejected i hi := by
    rcases ho : s.store.objs[i]? with - | o
    · simp [ObjectStore.stageAt, ho] at hi
    · rw [ObjectStore.stageAt_eq ho] at hi
      rw [(hinv.store.counted i).inserted, ObjectStore.stageAt_eq ho]
      simp only [ObjectStore.linkedAt_iff ho]
      cases hs : o.stage <;> simp_all [Stage.rejected, Stage.published]
  attributed := hinv.attributed
  returned c ret finish hpc := by
    have hok := hinv.pc c
    rwa [hpc] at hok

end ConcurrentRegistry

/-- In every interleaving of registrations, unregistrations and the destruction of the
tables the calls are linearized. -/
theorem reachable_linearized {κ : Type*} [DecidableEq κ] {s : ConcurrentRegistry κ}
    (h : (ConcurrentRegistry.machine κ).Reachable s) : Linearized s := by
  have hinv : s.Inv := h.invariant (P := ConcurrentRegistry.Inv)
    (fun s hs => hs ▸ ConcurrentRegistry.inv_initial)
    fun _ _ _ hi _ hstep => ConcurrentRegistry.inv_step hi hstep
  exact hinv.linearized

/-- Two calls look the same object up; one of them removes it and the key is registered
again before the other comes to its removal. -/
def reregistered : List (RegingStep (CStr ⊕ UInt32)) :=
  [.enter 0 .register, .prepare 0 (.inr 8) 100, .insert 0 none, .leave 0,
    .enter 1 .unregister, .lookup 1 (.inr 8) (some 0),
    .enter 2 .unregister, .lookup 2 (.inr 8) (some 0), .removeFast 2 (some 0), .freeFn 2, .leave 2,
    .enter 3 .register, .prepare 3 (.inr 8) 200, .insert 3 none, .leave 3,
    .removeFast 1 none, .leave 1]

def reregisteredEnd : ConcurrentRegistry (CStr ⊕ UInt32) :=
  ((ConcurrentRegistry.machine _).run ConcurrentRegistry.initial reregistered).getD
    ConcurrentRegistry.initial

theorem reachable_linearized_reregistered :
    (reregisteredEnd.calls 1).pc = .returned enokey.code 3 ∧ Linearized reregisteredEnd := by
  refine ⟨by decide +kernel, reachable_linearized ?_⟩
  exact Machine.reachable_of_run rfl reregistered
    (Machine.run_eq_getD _ _ _ (by decide +kernel))

end BlkdevSnapshot

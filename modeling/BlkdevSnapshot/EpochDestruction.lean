import BlkdevSnapshot.MountProbes
import BlkdevSnapshot.SnapshotQueue

/-!
# Every epoch is destroyed once

Mount and umount events, deactivations and queue works of any number of devices. An
event looks its object up and runs its section under `general_lock` later; in between
a deactivation may remove the object, run its own section and schedule the deferred
work, which waits for the queue of the object. Any atomic allocation may fail.
-/
namespace BlkdevSnapshot

section Parts

variable {α β : Type*} [DecidableEq β] {l : List α} {i : ℕ} {x : α}

theorem count_flatMap_set (h : l[i]? = some x) (y : α) (f : α → List β) (b : β) :
    ((l.set i y).flatMap f).count b + (f x).count b = (l.flatMap f).count b + (f y).count b := by
  induction l generalizing i with
  | nil => cases h
  | cons z l ih =>
    cases i with
    | zero =>
      obtain rfl : z = x := Option.some.inj h
      simp only [List.set_cons_zero, List.flatMap_cons, List.count_append]
      omega
    | succ i =>
      have htail := ih (i := i) h
      simp only [List.set_cons_succ, List.flatMap_cons, List.count_append]
      omega

/-- One part is replaced and both sides of a balance grow: it stays a balance exactly if
the part makes up for the growth. -/
theorem perm_flatMap_set_iff (h : l[i]? = some x) (y : α) (f : α → List β) {out total : List β}
    (hperm : (l.flatMap f ++ out).Perm total) (out' total' : List β) :
    ((l.set i y).flatMap f ++ (out ++ out')).Perm (total ++ total') ↔
      (f y ++ out').Perm (f x ++ total') := by
  simp only [List.perm_iff_count, List.count_append] at hperm ⊢
  constructor
  · intro hset b
    have := hset b
    have := hperm b
    have := count_flatMap_set h y f b
    omega
  · intro hpart b
    have := hpart b
    have := hperm b
    have := count_flatMap_set h y f b
    omega

end Parts

/-- How far the deactivation of an object is: in its hash table, removed from it, behind
the section of `cleanup_object_data` with the epoch that it saved, with the deferred work
scheduled for that epoch, and over. -/
inductive CleanupPhase where
  | registered
  | removed
  | closed (lastEpoch : Option ℕ)
  | scheduled (lastEpoch : Option ℕ)
  | over
  deriving DecidableEq

namespace CleanupPhase

/-- In front of the section of `cleanup_object_data`. -/
def isOpen : CleanupPhase → Bool
  | registered | removed => true
  | _ => false

/-- The epoch that was saved and is still to be handed to the deferred work. -/
def saved : CleanupPhase → Option ℕ
  | closed lastEpoch => lastEpoch
  | _ => none

end CleanupPhase

/-- An object of a hash table with the cleanup works in its queue, by their epochs. -/
structure EpochObject (κ : Type*) where
  key : κ
  data : ObjectData
  wq : List ℕ
  phase : CleanupPhase

namespace EpochObject

variable {κ : Type*} (o : EpochObject κ)

/-- The epochs that the object or a work will still hand to `destroy_an_epoch`. -/
def owned : List ℕ :=
  o.wq ++ match o.phase with
    | .registered | .removed => o.data.current.toList
    | .closed lastEpoch | .scheduled lastEpoch => lastEpoch.toList
    | .over => []

/-- The section of a mount event. -/
def countMount (kzalloc : Option ℕ) (tv : ClockSec) : EpochObject κ :=
  { o with data := o.data.countMount kzalloc tv }

/-- The epoch that a mount event opens. -/
def opens (kzalloc : Option ℕ) : List ℕ := if o.data.e = none then kzalloc.toList else []

/-- The section of an umount event. -/
def countUmount (kmalloc : Bool) : EpochObject κ :=
  { o with
    data := (o.data.countUmount kmalloc).1
    wq := o.wq ++ ((o.data.countUmount kmalloc).2.map Epoch.addr).toList }

/-- The section of `cleanup_object_data`. -/
def close : EpochObject κ :=
  { o with data := (cleanupObjectData true true o.data).1, phase := .closed o.data.current }

/-- The allocations of `cleanup_object_data`. -/
def schedule (wlistnode wargs : Bool) (lastEpoch : Option ℕ) : EpochObject κ :=
  { o with phase := if wlistnode && wargs then .scheduled lastEpoch else .over }

end EpochObject

/-- An event that has looked its object up. -/
structure EventInFlight where
  mount : Bool
  obj : ℕ
  deriving DecidableEq

/-- All objects ever registered, the events in flight, and the epochs allocated and
destroyed so far. -/
structure EpochSystem (κ : Type*) where
  objects : List (EpochObject κ)
  events : List EventInFlight
  nextAddr : ℕ
  opened : List ℕ
  destroyed : List ℕ

/-- A registration, the lookup and the section of an event, the removal, the section and
the allocations of a deactivation, a cleanup work, and the deferred work. -/
inductive DestructionAct (κ : Type*) where
  | register (key : κ) (originalDevName : CStr)
  | lookup (mount : Bool) (key : κ)
  | count (j : ℕ) (kzalloc kmalloc : Bool) (tv : ClockSec)
  | remove (key : κ)
  | close (i : ℕ)
  | schedule (i : ℕ) (wlistnode wargs : Bool)
  | work (i : ℕ)
  | deferred (i : ℕ)

namespace EpochSystem

variable {κ : Type*} [DecidableEq κ] (s : EpochSystem κ)

/-- The object of a key in the hash table. -/
def find (key : κ) : Option ℕ :=
  s.objects.findIdx? fun o => decide (o.key = key ∧ o.phase = .registered)

/-- Object `i` is replaced while epochs are allocated and destroyed. -/
def put (i : ℕ) (o : EpochObject κ) (opened destroyed : List ℕ) : EpochSystem κ :=
  { s with
    objects := s.objects.set i o
    opened := s.opened ++ opened
    destroyed := s.destroyed ++ destroyed }

/-- The section of the event at place `j`. -/
def count (j : ℕ) (kzalloc kmalloc : Bool) (tv : ClockSec) : Option (EpochSystem κ) :=
  s.events[j]?.bind fun ev => s.objects[ev.obj]?.map fun o =>
    let new := if kzalloc then some s.nextAddr else none
    let counted :=
      if ev.mount then s.put ev.obj (o.countMount new tv) (o.opens new) []
      else s.put ev.obj (o.countUmount kmalloc) [] []
    { counted with events := s.events.eraseIdx j, nextAddr := s.nextAddr + 1 }

/-- The work at the head of the queue of object `i`. -/
def work (i : ℕ) : Option (EpochSystem κ) :=
  s.objects[i]?.bind fun o =>
    match o.wq with
    | [] => none
    | addr :: wq => some (s.put i { o with wq := wq } [] [addr])

/-- The deferred work of object `i`, which waits for its queue. -/
def deferred (i : ℕ) : Option (EpochSystem κ) :=
  s.objects[i]?.bind fun o =>
    match o.phase, o.wq with
    | .scheduled lastEpoch, [] => some (s.put i { o with phase := .over } [] lastEpoch.toList)
    | _, _ => none

end EpochSystem

/-- All interleavings. -/
def destructionMachine (κ : Type*) [DecidableEq κ] :
    Machine (EpochSystem κ) (DestructionAct κ) where
  init s := s = ⟨[], [], 0, [], []⟩
  step
    | s, .register key originalDevName =>
      if s.find key = none then
        some { s with
          objects := s.objects ++ [⟨key, initObjectData originalDevName, [], .registered⟩] }
      else none
    | s, .lookup mount key =>
      match s.find key with
      | none => some s
      | some i => some { s with events := s.events ++ [⟨mount, i⟩] }
    | s, .count j kzalloc kmalloc tv => s.count j kzalloc kmalloc tv
    | s, .remove key => (s.find key).bind fun i => s.objects[i]?.map fun o =>
        s.put i { o with phase := .removed } [] []
    | s, .close i => s.objects[i]?.bind fun o =>
        if o.phase = .removed then some (s.put i o.close [] []) else none
    | s, .schedule i wlistnode wargs => s.objects[i]?.bind fun o =>
        match o.phase with
        | .closed lastEpoch => some (s.put i (o.schedule wlistnode wargs lastEpoch) [] [])
        | _ => none
    | s, .work i => s.work i
    | s, .deferred i => s.deferred i

namespace EpochSystem

variable {κ : Type*} [DecidableEq κ]

/-- Every epoch that was ever allocated is either destroyed, once, or owned by exactly one
object or work that will still destroy it. -/
structure ExactlyOnce (s : EpochSystem κ) : Prop where
  nodup : s.opened.Nodup
  balance : (s.objects.flatMap EpochObject.owned ++ s.destroyed).Perm s.opened

/-- No mount event opens an epoch in an object behind the section of its cleanup, and an
allocation that takes an epoch over succeeds: the one of the umount event of the last
mount, and those of a cleanup that has saved an epoch. -/
def HandsOver (s : EpochSystem κ) : DestructionAct κ → Prop
  | .count j kzalloc kmalloc _ => ∀ ev ∈ s.events[j]?, ∀ o ∈ s.objects[ev.obj]?,
      if ev.mount then o.phase.isOpen = false → kzalloc = false
      else o.data.counter = 1 → kmalloc = true
  | .schedule i wlistnode wargs => ∀ o ∈ s.objects[i]?,
      o.phase.saved ≠ none → wlistnode = true ∧ wargs = true
  | _ => True

instance (s : EpochSystem κ) (a : DestructionAct κ) : Decidable (s.HandsOver a) := by
  cases a <;> unfold HandsOver <;> infer_instance

/-- The invariant of guarded runs. -/
structure Inv (s : EpochSystem κ) : Prop where
  once : s.ExactlyOnce
  fresh : ∀ addr ∈ s.opened, addr < s.nextAddr
  active : ∀ o ∈ s.objects, o.phase.isOpen = true → o.data.Active
  empty : ∀ o ∈ s.objects, o.phase.isOpen = false → o.data.e = none

end EpochSystem

namespace EpochObject

variable {κ : Type*} {o : EpochObject κ}

theorem owned_of_isOpen (h : o.phase.isOpen = true) : o.owned = o.wq ++ o.data.current.toList := by
  unfold owned
  cases hp : o.phase with
  | registered | removed => rfl
  | _ => simp [hp, CleanupPhase.isOpen] at h

/-- A mount event in a live object makes the epoch that it opens one of its own. -/
theorem owned_countMount (h : o.phase.isOpen = true) (new : Option ℕ) (tv : ClockSec) :
    (o.countMount new tv).owned = o.owned ++ o.opens new := by
  have hcurrent : (o.countMount new tv).data.current.toList =
      o.data.current.toList ++ o.opens new := by
    simp only [countMount, ObjectData.current_countMount, opens]
    cases hcur : o.data.current with
    | none => simp [ObjectData.current_eq_none_iff.mp hcur]
    | some addr =>
      have hsome : o.data.e ≠ none := fun he => by simp [ObjectData.current, he] at hcur
      simp [hsome]
  rw [owned_of_isOpen h, owned_of_isOpen (o := o.countMount new tv) h, hcurrent, List.append_assoc]
  rfl

/-- In a dead object nobody owns it. -/
theorem owned_countMount_dead (h : o.phase.isOpen = false) (new : Option ℕ) (tv : ClockSec) :
    (o.countMount new tv).owned = o.owned := by
  unfold owned countMount
  cases hp : o.phase with
  | registered | removed => simp [hp, CleanupPhase.isOpen] at h
  | _ => rfl

/-- An umount event hands the epoch that it ends to a work, when that finds memory. -/
theorem owned_countUmount (hopen : o.phase.isOpen = true) (hactive : o.data.Active) {kmalloc : Bool}
    (h : o.data.counter = 1 → kmalloc = true) : (o.countUmount kmalloc).owned = o.owned := by
  rw [owned_of_isOpen hopen, owned_of_isOpen (o := o.countUmount kmalloc) hopen]
  simp only [countUmount]
  by_cases hone : o.data.counter = 1
  · obtain rfl := h hone
    obtain ⟨addr, haddr, hnone, hended⟩ := hactive.countUmount_ends hone true
    simp [haddr, hnone, hended]
  · obtain ⟨hsame, hnone⟩ := hactive.countUmount_stays hone kmalloc
    simp [hsame, hnone]

/-- Without memory the epoch is lost. -/
theorem owned_countUmount_lost (hopen : o.phase.isOpen = true) (hactive : o.data.Active)
    (h : o.data.counter = 1) : (o.countUmount false).owned.length + 1 = o.owned.length := by
  rw [owned_of_isOpen hopen, owned_of_isOpen (o := o.countUmount false) hopen]
  obtain ⟨addr, haddr, hnone, hended⟩ := hactive.countUmount_ends h false
  simp only [Bool.false_eq_true, if_false, Option.map_eq_none_iff] at hended
  simp [countUmount, haddr, hnone, hended]

theorem countUmount_of_empty (h : o.data.e = none) (kmalloc : Bool) :
    o.countUmount kmalloc = o := by
  simp [countUmount, ObjectData.countUmount_of_none h]

theorem owned_close (h : o.phase = .removed) : o.close.owned = o.owned := by
  simp [owned, close, h]

theorem owned_schedule {lastEpoch : Option ℕ} (h : o.phase = .closed lastEpoch)
    {wlistnode wargs : Bool}
    (hmem : lastEpoch ≠ none → wlistnode = true ∧ wargs = true) :
    (o.schedule wlistnode wargs lastEpoch).owned = o.owned := by
  cases lastEpoch with
  | none => cases hm : wlistnode && wargs <;> simp [owned, schedule, h, hm]
  | some addr => simp [owned, schedule, h, hmem]

/-- Without memory the saved epoch is lost. -/
theorem owned_schedule_lost {addr : ℕ} (h : o.phase = .closed (some addr)) {wlistnode wargs : Bool}
    (hmem : ¬ (wlistnode = true ∧ wargs = true)) :
    (o.schedule wlistnode wargs (some addr)).owned.length + 1 = o.owned.length := by
  have hfalse : (wlistnode && wargs) = false := by simpa using hmem
  simp [owned, schedule, h, hfalse]

end EpochObject

namespace EpochSystem

variable {κ : Type*} {s s' : EpochSystem κ} {i : ℕ} {o o' : EpochObject κ}

/-- The effect of a step on the balance is the one on its object. -/
theorem ExactlyOnce.put_iff (h : s.ExactlyOnce) (ho : s.objects[i]? = some o)
    (o' : EpochObject κ) (opened destroyed : List ℕ) (hnodup : (s.opened ++ opened).Nodup) :
    (s.put i o' opened destroyed).ExactlyOnce ↔ (o'.owned ++ destroyed).Perm (o.owned ++ opened) :=
  ⟨fun hput => (perm_flatMap_set_iff ho o' _ h.balance destroyed opened).mp hput.balance,
    fun hpart => ⟨hnodup, (perm_flatMap_set_iff ho o' _ h.balance destroyed opened).mpr hpart⟩⟩

/-- The number of epochs of an object tells when one is lost. -/
theorem ExactlyOnce.not_put (h : s.ExactlyOnce) (ho : s.objects[i]? = some o)
    (o' : EpochObject κ) {opened destroyed : List ℕ}
    (hlen : (o'.owned ++ destroyed).length < (o.owned ++ opened).length) :
    ¬ (s.put i o' opened destroyed).ExactlyOnce := fun hput =>
  hlen.ne ((perm_flatMap_set_iff ho o' _ h.balance destroyed opened).mp hput.balance).length_eq

/-- A step of object `i` that allocates nothing. -/
theorem Inv.put (h : s.Inv) (ho : s.objects[i]? = some o) {destroyed : List ℕ}
    (hperm : (o'.owned ++ destroyed).Perm o.owned)
    (hactive : o'.phase.isOpen = true → o'.data.Active)
    (hempty : o'.phase.isOpen = false → o'.data.e = none) : (s.put i o' [] destroyed).Inv where
  once := (h.once.put_iff ho o' [] destroyed (by simpa using h.once.nodup)).mpr
    (by simpa using hperm)
  fresh := by simpa [EpochSystem.put] using h.fresh
  active o'' ho'' hopen := by
    rcases List.mem_or_eq_of_mem_set ho'' with hold | rfl
    · exact h.active o'' hold hopen
    · exact hactive hopen
  empty o'' ho'' hopen := by
    rcases List.mem_or_eq_of_mem_set ho'' with hold | rfl
    · exact h.empty o'' hold hopen
    · exact hempty hopen

/-- The section of a mount event in a live object. -/
theorem Inv.putMount (h : s.Inv) (ho : s.objects[i]? = some o) (hopen : o.phase.isOpen = true)
    {new : Option ℕ} (hnew : ∀ addr ∈ new, addr = s.nextAddr) (tv : ClockSec) :
    Inv { s.put i (o.countMount new tv) (o.opens new) [] with nextAddr := s.nextAddr + 1 } := by
  have hmem : ∀ addr ∈ o.opens new, addr = s.nextAddr := by
    intro addr haddr
    unfold EpochObject.opens at haddr
    split at haddr
    · exact hnew addr (by simpa using haddr)
    · cases haddr
  have hopens : (o.opens new).Nodup := by
    unfold EpochObject.opens
    split
    · cases new <;> simp
    · exact List.nodup_nil
  have hnodup : (s.opened ++ o.opens new).Nodup := by
    refine List.nodup_append.mpr ⟨h.once.nodup, hopens, ?_⟩
    rintro addr haddr _ haddr' rfl
    exact absurd (hmem addr haddr') (h.fresh addr haddr).ne
  have honce := (h.once.put_iff ho (o.countMount new tv) (o.opens new) [] hnodup).mpr
    (by rw [EpochObject.owned_countMount hopen, List.append_nil])
  refine ⟨⟨honce.nodup, honce.balance⟩, fun addr haddr => ?_, fun o'' ho'' hopen' => ?_,
    fun o'' ho'' hopen' => ?_⟩
  · rcases List.mem_append.mp haddr with hold | hnew'
    · exact (h.fresh addr hold).trans (Nat.lt_succ_self _)
    · rw [hmem addr hnew']
      exact Nat.lt_succ_self _
  · rcases List.mem_or_eq_of_mem_set ho'' with hold | rfl
    · exact h.active o'' hold hopen'
    · exact (h.active o (List.mem_of_getElem? ho) hopen).countMount new tv
  · rcases List.mem_or_eq_of_mem_set ho'' with hold | rfl
    · exact h.empty o'' hold hopen'
    · exact absurd hopen (by simpa [EpochObject.countMount] using hopen')

/-- Events and addresses do not matter for what is owned. -/
theorem Inv.congr (h : s.Inv) (events : List EventInFlight) {n : ℕ} (hn : s.nextAddr ≤ n) :
    Inv { s with events := events, nextAddr := n } where
  once := ⟨h.once.nodup, h.once.balance⟩
  fresh addr haddr := (h.fresh addr haddr).trans_le hn
  active := h.active
  empty := h.empty

/-- The section of an event whose allocation succeeds where it has to. -/
theorem Inv.count (h : s.Inv) {j : ℕ} {kzalloc kmalloc : Bool} {tv : ClockSec}
    (hact : s.HandsOver (.count j kzalloc kmalloc tv))
    (hstep : s.count j kzalloc kmalloc tv = some s') :
    s'.Inv := by
  simp only [EpochSystem.count, Option.bind_eq_some_iff, Option.map_eq_some_iff] at hstep
  obtain ⟨ev, hev, o, ho, rfl⟩ := hstep
  have hmem := List.mem_of_getElem? ho
  have hguard := hact ev hev o ho
  by_cases hmount : ev.mount = true
  · simp only [hmount, if_true] at hguard ⊢
    by_cases hopen : o.phase.isOpen = true
    · have hnew : ∀ addr ∈ (if kzalloc then some s.nextAddr else none), addr = s.nextAddr := by
        intro addr haddr
        split at haddr
        · exact (Option.some.inj haddr).symm
        · cases haddr
      exact (h.putMount ho hopen hnew tv).congr _ le_rfl
    · have hdead : o.phase.isOpen = false := by simpa using hopen
      have he := h.empty o hmem hdead
      rw [hguard hdead]
      have hopens : o.opens none = [] := by simp [EpochObject.opens]
      simp only [Bool.false_eq_true, if_false, hopens]
      have hput : (s.put ev.obj (o.countMount none tv) [] []).Inv := by
        refine h.put ho ?_ (fun hopen' => absurd hopen' hopen) fun _ => ?_
        · rw [EpochObject.owned_countMount_dead hdead, List.append_nil]
        · simp [EpochObject.countMount, ObjectData.countMount_of_none he]
      exact hput.congr _ (Nat.le_succ _)
  · simp only [hmount, if_false, Bool.false_eq_true] at hguard ⊢
    by_cases hopen : o.phase.isOpen = true
    · have hactive := h.active o hmem hopen
      refine (h.put ho ?_ (fun _ => hactive.countUmount kmalloc) fun hdead => ?_).congr _
        (Nat.le_succ _)
      · rw [EpochObject.owned_countUmount hopen hactive hguard, List.append_nil]
      · exact absurd hopen (by simpa [EpochObject.countUmount] using hdead)
    · have he := h.empty o hmem (by simpa using hopen)
      rw [EpochObject.countUmount_of_empty he]
      refine (h.put ho ?_ (fun hopen' => absurd hopen' hopen) fun _ => he).congr _ (Nat.le_succ _)
      rw [List.append_nil]

theorem Inv.work (h : s.Inv) (hstep : s.work i = some s') : s'.Inv := by
  simp only [EpochSystem.work, Option.bind_eq_some_iff] at hstep
  obtain ⟨o, ho, hstep⟩ := hstep
  have hmem := List.mem_of_getElem? ho
  split at hstep
  · cases hstep
  · rename_i addr wq hwq
    cases hstep
    refine h.put ho ?_ (h.active o hmem) (h.empty o hmem)
    simp only [EpochObject.owned, hwq, List.cons_append]
    exact List.perm_append_singleton addr _

theorem Inv.deferred (h : s.Inv) (hstep : s.deferred i = some s') : s'.Inv := by
  simp only [EpochSystem.deferred, Option.bind_eq_some_iff] at hstep
  obtain ⟨o, ho, hstep⟩ := hstep
  split at hstep
  · rename_i lastEpoch hphase hwq
    cases hstep
    refine h.put ho ?_ nofun fun _ => ?_
    · simp [EpochObject.owned, hphase, hwq]
    · exact h.empty o (List.mem_of_getElem? ho) (by simp [hphase, CleanupPhase.isOpen])
  · cases hstep

section Keys

variable [DecidableEq κ]

theorem find_registered {key : κ} (h : s.find key = some i) (ho : s.objects[i]? = some o) :
    o.phase = .registered := by
  obtain ⟨hi, hp, -⟩ := List.findIdx?_eq_some_iff_getElem.mp h
  obtain ⟨_, rfl⟩ := List.getElem?_eq_some_iff.mp ho
  exact (of_decide_eq_true hp).2

theorem Inv.next (h : s.Inv) {a : DestructionAct κ} (hact : s.HandsOver a)
    (hstep : (destructionMachine κ).step s a = some s') : s'.Inv := by
  cases a with
  | register key originalDevName =>
    simp only [destructionMachine] at hstep
    split at hstep
    · cases hstep
      refine ⟨⟨h.once.nodup, ?_⟩, h.fresh, fun o ho hopen => ?_, fun o ho hopen => ?_⟩
      · simpa [EpochObject.owned, ObjectData.current, initObjectData] using h.once.balance
      · rcases List.mem_append.mp ho with hold | hnew
        · exact h.active o hold hopen
        · rw [List.mem_singleton.mp hnew]
          exact ObjectData.initObjectData_active originalDevName
      · rcases List.mem_append.mp ho with hold | hnew
        · exact h.empty o hold hopen
        · rw [List.mem_singleton.mp hnew]
          rfl
    · cases hstep
  | lookup mount key =>
    simp only [destructionMachine] at hstep
    split at hstep
    · cases hstep
      exact h
    · cases hstep
      exact h.congr _ le_rfl
  | count j kzalloc kmalloc tv => exact h.count hact hstep
  | remove key =>
    simp only [destructionMachine, Option.bind_eq_some_iff, Option.map_eq_some_iff] at hstep
    obtain ⟨i, hi, o, ho, rfl⟩ := hstep
    have hphase := find_registered hi ho
    refine h.put ho ?_ (fun _ => h.active o (List.mem_of_getElem? ho) (by rw [hphase]; rfl))
      fun hopen => Bool.noConfusion hopen
    simp [EpochObject.owned, hphase]
  | close i =>
    simp only [destructionMachine, Option.bind_eq_some_iff] at hstep
    obtain ⟨o, ho, hstep⟩ := hstep
    split at hstep
    · rename_i hphase
      cases hstep
      refine h.put ho ?_ (fun hopen => Bool.noConfusion hopen) fun _ => rfl
      rw [EpochObject.owned_close hphase, List.append_nil]
    · cases hstep
  | schedule i wlistnode wargs =>
    simp only [destructionMachine, Option.bind_eq_some_iff] at hstep
    obtain ⟨o, ho, hstep⟩ := hstep
    split at hstep
    · rename_i lastEpoch hphase
      cases hstep
      have hmem : lastEpoch ≠ none → wlistnode = true ∧ wargs = true := fun hne =>
        hact o ho (by simpa [hphase, CleanupPhase.saved] using hne)
      have hover : (o.schedule wlistnode wargs lastEpoch).phase.isOpen = false := by
        unfold EpochObject.schedule
        split <;> rfl
      refine h.put ho ?_ (fun hopen => ?_) fun _ => ?_
      · rw [EpochObject.owned_schedule hphase hmem, List.append_nil]
      · simp [hover] at hopen
      · exact h.empty o (List.mem_of_getElem? ho) (by rw [hphase]; rfl)
    · cases hstep
  | work i => exact h.work hstep
  | deferred i => exact h.deferred hstep

/-- A step that does not hand an epoch over loses it. -/
theorem Inv.loses (h : s.Inv) {a : DestructionAct κ} (hact : ¬ s.HandsOver a) :
    ∃ s', (destructionMachine κ).step s a = some s' ∧ ¬ s'.ExactlyOnce := by
  cases a with
  | count j kzalloc kmalloc tv =>
    simp only [HandsOver, Option.mem_def, not_forall] at hact
    obtain ⟨ev, hev, o, ho, hact⟩ := hact
    have hmem := List.mem_of_getElem? ho
    by_cases hmount : ev.mount = true
    · simp only [hmount, if_true, Classical.not_imp, Bool.not_eq_false] at hact
      obtain ⟨hdead, rfl⟩ := hact
      have hopens : o.opens (some s.nextAddr) = [s.nextAddr] := by
        simp [EpochObject.opens, h.empty o hmem hdead]
      refine ⟨{ s.put ev.obj (o.countMount (some s.nextAddr) tv) [s.nextAddr] [] with
        events := s.events.eraseIdx j, nextAddr := s.nextAddr + 1 }, ?_, fun honce => ?_⟩
      · simp [destructionMachine, EpochSystem.count, hev, ho, hmount, hopens]
      · refine h.once.not_put ho (o.countMount (some s.nextAddr) tv) ?_ ⟨honce.nodup, honce.balance⟩
        simp [EpochObject.owned_countMount_dead hdead]
    · simp only [hmount, if_false, Bool.false_eq_true, Classical.not_imp, Bool.not_eq_true] at hact
      obtain ⟨hone, rfl⟩ := hact
      have hopen : o.phase.isOpen = true := by
        by_contra hdead
        simp [ObjectData.counter, h.empty o hmem (by simpa using hdead)] at hone
      have hlost := EpochObject.owned_countUmount_lost hopen (h.active o hmem hopen) hone
      refine ⟨{ s.put ev.obj (o.countUmount false) [] [] with
        events := s.events.eraseIdx j, nextAddr := s.nextAddr + 1 }, ?_, fun honce => ?_⟩
      · simp [destructionMachine, EpochSystem.count, hev, ho, hmount]
      · refine h.once.not_put ho (o.countUmount false) ?_ ⟨honce.nodup, honce.balance⟩
        simp only [List.append_nil]
        omega
  | schedule i wlistnode wargs =>
    simp only [HandsOver, Option.mem_def, not_forall] at hact
    obtain ⟨o, ho, hsaved, hfail⟩ := hact
    obtain ⟨addr, haddr⟩ := Option.ne_none_iff_exists'.mp hsaved
    have hphase : o.phase = .closed (some addr) := by
      unfold CleanupPhase.saved at haddr
      split at haddr
      · rename_i hp
        rw [hp, haddr]
      · cases haddr
    have hlost := EpochObject.owned_schedule_lost hphase hfail
    refine ⟨s.put i (o.schedule wlistnode wargs (some addr)) [] [], ?_, h.once.not_put ho _ ?_⟩
    · simp [destructionMachine, ho, hphase]
    · simp only [List.append_nil]
      omega
  | _ => exact absurd trivial hact

end Keys

/-- When all deactivations are over and all queues are empty, every epoch is destroyed. -/
theorem ExactlyOnce.destroyed_perm (h : s.ExactlyOnce)
    (hover : ∀ o ∈ s.objects, o.phase = .over ∧ o.wq = []) : s.destroyed.Perm s.opened := by
  have howned : s.objects.flatMap EpochObject.owned = [] := by
    refine List.flatMap_eq_nil_iff.mpr fun o ho => ?_
    simp [EpochObject.owned, hover o ho]
  simpa [howned] using h.balance

end EpochSystem

open EpochSystem

/-- Every epoch is destroyed exactly once as long as every step hands its epoch over, and
no longer. -/
theorem epochs_destroyed_once_iff {κ : Type*} [DecidableEq κ] {s : EpochSystem κ}
    (hs : (destructionMachine κ).init s) (acts : List (DestructionAct κ)) :
    (destructionMachine κ).Throughout ExactlyOnce s acts ↔
      (destructionMachine κ).Meets HandsOver s acts := by
  subst hs
  refine Machine.throughout_iff_meets (I := Inv) (fun _ h => h.once)
    (fun _ _ _ h hact hstep => h.next hact hstep) (fun _ _ h hact => h.loses hact) ?_ acts
  exact ⟨⟨List.nodup_nil, by simp⟩, nofun, nofun, nofun⟩

def noObjects : EpochSystem Mountinfo := ⟨[], [], 0, [], []⟩

/-- The device `8:1`. -/
def sda1Key : Mountinfo := .block 0x800001

/-- An activation and a mount event that opens an epoch. -/
def openEpoch : List (DestructionAct Mountinfo) :=
  [.register sda1Key "/dev/sda1".toList, .lookup true sda1Key, .count 0 true true mountTime]

/-- A deactivation overtakes an umount event; the deferred work destroys the epoch. -/
theorem epochs_destroyed_once_iff_overtaken :
    (destructionMachine Mountinfo).Throughout ExactlyOnce noObjects
      (openEpoch ++ [.lookup false sda1Key, .remove sda1Key, .close 0,
        .count 0 true true mountTime, .schedule 0 true true, .deferred 0]) :=
  (epochs_destroyed_once_iff rfl _).mpr (by decide +kernel)

/-- The last umount finds no memory for its work. -/
def lostByUmount : List (DestructionAct Mountinfo) :=
  openEpoch ++ [.lookup false sda1Key, .count 0 true false mountTime]

/-- A mount event is overtaken by a whole deactivation. -/
def lostByMount : List (DestructionAct Mountinfo) :=
  [.register sda1Key "/dev/sda1".toList, .lookup true sda1Key, .remove sda1Key, .close 0,
    .schedule 0 true true, .deferred 0, .count 0 true true mountTime]

/-- A deactivation finds no memory for its work. -/
def lostByCleanup : List (DestructionAct Mountinfo) :=
  openEpoch ++ [.remove sda1Key, .close 0, .schedule 0 true false]

/-- A run ends with an open epoch that nobody owns and nobody destroyed. -/
def LosesEpoch (acts : List (DestructionAct Mountinfo)) : Prop :=
  ∃ s, (destructionMachine Mountinfo).run noObjects acts = some s ∧ s.opened = [0] ∧
    s.objects.flatMap EpochObject.owned = [] ∧ s.destroyed = [] ∧ ¬ s.ExactlyOnce

theorem losesEpoch_of_run {acts : List (DestructionAct Mountinfo)}
    {s : EpochSystem Mountinfo}
    (hrun : (destructionMachine Mountinfo).run noObjects acts = some s) (hopened : s.opened = [0])
    (howned : s.objects.flatMap EpochObject.owned = []) (hdestroyed : s.destroyed = []) :
    LosesEpoch acts := by
  refine ⟨s, hrun, hopened, howned, hdestroyed, fun h => ?_⟩
  have hlen := h.balance.length_eq
  simp [hopened, howned, hdestroyed] at hlen

/-- Each of the three runs loses an epoch. -/
theorem not_epochs_destroyed_once :
    LosesEpoch lostByUmount ∧ LosesEpoch lostByMount ∧ LosesEpoch lostByCleanup := by
  refine ⟨?_, ?_, ?_⟩ <;>
    exact losesEpoch_of_run (Machine.run_eq_getD _ _ _ (by decide +kernel)) (by decide +kernel)
      (by decide +kernel) (by decide +kernel)

end BlkdevSnapshot

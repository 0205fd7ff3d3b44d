import BlkdevSnapshot.CapturedBlock
import BlkdevSnapshot.ChainedTable
import BlkdevSnapshot.Machine

/-!
# The nodes of all threads

Threads that start, die and are reaped, their calls of `vfs_write` with the block reads
and the `write_dirty_buffer` calls inside and outside of them, and the periodic sweep,
interleaved. Each handler is cut between its lookup and what it does with the node, and
the sweep at every node. A pair of tid and start time is used by one thread only, and a
thread is in one call of `vfs_write` at a time.
-/
namespace BlkdevSnapshot

/-- Where a thread is in a handler, with the node that it has found: before the `memcpy`
of `sb_bread_handler`, before the call of `bdsnap_make_snapshot`, before `remove_threadentry`
in front of `BUG()`, and before the one of `vfs_write_handler`. A thread that ran into
`BUG()` or through NULL is stuck. -/
inductive HandlerPc where
  | outside
  | memcpy (node : ℕ) (bh : BufferHead)
  | makeSnapshot (node : ℕ) (bdev : UInt32) (blocknr : UInt64)
  | bug (node : ℕ)
  | vfsWrite (node : ℕ)
  | stuck

namespace HandlerPc

def isOutside : HandlerPc → Bool
  | outside => true
  | _ => false

/-- About to submit a block. -/
def submits : HandlerPc → Bool
  | makeSnapshot _ _ _ => true
  | _ => false

/-- The node that was found. -/
def node : HandlerPc → Option ℕ
  | memcpy node _ | makeSnapshot node _ _ | bug node | vfsWrite node => some node
  | outside | stuck => none

end HandlerPc

/-- `struct task_struct` and what the thread does: `write` says whether it is in a
`vfs_write`, and whether that is tracked; `lastRead` is the last block that it read since
its node was inserted. -/
structure Task where
  tstart : UInt64
  exited : Bool
  write : Option Bool
  handler : HandlerPc
  lastRead : Option BufferHead

/-- The loops of a running `periodic_taskcheck_xkpblocks_ht`: the bucket, the bucket to
stop in front of, and the nodes of the bucket that are left. -/
structure Sweep where
  bktnr : ℕ
  stop : ℕ
  rest : List (Entry XkpblocksKey)

/-- A submission of a thread, with the last block that the thread had read. -/
structure ThreadSubmission where
  key : XkpblocksKey
  submission : Submission
  lastRead : Option BufferHead

/-- The block is the last one that the thread read. -/
def ThreadSubmission.Right (p : ThreadSubmission) : Prop :=
  ∃ bh, p.lastRead = some bh ∧ bh.bData = p.submission.block.1

theorem ThreadSubmission.Right.bSize {p : ThreadSubmission} (h : p.Right) :
    p.lastRead.map (fun bh => bh.bSize) = some singlefilefsBlockSize := by
  obtain ⟨bh, hbh, hdata⟩ := h
  rw [hbh]
  exact congrArg some (bh.length_eq.symm.trans (hdata ▸ p.submission.block.2))

/-- The tasks by their tids, every thread that was ever started and every one that died,
the hash table with the blocks of its nodes, the sweep, which holds the lock while it
runs, the keys of the nodes that sweeps removed, and the submissions. -/
structure CaptureState where
  pids : UInt64 → Option Task
  used : List XkpblocksKey
  died : List XkpblocksKey
  table : ChainedTable XkpblocksKey
  blocks : ℕ → CapturedBlock
  sweep : Option Sweep
  nextBktnr : ℕ
  swept : List XkpblocksKey
  submitted : List ThreadSubmission

/-- What a thread or the sweep does next. -/
inductive CaptureAct where
  | spawn (key : XkpblocksKey)
  | exit (tid : UInt64)
  | reap (tid : UInt64)
  /-- The entry of a `vfs_write`, with the content of a new node when it is tracked. -/
  | enterWrite (tid : UInt64) (node : Option CapturedBlock)
  | bread (tid : UInt64) (bh : Option BufferHead)
  | memcpy (tid : UInt64)
  | writeDirtyBuffer (tid : UInt64) (bh : BufferHead)
  | makeSnapshot (tid : UInt64)
  | returnWrite (tid : UInt64)
  | removeThreadentry (tid : UInt64)
  | sweepStart
  | sweepNode
  | sweepBucket
  | sweepEnd

/-- `HASH_SIZE(xkpblocks_ht)` -/
def xkpblocksHtSize : ℕ := 2 ^ 18

namespace CaptureState

variable (hash : XkpblocksKey → ℕ) (s : CaptureState)

/-- The living thread with a tid. -/
def thread (tid : UInt64) : Option Task := (s.pids tid).filter fun t => !t.exited

def setTask (tid : UInt64) (t : Task) : CaptureState :=
  { s with pids := Function.update s.pids tid (some t) }

/-- `__do_taskcheck_on` -/
def doTaskcheckOn (key : XkpblocksKey) : Bool :=
  match s.pids key.tid with
  | none => false
  | some p => if p.tstart ≠ key.tstart ∨ p.exited = true then false else true

/-- `vfs_write_entry_handler`, which locks the table to insert a node. -/
def enterWrite (tid : UInt64) (node : Option CapturedBlock) : Option CaptureState :=
  (s.thread tid).bind fun t =>
    if t.write.isNone && t.handler.isOutside then
      match node with
      | none => some (s.setTask tid { t with write := some false })
      | some block =>
        if s.sweep.isSome then none
        else some { s.setTask tid { t with write := some true, lastRead := none } with
          table := s.table.insert hash ⟨tid, t.tstart⟩
          blocks := Function.update s.blocks s.table.nextAddr block }
    else none

/-- The return of `__bread_gfp` and the lookup of `sb_bread_handler`. -/
def bread (tid : UInt64) (bh : Option BufferHead) : Option CaptureState :=
  (s.thread tid).bind fun t =>
    if t.handler.isOutside then
      match s.table.find hash ⟨tid, t.tstart⟩, bh with
      | none, none => some s
      | none, some bh => some (s.setTask tid { t with lastRead := some bh })
      | some _, none => some (s.setTask tid { t with handler := .stuck })
      | some node, some bh =>
        some (s.setTask tid { t with lastRead := some bh, handler := .memcpy node.addr bh })
    else none

/-- The `memcpy` of `sb_bread_handler`. -/
def memcpy (tid : UInt64) : Option CaptureState :=
  (s.thread tid).bind fun t =>
    match t.handler with
    | .memcpy node bh => some { s.setTask tid { t with handler := .outside } with
        blocks := Function.update s.blocks node ((s.blocks node).memcpy bh) }
    | _ => none

/-- The lookup and the tests of `write_dirty_buffer_pre_handler`. -/
def writeDirtyBuffer (tid : UInt64) (bh : BufferHead) : Option CaptureState :=
  (s.thread tid).bind fun t =>
    if t.handler.isOutside then
      match s.table.find hash ⟨tid, t.tstart⟩ with
      | none => some s
      | some node =>
        match writeDirtyBufferPreHandler (s.blocks node.addr) bh with
        | .nothing => some s
        | .bug => some (s.setTask tid { t with handler := .bug node.addr })
        | .submit p =>
          some (s.setTask tid { t with handler := .makeSnapshot node.addr p.bdev p.blocknr })
    else none

/-- The call of `bdsnap_make_snapshot`. -/
def makeSnapshot (tid : UInt64) : Option CaptureState :=
  (s.thread tid).bind fun t =>
    match t.handler with
    | .makeSnapshot node bdev blocknr => some { s.setTask tid { t with handler := .outside } with
        submitted := s.submitted ++
          [⟨⟨tid, t.tstart⟩, ⟨bdev, blocknr, s.blocks node⟩, t.lastRead⟩] }
    | _ => none

/-- The return of a `vfs_write` and, when it is tracked, the lookup of `vfs_write_handler`. -/
def returnWrite (tid : UInt64) : Option CaptureState :=
  (s.thread tid).bind fun t =>
    if t.handler.isOutside then
      match t.write with
      | none => none
      | some false => some (s.setTask tid { t with write := none })
      | some true =>
        match s.table.find hash ⟨tid, t.tstart⟩ with
        | none => some (s.setTask tid { t with write := none })
        | some node => some (s.setTask tid { t with handler := .vfsWrite node.addr })
    else none

/-- `remove_threadentry`, which locks the table. -/
def removeThreadentry (tid : UInt64) : Option CaptureState :=
  (s.thread tid).bind fun t =>
    if s.sweep.isSome then none
    else
      match t.handler with
      | .vfsWrite node => some { s.setTask tid { t with write := none, handler := .outside } with
          table := s.table.unlink node }
      | .bug node => some { s.setTask tid { t with write := some false, handler := .stuck } with
          table := s.table.unlink node }
      | _ => none

/-- `periodic_taskcheck_xkpblocks_ht` up to its loops. -/
def sweepStart : Option CaptureState :=
  if s.sweep.isSome then none
  else
    let stop := min (s.nextBktnr + 50) xkpblocksHtSize
    some { s with sweep := some ⟨s.nextBktnr, stop,
      if s.nextBktnr < stop then s.table.chains s.nextBktnr else []⟩ }

/-- One round of the inner loop. -/
def sweepNode : Option CaptureState :=
  s.sweep.bind fun sw =>
    match sw.rest with
    | [] => none
    | cur :: rest =>
      if s.doTaskcheckOn cur.key then some { s with sweep := some { sw with rest := rest } }
      else some { s with
        sweep := some { sw with rest := rest }
        table := s.table.unlink cur.addr
        swept := s.swept ++ [cur.key] }

/-- The next round of the outer loop. -/
def sweepBucket : Option CaptureState :=
  s.sweep.bind fun sw =>
    if sw.rest = [] ∧ sw.bktnr + 1 < sw.stop then
      some { s with sweep := some ⟨sw.bktnr + 1, sw.stop, s.table.chains (sw.bktnr + 1)⟩ }
    else none

/-- The end of a sweep. -/
def sweepEnd : Option CaptureState :=
  s.sweep.bind fun sw =>
    if sw.rest = [] ∧ ¬ sw.bktnr + 1 < sw.stop then
      some { s with
        sweep := none
        nextBktnr := if sw.stop < xkpblocksHtSize then s.nextBktnr + sw.stop else 0 }
    else none

end CaptureState

/-- All interleavings, from a table without nodes. -/
def captureMachine (hash : XkpblocksKey → ℕ) : Machine CaptureState CaptureAct where
  init s := s.pids = (fun _ => none) ∧ s.used = [] ∧ s.died = [] ∧ s.table = .empty ∧
    s.sweep = none ∧ s.nextBktnr = 0 ∧ s.swept = [] ∧ s.submitted = []
  step
    | s, .spawn key =>
      if (s.pids key.tid).isNone ∧ key ∉ s.used then
        some { s.setTask key.tid ⟨key.tstart, false, none, .outside, none⟩ with
          used := s.used ++ [key] }
      else none
    | s, .exit tid => (s.thread tid).map fun t =>
        { s.setTask tid { t with exited := true } with died := s.died ++ [⟨tid, t.tstart⟩] }
    | s, .reap tid => (s.pids tid).bind fun t =>
        if t.exited then some { s with pids := Function.update s.pids tid none } else none
    | s, .enterWrite tid node => s.enterWrite hash tid node
    | s, .bread tid bh => s.bread hash tid bh
    | s, .memcpy tid => s.memcpy tid
    | s, .writeDirtyBuffer tid bh => s.writeDirtyBuffer hash tid bh
    | s, .makeSnapshot tid => s.makeSnapshot tid
    | s, .returnWrite tid => s.returnWrite hash tid
    | s, .removeThreadentry tid => s.removeThreadentry tid
    | s, .sweepStart => s.sweepStart
    | s, .sweepNode => s.sweepNode
    | s, .sweepBucket => s.sweepBucket
    | s, .sweepEnd => s.sweepEnd

namespace CaptureState

/-- Every block that was submitted is the last one that its thread had read; sweeps removed
nodes of dead threads only; no node was freed twice; a thread has no node when it is not in
a `vfs_write`. -/
structure Separate (s : CaptureState) : Prop where
  right : ∀ p ∈ s.submitted, p.Right
  swept : ∀ key ∈ s.swept, key ∈ s.died
  freedOnce : s.table.freed.Nodup
  returned : ∀ tid t, s.thread tid = some t → t.write = none →
    ∀ e ∈ s.table, e.key ≠ ⟨tid, t.tstart⟩

/-- A thread that is about to submit has read a whole block last. -/
def ReadsWhole (s : CaptureState) : CaptureAct → Prop
  | .makeSnapshot tid => ∀ t ∈ s.thread tid, t.handler.submits = true →
      t.lastRead.map (fun bh => bh.bSize) = some singlefilefsBlockSize
  | _ => True

instance (s : CaptureState) (a : CaptureAct) : Decidable (s.ReadsWhole a) := by
  cases a <;> unfold ReadsWhole <;> infer_instance

/-- What holds of a living thread: it has a node exactly while its `vfs_write` is tracked,
a handler holds that node, and behind the `memcpy` the last read is the start of its block. -/
structure TaskInv (T : ChainedTable XkpblocksKey) (blocks : ℕ → CapturedBlock) (key : XkpblocksKey)
    (t : Task) : Prop where
  tracked : t.write = some true ↔ ∃ addr, Entry.mk addr key ∈ T
  found : ∀ addr, t.handler.node = some addr → Entry.mk addr key ∈ T
  reading : ∀ addr bh, t.handler = .memcpy addr bh → t.lastRead = some bh
  copied : ∀ addr, Entry.mk addr key ∈ T → ∀ bh ∈ t.lastRead,
    (∃ old : CapturedBlock, blocks addr = old.memcpy bh) ∨ t.handler = .memcpy addr bh

/-- The invariant of guarded runs. -/
structure Inv (hash : XkpblocksKey → ℕ) (s : CaptureState) : Prop where
  table : s.table.Wf hash
  entries : ∀ e ∈ s.table, e.key ∈ s.used
  dies : ∀ key ∈ s.used, key ∈ s.died ∨ s.doTaskcheckOn key = true
  known : ∀ tid t, s.pids tid = some t → ⟨tid, t.tstart⟩ ∈ s.used
  tasks : ∀ tid t, s.thread tid = some t → TaskInv s.table s.blocks ⟨tid, t.tstart⟩ t
  sweep : ∀ sw ∈ s.sweep, sw.rest.Nodup ∧ ∀ e ∈ sw.rest, e ∈ s.table
  swept : ∀ key ∈ s.swept, key ∈ s.died
  right : ∀ p ∈ s.submitted, p.Right

variable {hash : XkpblocksKey → ℕ} {s s' : CaptureState} {tid : UInt64} {t t' : Task}

theorem thread_eq_some : s.thread tid = some t ↔ s.pids tid = some t ∧ t.exited = false := by
  simp [thread, Option.filter_eq_some_iff]

theorem doTaskcheckOn_iff {key : XkpblocksKey} :
    s.doTaskcheckOn key = true ↔ ∃ t, s.thread key.tid = some t ∧ t.tstart = key.tstart := by
  unfold doTaskcheckOn
  cases hp : s.pids key.tid with
  | none => simp [thread, hp]
  | some p =>
    simp only [thread_eq_some, hp, Option.some.injEq]
    constructor
    · intro h
      split at h
      · cases h
      · rename_i hno
        obtain ⟨hstart, halive⟩ := not_or.mp hno
        exact ⟨p, ⟨rfl, by simpa using halive⟩, by simpa using hstart⟩
    · rintro ⟨t, ⟨rfl, halive⟩, hstart⟩
      simp [halive, hstart]

theorem pids_setTask (s : CaptureState) (tid : UInt64) (t : Task) (tid' : UInt64) :
    (s.setTask tid t).pids tid' = if tid' = tid then some t else s.pids tid' :=
  Function.update_apply ..

theorem thread_setTask_self (halive : t'.exited = false) :
    (s.setTask tid t').thread tid = some t' :=
  thread_eq_some.mpr ⟨by rw [pids_setTask, if_pos rfl], halive⟩

theorem thread_setTask_ne {tid' : UInt64} (h : tid' ≠ tid) :
    (s.setTask tid t').thread tid' = s.thread tid' := by
  rw [thread, pids_setTask, if_neg h, thread]

/-- A thread that stays alive passes the check as before. -/
theorem doTaskcheckOn_setTask (ht : s.thread tid = some t) (hstart : t'.tstart = t.tstart)
    (halive : t'.exited = false) {key : XkpblocksKey} (h : s.doTaskcheckOn key = true) :
    (s.setTask tid t').doTaskcheckOn key = true := by
  obtain ⟨u, hu, hustart⟩ := doTaskcheckOn_iff.mp h
  by_cases htid : key.tid = tid
  · rw [htid, ht] at hu
    obtain rfl := Option.some.inj hu
    exact doTaskcheckOn_iff.mpr ⟨t', htid ▸ thread_setTask_self halive, hstart.trans hustart⟩
  · exact doTaskcheckOn_iff.mpr ⟨u, (thread_setTask_ne htid).trans hu, hustart⟩

/-- A living thread passes the check. -/
theorem doTaskcheckOn_of_thread (h : s.thread tid = some t) :
    s.doTaskcheckOn ⟨tid, t.tstart⟩ = true :=
  doTaskcheckOn_iff.mpr ⟨t, h, rfl⟩

/-- Threads of other keys do not notice what happens to a node. -/
theorem TaskInv.frame {T T' : ChainedTable XkpblocksKey} {blocks blocks' : ℕ → CapturedBlock}
    {key : XkpblocksKey} (h : TaskInv T blocks key t)
    (hmem : ∀ addr, Entry.mk addr key ∈ T' ↔ Entry.mk addr key ∈ T)
    (hblocks : ∀ addr, Entry.mk addr key ∈ T → blocks' addr = blocks addr) :
    TaskInv T' blocks' key t where
  tracked := h.tracked.trans (exists_congr fun addr => (hmem addr).symm)
  found addr haddr := (hmem addr).mpr (h.found addr haddr)
  reading := h.reading
  copied addr haddr bh hbh := by
    have hold := (hmem addr).mp haddr
    rw [hblocks addr hold]
    exact h.copied addr hold bh hbh

/-- A step of a living thread: only its own node may come, go or change, and other threads
and the sweep keep what they have. -/
theorem Inv.setTask (h : s.Inv hash) (ht : s.thread tid = some t) (t' : Task)
    (hstart : t'.tstart = t.tstart) (halive : t'.exited = false)
    {T : ChainedTable XkpblocksKey} {blocks : ℕ → CapturedBlock}
    {submitted : List ThreadSubmission} (htable : T.Wf hash)
    (hself : TaskInv T blocks ⟨tid, t.tstart⟩ t')
    (hmem : ∀ e : Entry XkpblocksKey, e.key ≠ ⟨tid, t.tstart⟩ → (e ∈ T ↔ e ∈ s.table))
    (hblocks : ∀ e ∈ s.table, e.key ≠ ⟨tid, t.tstart⟩ → blocks e.addr = s.blocks e.addr)
    (hsweep : ∀ sw ∈ s.sweep, ∀ e ∈ sw.rest, e ∈ T) (hright : ∀ p ∈ submitted, p.Right) :
    Inv hash { s.setTask tid t' with table := T, blocks := blocks, submitted := submitted } := by
  have hknown := h.known tid t (thread_eq_some.mp ht).1
  refine ⟨htable, fun e he => ?_, fun key hkey => ?_, fun tid' u hu => ?_, fun tid' u hu => ?_,
    fun sw hsw => ⟨(h.sweep sw hsw).1, hsweep sw hsw⟩, h.swept, hright⟩
  · by_cases hkey : e.key = ⟨tid, t.tstart⟩
    · exact hkey ▸ hknown
    · exact h.entries e ((hmem e hkey).mp he)
  · exact (h.dies key hkey).imp_right (doTaskcheckOn_setTask ht hstart halive)
  · have hu' := (pids_setTask s tid t' tid').symm.trans hu
    by_cases htid : tid' = tid
    · rw [if_pos htid] at hu'
      rw [← Option.some.inj hu', htid, hstart]
      exact hknown
    · rw [if_neg htid] at hu'
      exact h.known tid' u hu'
  · by_cases htid : tid' = tid
    · subst htid
      obtain rfl := Option.some.inj ((thread_setTask_self (s := s) halive).symm.trans hu)
      exact hstart ▸ hself
    · have hu' : s.thread tid' = some u := (thread_setTask_ne htid).symm.trans hu
      have hne : (⟨tid', u.tstart⟩ : XkpblocksKey) ≠ ⟨tid, t.tstart⟩ := by simp [htid]
      exact (h.tasks tid' u hu').frame (fun addr => hmem _ hne)
        fun addr haddr => hblocks _ haddr hne

/-- A step of a living thread that leaves the nodes alone. -/
theorem Inv.setTask_same (h : s.Inv hash) (ht : s.thread tid = some t)
    (hstart : t'.tstart = t.tstart) (halive : t'.exited = false)
    (hself : TaskInv s.table s.blocks ⟨tid, t.tstart⟩ t') : (s.setTask tid t').Inv hash :=
  h.setTask ht t' hstart halive h.table hself (fun _ _ => Iff.rfl) (fun _ _ _ => rfl)
    (fun sw hsw => (h.sweep sw hsw).2) h.right

/-! ## Steps of threads -/

theorem outside_of_isOutside {pc : HandlerPc} (h : pc.isOutside = true) : pc = .outside := by
  cases pc with
  | outside => rfl
  | _ => cases h

theorem mk_mem_of_find {T : ChainedTable XkpblocksKey} {key : XkpblocksKey}
    {e : Entry XkpblocksKey} (h : T.find hash key = some e) : Entry.mk e.addr key ∈ T := by
  obtain ⟨hmem, rfl⟩ := ChainedTable.find_some h
  exact hmem

/-- A thread has one node at most. -/
theorem addr_eq {T : ChainedTable XkpblocksKey} (h : T.Wf hash) {key : XkpblocksKey} {a b : ℕ}
    (ha : Entry.mk a key ∈ T) (hb : Entry.mk b key ∈ T) : a = b :=
  congrArg Entry.addr (h.keys _ ha _ hb rfl)

/-- A node of another thread is at another address. -/
theorem addr_ne {T : ChainedTable XkpblocksKey} (h : T.Wf hash) {key : XkpblocksKey} {a : ℕ}
    (ha : Entry.mk a key ∈ T) {e : Entry XkpblocksKey} (he : e ∈ T) (hne : e.key ≠ key) :
    e.addr ≠ a := fun haddr => hne (congrArg Entry.key (h.addrs e he _ ha haddr))

/-- Behind the `memcpy` the last read is the start of the block. -/
theorem TaskInv.copied_of_ne {T : ChainedTable XkpblocksKey} {blocks : ℕ → CapturedBlock}
    {key : XkpblocksKey} (h : TaskInv T blocks key t) (hpc : ∀ a bh, t.handler ≠ .memcpy a bh)
    {addr : ℕ} (haddr : Entry.mk addr key ∈ T) {bh : BufferHead} (hbh : bh ∈ t.lastRead) :
    ∃ old : CapturedBlock, blocks addr = old.memcpy bh :=
  (h.copied addr haddr bh hbh).resolve_right (hpc addr bh)

theorem Inv.enterWrite (h : s.Inv hash) {node : Option CapturedBlock}
    (hstep : s.enterWrite hash tid node = some s') : s'.Inv hash := by
  simp only [CaptureState.enterWrite, Option.bind_eq_some_iff] at hstep
  obtain ⟨t, ht, hstep⟩ := hstep
  split at hstep
  · rename_i hidle
    simp only [Bool.and_eq_true, Option.isNone_iff_eq_none] at hidle
    obtain ⟨hwrite, hout⟩ := hidle
    have hout := outside_of_isOutside hout
    have hinv := h.tasks tid t ht
    have hnone : ∀ addr, Entry.mk addr ⟨tid, t.tstart⟩ ∉ s.table := fun addr haddr => by
      simpa [hwrite] using hinv.tracked.mpr ⟨addr, haddr⟩
    cases node with
    | none =>
      obtain rfl := Option.some.inj hstep
      refine h.setTask_same ht rfl (thread_eq_some.mp ht).2
        ⟨⟨nofun, fun ⟨addr, haddr⟩ => absurd haddr (hnone addr)⟩, hinv.found, hinv.reading,
          hinv.copied⟩
    | some block =>
      simp only at hstep
      split at hstep
      · cases hstep
      · rename_i hlock
        obtain rfl := Option.some.inj hstep
        have hkey : ∀ e ∈ s.table, e.key ≠ ⟨tid, t.tstart⟩ := fun e he hkey =>
          hnone e.addr (hkey ▸ he)
        refine h.setTask ht { t with write := some true, lastRead := none } rfl
          (thread_eq_some.mp ht).2 (h.table.insert hkey) ⟨?_, ?_, ?_, nofun⟩ (fun e hne => ?_)
          (fun e he hne => ?_) (fun sw hsw => ?_) h.right
        · exact ⟨fun _ => ⟨_, ChainedTable.mem_insert.mpr (.inl rfl)⟩, fun _ => rfl⟩
        · simp [hout, HandlerPc.node]
        · simp [hout]
        · refine ChainedTable.mem_insert.trans (or_iff_right ?_)
          rintro rfl
          exact hne rfl
        · exact Function.update_of_ne (h.table.fresh e he).ne _ _
        · rw [Option.not_isSome_iff_eq_none.mp hlock] at hsw
          cases hsw
  · cases hstep

theorem Inv.bread (h : s.Inv hash) {bh : Option BufferHead}
    (hstep : s.bread hash tid bh = some s') : s'.Inv hash := by
  simp only [CaptureState.bread, Option.bind_eq_some_iff] at hstep
  obtain ⟨t, ht, hstep⟩ := hstep
  have hinv := h.tasks tid t ht
  have halive := (thread_eq_some.mp ht).2
  split at hstep
  · rename_i hout
    have hout := outside_of_isOutside hout
    split at hstep
    · cases hstep
      exact h
    · rename_i hfind
      cases hstep
      refine h.setTask_same ht rfl halive ⟨hinv.tracked, hinv.found, ?_, fun addr haddr => ?_⟩
      · simp [hout]
      · exact absurd rfl (h.table.find_none hfind haddr)
    · cases hstep
      refine h.setTask_same ht rfl halive ⟨hinv.tracked, nofun, nofun, fun addr haddr bh hbh => ?_⟩
      exact .inl (hinv.copied_of_ne (by simp [hout]) haddr hbh)
    · rename_i node bh hfind
      cases hstep
      have hnode := mk_mem_of_find hfind
      refine h.setTask_same ht rfl halive ⟨hinv.tracked, ?_, ?_, fun addr haddr bh' hbh => ?_⟩
      · rintro _ ⟨⟩
        exact hnode
      · rintro _ _ ⟨⟩
        rfl
      · obtain rfl := Option.some.inj hbh
        rw [addr_eq h.table haddr hnode]
        exact .inr rfl
  · cases hstep

theorem Inv.memcpy (h : s.Inv hash) (hstep : s.memcpy tid = some s') : s'.Inv hash := by
  simp only [CaptureState.memcpy, Option.bind_eq_some_iff] at hstep
  obtain ⟨t, ht, hstep⟩ := hstep
  have hinv := h.tasks tid t ht
  split at hstep
  · rename_i node bh hpc
    cases hstep
    have hnode := hinv.found node (by rw [hpc]; rfl)
    refine h.setTask ht { t with handler := .outside } rfl (thread_eq_some.mp ht).2 h.table
      ⟨hinv.tracked, nofun, nofun, ?_⟩ (fun _ _ => Iff.rfl) (fun e he hne => ?_)
      (fun sw hsw => (h.sweep sw hsw).2) h.right
    · intro addr haddr bh' hbh
      obtain rfl := Option.some.inj (hbh.symm.trans (hinv.reading node bh hpc))
      rw [addr_eq h.table haddr hnode, Function.update_self]
      exact .inl ⟨_, rfl⟩
    · exact Function.update_of_ne (addr_ne h.table hnode he hne) _ _
  · cases hstep

theorem Inv.writeDirtyBuffer (h : s.Inv hash) {bh : BufferHead}
    (hstep : s.writeDirtyBuffer hash tid bh = some s') : s'.Inv hash := by
  simp only [CaptureState.writeDirtyBuffer, Option.bind_eq_some_iff] at hstep
  obtain ⟨t, ht, hstep⟩ := hstep
  have hinv := h.tasks tid t ht
  have halive := (thread_eq_some.mp ht).2
  split at hstep
  · rename_i hout
    have hout := outside_of_isOutside hout
    have hcopied : ∀ addr, Entry.mk addr ⟨tid, t.tstart⟩ ∈ s.table → ∀ bh ∈ t.lastRead,
        ∃ old : CapturedBlock, s.blocks addr = old.memcpy bh := fun addr haddr bh hbh =>
      hinv.copied_of_ne (by simp [hout]) haddr hbh
    split at hstep
    · cases hstep
      exact h
    · rename_i node hfind
      have hnode := mk_mem_of_find hfind
      have hfound : ∀ addr, some node.addr = some addr →
          Entry.mk addr ⟨tid, t.tstart⟩ ∈ s.table := by
        rintro _ ⟨⟩
        exact hnode
      split at hstep
      · cases hstep
        exact h
      · cases hstep
        exact h.setTask_same ht rfl halive
          ⟨hinv.tracked, hfound, nofun, fun addr haddr bh hbh => .inl (hcopied addr haddr bh hbh)⟩
      · cases hstep
        exact h.setTask_same ht rfl halive
          ⟨hinv.tracked, hfound, nofun, fun addr haddr bh hbh => .inl (hcopied addr haddr bh hbh)⟩
  · cases hstep

theorem Inv.returnWrite (h : s.Inv hash) (hstep : s.returnWrite hash tid = some s') :
    s'.Inv hash := by
  simp only [CaptureState.returnWrite, Option.bind_eq_some_iff] at hstep
  obtain ⟨t, ht, hstep⟩ := hstep
  have hinv := h.tasks tid t ht
  have halive := (thread_eq_some.mp ht).2
  split at hstep
  · rename_i hout
    have hout := outside_of_isOutside hout
    split at hstep
    · cases hstep
    · rename_i hwrite
      cases hstep
      refine h.setTask_same ht rfl halive ⟨⟨nofun, fun hnode => ?_⟩, hinv.found, hinv.reading,
        hinv.copied⟩
      simpa [hwrite] using hinv.tracked.mpr hnode
    · rename_i hwrite
      obtain ⟨addr, haddr⟩ := hinv.tracked.mp hwrite
      split at hstep
      · rename_i hfind
        exact absurd rfl (h.table.find_none hfind haddr)
      · rename_i node hfind
        cases hstep
        refine h.setTask_same ht rfl halive ⟨hinv.tracked, ?_, nofun, fun addr haddr bh hbh => ?_⟩
        · rintro _ ⟨⟩
          exact mk_mem_of_find hfind
        · exact .inl (hinv.copied_of_ne (by simp [hout]) haddr hbh)
  · cases hstep

/-- The own node of a thread is unlinked while no sweep runs. -/
theorem Inv.unlinkOwn (h : s.Inv hash) (ht : s.thread tid = some t) {node : ℕ}
    (hnode : Entry.mk node ⟨tid, t.tstart⟩ ∈ s.table) (hsweep : s.sweep = none)
    (hstart : t'.tstart = t.tstart) (halive : t'.exited = false) (hwrite : t'.write ≠ some true)
    (hpc : t'.handler.node = none) :
    Inv hash { s.setTask tid t' with table := s.table.unlink node } := by
  have hgone : ∀ addr, Entry.mk addr ⟨tid, t.tstart⟩ ∉ s.table.unlink node := fun addr haddr => by
    obtain ⟨hmem, hne⟩ := ChainedTable.mem_unlink.mp haddr
    exact hne (addr_eq h.table hmem hnode)
  refine h.setTask ht t' hstart halive (h.table.unlink hnode) ⟨?_, ?_, ?_, ?_⟩ (fun e hne => ?_)
    (fun _ _ _ => rfl) (fun sw hsw => ?_) h.right
  · exact iff_of_false hwrite fun ⟨addr, haddr⟩ => hgone addr haddr
  · simp [hpc]
  · intro addr bh hmemcpy
    simp [hmemcpy, HandlerPc.node] at hpc
  · exact fun addr haddr => absurd haddr (hgone addr)
  · exact ChainedTable.mem_unlink.trans
      (and_iff_left_of_imp fun he => addr_ne h.table hnode he hne)
  · simp [hsweep] at hsw

theorem Inv.removeThreadentry (h : s.Inv hash) (hstep : s.removeThreadentry tid = some s') :
    s'.Inv hash := by
  simp only [CaptureState.removeThreadentry, Option.bind_eq_some_iff] at hstep
  obtain ⟨t, ht, hstep⟩ := hstep
  have hinv := h.tasks tid t ht
  have halive := (thread_eq_some.mp ht).2
  split at hstep
  · cases hstep
  · rename_i hlock
    have hsweep : s.sweep = none := by simpa using hlock
    split at hstep
    · rename_i node hpc
      cases hstep
      exact h.unlinkOwn ht (hinv.found node (by rw [hpc]; rfl)) hsweep rfl halive nofun rfl
    · rename_i node hpc
      cases hstep
      exact h.unlinkOwn ht (hinv.found node (by rw [hpc]; rfl)) hsweep rfl halive nofun rfl
    · cases hstep

/-- What a handler is about to submit: the thread has a node, and its last read is the start
of the block in it. -/
theorem Inv.makeSnapshot_cases (h : s.Inv hash) (hstep : s.makeSnapshot tid = some s') :
    ∃ t node p, s.thread tid = some t ∧ t.handler.submits = true ∧
      p.lastRead = t.lastRead ∧ p.submission.block = s.blocks node ∧
      (∀ bh ∈ t.lastRead, ∃ old : CapturedBlock, s.blocks node = old.memcpy bh) ∧
      s' = { s.setTask tid { t with handler := .outside } with
        submitted := s.submitted ++ [p] } := by
  simp only [CaptureState.makeSnapshot, Option.bind_eq_some_iff] at hstep
  obtain ⟨t, ht, hstep⟩ := hstep
  have hinv := h.tasks tid t ht
  split at hstep
  · rename_i node bdev blocknr hpc
    cases hstep
    refine ⟨t, node, _, ht, by rw [hpc]; rfl, rfl, rfl, fun bh hbh => ?_, rfl⟩
    exact hinv.copied_of_ne (by simp [hpc]) (hinv.found node (by rw [hpc]; rfl)) hbh
  · cases hstep

theorem Inv.makeSnapshot (h : s.Inv hash) (hact : s.ReadsWhole (.makeSnapshot tid))
    (hstep : s.makeSnapshot tid = some s') : s'.Inv hash := by
  obtain ⟨t, node, p, ht, hsubmits, hlast, hblock, hcopied, rfl⟩ := h.makeSnapshot_cases hstep
  have hinv := h.tasks tid t ht
  have hpc : ∀ a bh, t.handler ≠ .memcpy a bh := fun a bh hpc => by
    simp [hpc, HandlerPc.submits] at hsubmits
  have hright : p.Right := by
    obtain ⟨bh, hbh, hsize⟩ := Option.map_eq_some_iff.mp (hact t ht hsubmits)
    obtain ⟨old, hold⟩ := hcopied bh hbh
    exact ⟨bh, hlast.trans hbh, by rw [hblock, hold, CapturedBlock.memcpy_full old hsize]⟩
  refine h.setTask ht { t with handler := .outside } rfl (thread_eq_some.mp ht).2 h.table
    ⟨hinv.tracked, nofun, nofun, fun addr haddr bh hbh => ?_⟩ (fun _ _ => Iff.rfl)
    (fun _ _ _ => rfl) (fun sw hsw => (h.sweep sw hsw).2) fun q hq => ?_
  · exact .inl (hinv.copied_of_ne hpc haddr hbh)
  · rcases List.mem_append.mp hq with hold | hnew
    · exact h.right q hold
    · exact List.mem_singleton.mp hnew ▸ hright

/-- A submission behind a shorter read, or behind none, is not what was read. -/
theorem Inv.submitsOther (h : s.Inv hash) (hact : ¬ s.ReadsWhole (.makeSnapshot tid)) :
    ∃ s', s.makeSnapshot tid = some s' ∧ ¬ s'.Separate := by
  simp only [ReadsWhole, Option.mem_def, not_forall] at hact
  obtain ⟨t, ht, hsubmits, hsize⟩ := hact
  have hstep : ∃ s', s.makeSnapshot tid = some s' := by
    cases hpc : t.handler with
    | makeSnapshot node bdev blocknr =>
      exact Option.isSome_iff_exists.mp <| by
        simp only [CaptureState.makeSnapshot, ht, hpc, Option.bind_some, Option.isSome_some]
    | _ => simp [hpc, HandlerPc.submits] at hsubmits
  obtain ⟨s', hstep⟩ := hstep
  obtain ⟨u, node, p, hu, -, hlast, -, -, rfl⟩ := h.makeSnapshot_cases hstep
  obtain rfl := Option.some.inj (ht.symm.trans hu)
  refine ⟨_, hstep, fun hsep => hsize ?_⟩
  rw [← hlast]
  exact (hsep.right p (List.mem_append_right _ List.mem_cons_self)).bSize

/-! ## Threads that come and go, and the sweep -/

theorem Inv.spawn (h : s.Inv hash) {key : XkpblocksKey} (hfree : s.pids key.tid = none)
    (hnew : key ∉ s.used) :
    Inv hash { s.setTask key.tid ⟨key.tstart, false, none, .outside, none⟩ with
      used := s.used ++ [key] } := by
  have hnone : s.thread key.tid = none := by rw [thread, hfree]; rfl
  refine ⟨h.table, fun e he => List.mem_append_left _ (h.entries e he), fun k hk => ?_,
    fun tid t ht => ?_, fun tid t ht => ?_, h.sweep, h.swept, h.right⟩
  · rcases List.mem_append.mp hk with hk | hk
    · refine (h.dies k hk).imp_right fun hcheck => ?_
      obtain ⟨t, ht, hstart⟩ := doTaskcheckOn_iff.mp hcheck
      have hne : k.tid ≠ key.tid := fun heq => by
        rw [heq, hnone] at ht
        cases ht
      exact doTaskcheckOn_iff.mpr ⟨t, (thread_setTask_ne hne).trans ht, hstart⟩
    · rw [List.mem_singleton.mp hk]
      exact .inr (doTaskcheckOn_iff.mpr ⟨_, thread_setTask_self rfl, rfl⟩)
  · have ht' := (pids_setTask s key.tid _ tid).symm.trans ht
    by_cases htid : tid = key.tid
    · rw [if_pos htid] at ht'
      rw [← Option.some.inj ht', htid]
      exact List.mem_append_right _ List.mem_cons_self
    · rw [if_neg htid] at ht'
      exact List.mem_append_left _ (h.known tid t ht')
  · by_cases htid : tid = key.tid
    · subst htid
      obtain rfl := Option.some.inj ((thread_setTask_self (s := s) rfl).symm.trans ht)
      refine ⟨iff_of_false nofun fun ⟨addr, haddr⟩ => hnew (h.entries _ haddr), nofun, nofun, nofun⟩
    · exact h.tasks tid t ((thread_setTask_ne htid).symm.trans ht)

theorem Inv.exit (h : s.Inv hash) (ht : s.thread tid = some t) :
    Inv hash { s.setTask tid { t with exited := true } with
      died := s.died ++ [⟨tid, t.tstart⟩] } := by
  have hgone : (s.setTask tid { t with exited := true }).thread tid = none := by
    rw [thread, pids_setTask, if_pos rfl]
    rfl
  refine ⟨h.table, h.entries, fun key hkey => ?_, fun tid' u hu => ?_, fun tid' u hu => ?_, h.sweep,
    fun key hkey => List.mem_append_left _ (h.swept key hkey), h.right⟩
  · rcases h.dies key hkey with hdied | hcheck
    · exact .inl (List.mem_append_left _ hdied)
    · obtain ⟨u, hu, hstart⟩ := doTaskcheckOn_iff.mp hcheck
      by_cases htid : key.tid = tid
      · rw [htid, ht] at hu
        obtain rfl := Option.some.inj hu
        refine .inl (List.mem_append_right _ (List.mem_singleton.mpr ?_))
        rw [← htid, hstart]
      · exact .inr (doTaskcheckOn_iff.mpr ⟨u, (thread_setTask_ne htid).trans hu, hstart⟩)
  · have hu' := (pids_setTask s tid _ tid').symm.trans hu
    by_cases htid : tid' = tid
    · rw [if_pos htid] at hu'
      rw [← Option.some.inj hu', htid]
      exact h.known tid t (thread_eq_some.mp ht).1
    · rw [if_neg htid] at hu'
      exact h.known tid' u hu'
  · by_cases htid : tid' = tid
    · subst htid
      cases hgone.symm.trans hu
    · exact h.tasks tid' u ((thread_setTask_ne htid).symm.trans hu)

theorem Inv.reap (h : s.Inv hash) (ht : s.pids tid = some t) (hexited : t.exited = true) :
    Inv hash { s with pids := Function.update s.pids tid none } := by
  have hnone : s.thread tid = none := by simp [thread, ht, hexited]
  have hthread (tid' : UInt64) :
      thread { s with pids := Function.update s.pids tid none } tid' = s.thread tid' := by
    by_cases htid : tid' = tid
    · subst htid
      rw [hnone]
      simp only [thread, Function.update_self, Option.filter_none]
    · simp only [thread, Function.update_of_ne htid]
  refine ⟨h.table, h.entries, fun key hkey => ?_, fun tid' u hu => ?_, fun tid' u hu => ?_, h.sweep,
    h.swept, h.right⟩
  · refine (h.dies key hkey).imp_right fun hcheck => ?_
    obtain ⟨u, hu, hstart⟩ := doTaskcheckOn_iff.mp hcheck
    exact doTaskcheckOn_iff.mpr ⟨u, (hthread key.tid).trans hu, hstart⟩
  · by_cases htid : tid' = tid
    · subst htid
      simp at hu
    · exact h.known tid' u (by simpa [Function.update_of_ne htid] using hu)
  · exact h.tasks tid' u ((hthread tid').symm.trans hu)

/-- The sweep only changes what it has still to look at. -/
theorem Inv.setSweep (h : s.Inv hash) {sweep : Option Sweep} (n : ℕ)
    (hsweep : ∀ sw ∈ sweep, sw.rest.Nodup ∧ ∀ e ∈ sw.rest, e ∈ s.table) :
    Inv hash { s with sweep := sweep, nextBktnr := n } :=
  ⟨h.table, h.entries, h.dies, h.known, h.tasks, hsweep, h.swept, h.right⟩

theorem Inv.chain (h : s.Inv hash) (b : ℕ) :
    (s.table.chains b).Nodup ∧ ∀ e ∈ s.table.chains b, e ∈ s.table :=
  ⟨h.table.nodup b, fun _ he => ⟨b, he⟩⟩

theorem Inv.sweepNode (h : s.Inv hash) (hstep : s.sweepNode = some s') : s'.Inv hash := by
  simp only [CaptureState.sweepNode, Option.bind_eq_some_iff] at hstep
  obtain ⟨sw, hsw, hstep⟩ := hstep
  obtain ⟨hnodup, hmem⟩ := h.sweep sw hsw
  split at hstep
  · cases hstep
  · rename_i cur rest hrest
    rw [hrest] at hnodup hmem
    obtain ⟨hcur, hnodup⟩ := List.nodup_cons.mp hnodup
    obtain ⟨hin, hmem⟩ := List.forall_mem_cons.mp hmem
    split at hstep
    · cases hstep
      refine h.setSweep s.nextBktnr ?_
      rintro _ ⟨⟩
      exact ⟨hnodup, hmem⟩
    · rename_i hcheck
      cases hstep
      have hne : ∀ e ∈ s.table, e ≠ cur → e.addr ≠ cur.addr := fun e he hne haddr =>
        hne (h.table.addrs e he cur hin haddr)
      have hstay (tid : UInt64) (t : Task) (ht : s.thread tid = some t) (addr : ℕ) :
          Entry.mk addr ⟨tid, t.tstart⟩ ∈ s.table.unlink cur.addr ↔
            Entry.mk addr ⟨tid, t.tstart⟩ ∈ s.table := by
        refine ChainedTable.mem_unlink.trans (and_iff_left_of_imp fun he => hne _ he ?_)
        rintro rfl
        exact hcheck (doTaskcheckOn_of_thread ht)
      refine ⟨h.table.unlink hin, fun e he => h.entries e (ChainedTable.mem_unlink.mp he).1, h.dies,
        h.known, fun tid t ht => ?_, ?_, fun key hkey => ?_, h.right⟩
      · exact (h.tasks tid t ht).frame (hstay tid t ht) fun _ _ => rfl
      · rintro _ ⟨⟩
        refine ⟨hnodup, fun e he => ChainedTable.mem_unlink.mpr ⟨hmem e he, hne e (hmem e he) ?_⟩⟩
        rintro rfl
        exact hcur he
      · rcases List.mem_append.mp hkey with hkey | hkey
        · exact h.swept key hkey
        · rw [List.mem_singleton.mp hkey]
          exact (h.dies cur.key (h.entries cur hin)).resolve_right hcheck

theorem Inv.next (h : s.Inv hash) {a : CaptureAct} (hact : s.ReadsWhole a)
    (hstep : (captureMachine hash).step s a = some s') : s'.Inv hash := by
  cases a with
  | spawn key =>
    simp only [captureMachine] at hstep
    split at hstep
    · rename_i hfree
      cases hstep
      exact h.spawn (Option.isNone_iff_eq_none.mp hfree.1) hfree.2
    · cases hstep
  | exit tid =>
    obtain ⟨t, ht, rfl⟩ := Option.map_eq_some_iff.mp hstep
    exact h.exit ht
  | reap tid =>
    simp only [captureMachine, Option.bind_eq_some_iff] at hstep
    obtain ⟨t, ht, hstep⟩ := hstep
    split at hstep
    · rename_i hexited
      cases hstep
      exact h.reap ht hexited
    · cases hstep
  | enterWrite tid node => exact h.enterWrite hstep
  | bread tid bh => exact h.bread hstep
  | memcpy tid => exact h.memcpy hstep
  | writeDirtyBuffer tid bh => exact h.writeDirtyBuffer hstep
  | makeSnapshot tid => exact h.makeSnapshot hact hstep
  | returnWrite tid => exact h.returnWrite hstep
  | removeThreadentry tid => exact h.removeThreadentry hstep
  | sweepStart =>
    simp only [captureMachine, CaptureState.sweepStart] at hstep
    split at hstep
    · cases hstep
    · cases hstep
      refine h.setSweep s.nextBktnr ?_
      rintro _ ⟨⟩
      split
      · exact h.chain s.nextBktnr
      · exact ⟨List.nodup_nil, nofun⟩
  | sweepNode => exact h.sweepNode hstep
  | sweepBucket =>
    simp only [captureMachine, CaptureState.sweepBucket, Option.bind_eq_some_iff] at hstep
    obtain ⟨sw, -, hstep⟩ := hstep
    split at hstep
    · cases hstep
      refine h.setSweep s.nextBktnr ?_
      rintro _ ⟨⟩
      exact h.chain (sw.bktnr + 1)
    · cases hstep
  | sweepEnd =>
    simp only [captureMachine, CaptureState.sweepEnd, Option.bind_eq_some_iff] at hstep
    obtain ⟨sw, -, hstep⟩ := hstep
    split at hstep
    · cases hstep
      exact h.setSweep _ nofun
    · cases hstep

theorem Inv.separate (h : s.Inv hash) : s.Separate where
  right := h.right
  swept := h.swept
  freedOnce := h.table.freedOnce
  returned tid t ht hwrite e he hkey := by
    have htracked := (h.tasks tid t ht).tracked.mpr ⟨e.addr, hkey ▸ he⟩
    simp [hwrite] at htracked

end CaptureState

open CaptureState

/-- The threads keep apart in every state of a run exactly if whoever submits a block has
read a whole block last. -/
theorem captures_separate_iff {hash : XkpblocksKey → ℕ} {s : CaptureState}
    (hs : (captureMachine hash).init s) (acts : List CaptureAct) :
    (captureMachine hash).Throughout Separate s acts ↔
      (captureMachine hash).Meets ReadsWhole s acts := by
  obtain ⟨hpids, hused, hdied, htable, hsweep, -, hswept, hsubmitted⟩ := hs
  have hinv : s.Inv hash := by
    have hnone (e : Entry XkpblocksKey) : e ∉ s.table := by
      rintro ⟨b, hb⟩
      simp [htable, ChainedTable.empty] at hb
    refine ⟨htable ▸ ChainedTable.wf_empty hash, fun e he => absurd he (hnone e),
      ?_, ?_, ?_, ?_, ?_, ?_⟩ <;> simp [hused, hpids, thread, hsweep, hswept, hsubmitted]
  refine Machine.throughout_iff_meets (I := Inv hash) (fun _ h => h.separate)
    (fun _ _ _ h hact hstep => h.next hact hstep) (fun s a h hact => ?_) hinv acts
  cases a with
  | makeSnapshot tid => exact h.submitsOther hact
  | _ => exact absurd trivial hact

/-- No thread and no node. -/
def noNodes : CaptureState where
  pids _ := none
  used := []
  died := []
  table := .empty
  blocks _ := onesBlock
  sweep := none
  nextBktnr := 0
  swept := []
  submitted := []

theorem init_noNodes (hash : XkpblocksKey → ℕ) : (captureMachine hash).init noNodes :=
  ⟨rfl, rfl, rfl, rfl, rfl, rfl, rfl, rfl⟩

/-- Two threads of one chain, of which one dies in its `vfs_write` and its tid is reused. -/
theorem captures_separate_iff_whole :
    (captureMachine fun _ => 0).Throughout Separate noNodes
      [.spawn ⟨7, 1⟩, .spawn ⟨8, 1⟩, .enterWrite 7 (some onesBlock),
        .enterWrite 8 (some onesBlock), .bread 7 (some ((wholeBlock 0x800011 5).filled 2)),
        .memcpy 7, .writeDirtyBuffer 7 ((wholeBlock 0x800011 5).filled 2), .makeSnapshot 7,
        .returnWrite 7, .removeThreadentry 7, .exit 8, .reap 8, .spawn ⟨8, 2⟩, .sweepStart,
        .sweepNode] :=
  (captures_separate_iff (init_noNodes _) _).mpr (by decide +kernel)

/-- A block of a file system with blocks of 1 KiB. -/
def shortBlock (bdev : UInt32) (blocknr : UInt64) : BufferPlace where
  bBdev := some bdev
  bBlocknr := blocknr
  bSize := 1024
  pos := by decide
  le := by decide

/-- The node of a thread is in the page of another one, which had read ones. -/
def inUsedPage : List CaptureAct :=
  [.spawn ⟨7, 1⟩, .spawn ⟨8, 1⟩, .enterWrite 7 (some onesBlock),
    .bread 7 (some ((wholeBlock 0x800011 5).filled 1)), .memcpy 7, .returnWrite 7,
    .removeThreadentry 7, .enterWrite 8 (some onesBlock)]

/-- A call of `write_dirty_buffer`, up to the submission. -/
def hitWhole (tid : UInt64) : List CaptureAct :=
  [.writeDirtyBuffer tid ((wholeBlock 0x800011 6).filled 2), .makeSnapshot tid]

/-- A thread that has read nothing submits the block of the other thread, and behind a
short read the rest of it. -/
theorem not_captures_separate :
    (∃ s, (captureMachine fun _ => 0).run noNodes (inUsedPage ++ hitWhole 8) = some s ∧
      s.submitted = [⟨⟨8, 1⟩, ⟨0x800011, 6, onesBlock⟩, none⟩] ∧ ¬ s.Separate) ∧
    ∃ s, (captureMachine fun _ => 0).run noNodes (inUsedPage ++
        [.bread 8 (some ((shortBlock 0x800001 9).filled 2)), .memcpy 8] ++ hitWhole 8) = some s ∧
      s.submitted = [⟨⟨8, 1⟩, ⟨0x800011, 6, onesBlock.memcpy ((shortBlock 0x800001 9).filled 2)⟩,
        some ((shortBlock 0x800001 9).filled 2)⟩] ∧ ¬ s.Separate := by
  refine ⟨⟨_, Machine.run_eq_getD _ _ _ (by decide +kernel), by rfl, fun h => ?_⟩,
    ⟨_, Machine.run_eq_getD _ _ _ (by decide +kernel), by rfl, fun h => ?_⟩⟩
  · exact absurd (h.right _ (List.mem_singleton_self _)).bSize nofun
  · exact absurd (h.right _ (List.mem_singleton_self _)).bSize (by decide)

end BlkdevSnapshot

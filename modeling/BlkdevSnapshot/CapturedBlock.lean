import BlkdevSnapshot.BlockImage

/-!
# The captured block of a thread

The node of a thread that writes to a file of singlefilefs, with the handlers of the
two probes that use it. Every block read of the thread is copied into the one buffer of
the node, and `write_dirty_buffer` submits what is in that buffer. Buffers have at
most the size of a page.
-/
namespace BlkdevSnapshot

/-- `SINGLEFILEFS_BLOCK_SIZE` -/
def singlefilefsBlockSize : ℕ := 4096

theorem singlefilefsBlockSize_pos : 0 < singlefilefsBlockSize := by decide

/-- `struct xkpblocks_key` -/
structure XkpblocksKey where
  tid : UInt64
  tstart : UInt64
  deriving DecidableEq

/-- The content of a block of singlefilefs. -/
abbrev CapturedBlock := Block singlefilefsBlockSize

/-- `struct buffer_head` without its data; a buffer is at most a page. -/
@[ext] structure BufferPlace where
  bBdev : Option UInt32
  bBlocknr : UInt64
  bSize : ℕ
  pos : 0 < bSize
  le : bSize ≤ singlefilefsBlockSize
  deriving DecidableEq

/-- `struct buffer_head` -/
structure BufferHead extends BufferPlace where
  bData : Bytes
  length_eq : bData.length = bSize

theorem length_memcpy (block : CapturedBlock) (bh : BufferHead) :
    (bh.bData ++ block.1.drop bh.bSize).length = singlefilefsBlockSize := by
  have := bh.le
  rw [List.length_append, List.length_drop, block.2, bh.length_eq]
  omega

/-- `memcpy` of the data of a buffer to the start of a block. -/
def CapturedBlock.memcpy (block : CapturedBlock) (bh : BufferHead) : CapturedBlock :=
  ⟨bh.bData ++ block.1.drop bh.bSize, length_memcpy block bh⟩

/-- A buffer of a whole block replaces the old content. -/
theorem CapturedBlock.memcpy_full (block : CapturedBlock) {bh : BufferHead}
    (h : bh.bSize = singlefilefsBlockSize) : (block.memcpy bh).1 = bh.bData := by
  have hdrop : block.1.drop bh.bSize = [] := List.drop_of_length_le (by rw [block.2, h])
  simp only [memcpy, hdrop, List.append_nil]

/-- The arguments of a call of `bdsnap_make_snapshot`: the device that the handle is
searched for, the number and the block. -/
structure Submission where
  bdev : UInt32
  blocknr : UInt64
  block : CapturedBlock

/-- What `write_dirty_buffer_pre_handler` does when it finds the node of the thread. -/
inductive HitOutcome where
  | nothing
  | bug
  | submit (submission : Submission)

/-- `write_dirty_buffer_pre_handler` with the block of the node. -/
def writeDirtyBufferPreHandler (block : CapturedBlock) (bh : BufferHead) : HitOutcome :=
  match bh.bBdev with
  | none => .nothing
  | some bdev =>
    if bh.bSize ≠ singlefilefsBlockSize then .bug
    else .submit ⟨bdev, bh.bBlocknr, block⟩

/-! ## One `vfs_write` -/

/-- A block read or a call of `write_dirty_buffer`. -/
inductive BufferOp (β : Type*) where
  | bread (bh : β)
  | writeDirtyBuffer (bh : β)

def BufferOp.map {β γ : Type*} (f : β → γ) : BufferOp β → BufferOp γ
  | bread bh => bread (f bh)
  | writeDirtyBuffer bh => writeDirtyBuffer (f bh)

/-- The submissions that the calls of a thread lead to, each with the reads before it. -/
def hitSubmissions (block : CapturedBlock) (reads : List BufferHead) :
    List (BufferOp BufferHead) → List (Submission × List BufferHead)
  | [] => []
  | .bread bh :: ops => hitSubmissions (block.memcpy bh) (reads ++ [bh]) ops
  | .writeDirtyBuffer bh :: ops =>
    match writeDirtyBufferPreHandler block bh with
    | .nothing => hitSubmissions block reads ops
    | .bug => []
    | .submit submission => (submission, reads) :: hitSubmissions block reads ops

/-- The block of a submission was read from its own place. -/
def Submission.ReadBefore (submission : Submission) (reads : List BufferHead) : Prop :=
  ∃ bh ∈ reads, bh.bBdev = some submission.bdev ∧ bh.bBlocknr = submission.blocknr ∧
    bh.bData = submission.block.1

/-- Every submission carries data that was read from its own place, whatever the reads
deliver and the new node contains. -/
def CapturesRight (places : List (BufferOp BufferPlace)) : Prop :=
  ∀ ops : List (BufferOp BufferHead), ops.map (.map BufferHead.toBufferPlace) = places →
    ∀ block, ∀ p ∈ hitSubmissions block [] ops, p.1.ReadBefore p.2

/-- The last read before each submission is of the same block. -/
def LastReadMatches (last : Option BufferPlace) : List (BufferOp BufferPlace) → Prop
  | [] => True
  | .bread place :: ops => LastReadMatches (some place) ops
  | .writeDirtyBuffer place :: ops =>
    if place.bBdev = none then LastReadMatches last ops
    else if place.bSize ≠ singlefilefsBlockSize then True
    else last = some place ∧ LastReadMatches last ops

/-- Whether the last reads match can be computed. -/
instance decidableLastReadMatches : (last : Option BufferPlace) →
    (ops : List (BufferOp BufferPlace)) → Decidable (LastReadMatches last ops)
  | _, [] => isTrue trivial
  | _, .bread place :: ops => decidableLastReadMatches (some place) ops
  | last, .writeDirtyBuffer place :: ops =>
    have := decidableLastReadMatches last ops
    inferInstanceAs (Decidable (if place.bBdev = none then LastReadMatches last ops
      else if place.bSize ≠ singlefilefsBlockSize then True
      else last = some place ∧ LastReadMatches last ops))

/-! ## Reads that match -/

/-- What the reads before a call leave behind: the last one is known, and its data are the
start of the block. -/
structure Captured (block : CapturedBlock) (reads : List BufferHead) (bh : BufferHead) : Prop where
  mem : bh ∈ reads
  memcpy : ∃ old : CapturedBlock, block = old.memcpy bh

/-- With the last reads matching, every submission is right. -/
theorem readBefore_of_lastReadMatches {ops : List (BufferOp BufferHead)} {block : CapturedBlock}
    {reads : List BufferHead} {last : Option BufferHead}
    (hlast : ∀ bh ∈ last, Captured block reads bh)
    (h : LastReadMatches (last.map BufferHead.toBufferPlace)
      (ops.map (.map BufferHead.toBufferPlace))) :
    ∀ p ∈ hitSubmissions block reads ops, p.1.ReadBefore p.2 := by
  induction ops generalizing block reads last with
  | nil => nofun
  | cons op ops ih =>
    cases op with
    | bread bh =>
      have hcaptured : ∀ bh' ∈ some bh, Captured (block.memcpy bh) (reads ++ [bh]) bh' := by
        rintro _ ⟨⟩
        exact ⟨List.mem_append_right _ List.mem_cons_self, block, rfl⟩
      exact ih hcaptured h
    | writeDirtyBuffer bh =>
      simp only [List.map_cons, BufferOp.map, LastReadMatches] at h
      simp only [hitSubmissions, writeDirtyBufferPreHandler]
      cases hdev : bh.bBdev with
      | none =>
        rw [if_pos hdev] at h
        exact ih hlast h
      | some bdev =>
        rw [if_neg (by simp [hdev])] at h
        by_cases hsize : bh.bSize = singlefilefsBlockSize
        · rw [if_neg (by simpa using hsize)] at h
          obtain ⟨hmatch, h⟩ := h
          obtain ⟨bh', rfl, hplace⟩ := Option.map_eq_some_iff.mp hmatch
          obtain ⟨hmem, old, rfl⟩ := hlast bh' rfl
          have hsize' : bh'.bSize = singlefilefsBlockSize := by rw [hplace, hsize]
          simp only [hsize, ne_eq, not_true_eq_false, if_false, List.mem_cons]
          rintro p (rfl | hp)
          · exact ⟨bh', hmem, by rw [hplace, hdev], by rw [hplace],
              (CapturedBlock.memcpy_full old hsize').symm⟩
          · exact ih hlast h p hp
        · simp [hsize]

/-! ## A submission that does not match -/

/-- The place of the last read of some calls that follow a read of `last`. -/
def lastRead (last : Option BufferPlace) : List (BufferOp BufferPlace) → Option BufferPlace
  | [] => last
  | .bread place :: ops => lastRead (some place) ops
  | .writeDirtyBuffer _ :: ops => lastRead last ops

theorem lastRead_eq (last : Option BufferPlace) (ops : List (BufferOp BufferPlace)) :
    lastRead last ops = (lastRead none ops).or last := by
  induction ops generalizing last with
  | nil => rfl
  | cons op ops ih =>
    cases op with
    | bread place =>
      rw [lastRead, lastRead, ih]
      cases lastRead none ops <;> rfl
    | writeDirtyBuffer place => exact ih last

/-- A call of `write_dirty_buffer` that the handler survives. -/
def BufferOp.Survived : BufferOp BufferPlace → Prop
  | bread _ => True
  | writeDirtyBuffer place => place.bBdev = none ∨ place.bSize = singlefilefsBlockSize

/-- The first submission whose last read is another one. -/
theorem exists_of_not_lastReadMatches {last : Option BufferPlace}
    {places : List (BufferOp BufferPlace)} (h : ¬ LastReadMatches last places) :
    ∃ pre place post bdev, places = pre ++ .writeDirtyBuffer place :: post ∧
      place.bBdev = some bdev ∧ place.bSize = singlefilefsBlockSize ∧
      (∀ op ∈ pre, op.Survived) ∧ lastRead last pre ≠ some place := by
  induction places generalizing last with
  | nil => exact absurd trivial h
  | cons op ops ih =>
    cases op with
    | bread place =>
      obtain ⟨pre, bad, post, bdev, rfl, hdev, hsize, hpre, hlast⟩ := @ih (some place) h
      refine ⟨.bread place :: pre, bad, post, bdev, rfl, hdev, hsize, ?_, hlast⟩
      exact List.forall_mem_cons.mpr ⟨trivial, hpre⟩
    | writeDirtyBuffer place =>
      have hskip (hop : (BufferOp.writeDirtyBuffer place).Survived)
          (hrest : ¬ LastReadMatches last ops) : ∃ pre bad post bdev,
          BufferOp.writeDirtyBuffer place :: ops = pre ++ .writeDirtyBuffer bad :: post ∧
          bad.bBdev = some bdev ∧ bad.bSize = singlefilefsBlockSize ∧
          (∀ op ∈ pre, op.Survived) ∧ lastRead last pre ≠ some bad := by
        obtain ⟨pre, bad, post, bdev, rfl, hdev, hsize, hpre, hlast⟩ := ih hrest
        refine ⟨.writeDirtyBuffer place :: pre, bad, post, bdev, rfl, hdev, hsize, ?_, hlast⟩
        exact List.forall_mem_cons.mpr ⟨hop, hpre⟩
      rw [LastReadMatches] at h
      cases hdev : place.bBdev with
      | none =>
        rw [if_pos hdev] at h
        exact hskip (.inl hdev) h
      | some bdev =>
        rw [if_neg (by simp [hdev])] at h
        by_cases hsize : place.bSize = singlefilefsBlockSize
        · rw [if_neg (by simpa using hsize)] at h
          by_cases hlast : last = some place
          · exact hskip (.inr hsize) fun hrest => h ⟨hlast, hrest⟩
          · exact ⟨[], place, ops, bdev, rfl, hdev, hsize, nofun, hlast⟩
        · simp [hsize] at h

/-- The block of the node behind some calls. -/
def blockAfter (block : CapturedBlock) : List (BufferOp BufferHead) → CapturedBlock
  | [] => block
  | .bread bh :: ops => blockAfter (block.memcpy bh) ops
  | .writeDirtyBuffer _ :: ops => blockAfter block ops

/-- The reads of some calls. -/
def readsOf : List (BufferOp BufferHead) → List BufferHead
  | [] => []
  | .bread bh :: ops => bh :: readsOf ops
  | .writeDirtyBuffer _ :: ops => readsOf ops

theorem mem_hitSubmissions_append {pre rest : List (BufferOp BufferHead)} {block : CapturedBlock}
    {reads : List BufferHead} (hpre : ∀ op ∈ pre, (op.map BufferHead.toBufferPlace).Survived)
    {p : Submission × List BufferHead}
    (h : p ∈ hitSubmissions (blockAfter block pre) (reads ++ readsOf pre) rest) :
    p ∈ hitSubmissions block reads (pre ++ rest) := by
  induction pre generalizing block reads with
  | nil => simpa [blockAfter, readsOf] using h
  | cons op pre ih =>
    obtain ⟨hop, htail⟩ := List.forall_mem_cons.mp hpre
    cases op with
    | bread bh => exact ih htail (by simpa [blockAfter, readsOf] using h)
    | writeDirtyBuffer bh =>
      have hmem := ih htail h
      simp only [List.cons_append, hitSubmissions, writeDirtyBufferPreHandler]
      cases hdev : bh.bBdev with
      | none => exact hmem
      | some bdev =>
        have hsize : bh.bSize = singlefilefsBlockSize := hop.resolve_left (by simp [hdev])
        simpa [hsize] using .inr hmem

/-- A buffer at a place with the same byte everywhere. -/
def BufferPlace.filled (place : BufferPlace) (b : UInt8) : BufferHead where
  toBufferPlace := place
  bData := List.replicate place.bSize b
  length_eq := List.length_replicate

/-- The last read delivers ones, and every read before it zeros. -/
def fillLast : List (BufferOp BufferPlace) → List (BufferOp BufferHead)
  | [] => []
  | .bread place :: ops =>
    .bread (place.filled (if lastRead none ops = none then 1 else 0)) :: fillLast ops
  | .writeDirtyBuffer place :: ops => .writeDirtyBuffer (place.filled 0) :: fillLast ops

theorem map_filled (op : BufferOp BufferPlace) :
    (op.map (BufferPlace.filled · 0)).map BufferHead.toBufferPlace = op := by
  cases op <;> rfl

theorem map_fillLast (ops : List (BufferOp BufferPlace)) :
    (fillLast ops).map (.map BufferHead.toBufferPlace) = ops := by
  induction ops with
  | nil => rfl
  | cons op ops ih => cases op <;> simp [fillLast, BufferOp.map, BufferPlace.filled, ih]

theorem head?_replicate {n : ℕ} (hn : 0 < n) (b : UInt8) : (List.replicate n b).head? = some b := by
  cases n with
  | zero => exact absurd hn (lt_irrefl 0)
  | succ n => rfl

theorem head?_memcpy (block : CapturedBlock) (place : BufferPlace) (b : UInt8) :
    (block.memcpy (place.filled b)).1.head? = some b := by
  simp only [CapturedBlock.memcpy, BufferPlace.filled, List.head?_append, head?_replicate place.pos,
    Option.some_or]

/-- The block starts with a one behind the last read, and also without any read if it did. -/
theorem head?_blockAfter_fillLast {block : CapturedBlock} (ops : List (BufferOp BufferPlace))
    (h : lastRead none ops = none → block.1.head? = some 1) :
    (blockAfter block (fillLast ops)).1.head? = some 1 := by
  induction ops generalizing block with
  | nil => exact h rfl
  | cons op ops ih =>
    cases op with
    | bread place =>
      refine ih fun hnone => ?_
      rw [if_pos hnone]
      exact head?_memcpy block place 1
    | writeDirtyBuffer place => exact ih h

/-- Only the last read delivers ones. -/
theorem lastRead_of_mem_readsOf {ops : List (BufferOp BufferPlace)} {bh : BufferHead}
    (hmem : bh ∈ readsOf (fillLast ops)) (h : bh.bData.head? = some 1) :
    lastRead none ops = some bh.toBufferPlace := by
  induction ops with
  | nil => cases hmem
  | cons op ops ih =>
    cases op with
    | bread place =>
      rw [lastRead, lastRead_eq]
      rcases List.mem_cons.mp hmem with rfl | hmem
      · by_cases hnone : lastRead none ops = none
        · rw [hnone]
          rfl
        · rw [if_neg hnone] at h
          simp [BufferPlace.filled, head?_replicate place.pos] at h
      · rw [ih hmem]
        rfl
    | writeDirtyBuffer place => exact ih hmem

/-- A block of ones. -/
def onesBlock : CapturedBlock := ⟨List.replicate singlefilefsBlockSize 1, List.length_replicate⟩

/-- The submissions are right for every content exactly if the last read before each of
them is one of the whole block that it submits. -/
theorem capturesRight_iff (places : List (BufferOp BufferPlace)) :
    CapturesRight places ↔ LastReadMatches none places := by
  constructor
  · intro h
    by_contra hno
    obtain ⟨pre, place, post, bdev, rfl, hdev, hsize, hpre, hlast⟩ :=
      exists_of_not_lastReadMatches hno
    let ops := fillLast pre ++ .writeDirtyBuffer (place.filled 0) ::
      post.map (.map (BufferPlace.filled · 0))
    have hops : ops.map (.map BufferHead.toBufferPlace) =
        pre ++ .writeDirtyBuffer place :: post := by
      simp only [ops, List.map_append, List.map_cons, map_fillLast, List.map_map,
        Function.comp_def, map_filled, List.map_id']
      rfl
    have hsurvived : ∀ op ∈ fillLast pre,
        (op.map BufferHead.toBufferPlace).Survived := fun op hop =>
      hpre _ (map_fillLast pre ▸ List.mem_map_of_mem hop)
    have hmem : (⟨bdev, place.bBlocknr, blockAfter onesBlock (fillLast pre)⟩,
        readsOf (fillLast pre)) ∈ hitSubmissions onesBlock [] ops := by
      refine mem_hitSubmissions_append hsurvived ?_
      simp [hitSubmissions, writeDirtyBufferPreHandler, BufferPlace.filled, hdev, hsize]
    obtain ⟨bh, hread, hbdev, hnr, hdata⟩ := h ops hops onesBlock _ hmem
    have hone : (blockAfter onesBlock (fillLast pre)).1.head? = some 1 :=
      head?_blockAfter_fillLast pre fun _ => rfl
    have hlen : bh.bSize = place.bSize := by
      rw [← bh.length_eq, hdata, (blockAfter onesBlock (fillLast pre)).2, hsize]
    have hplace : bh.toBufferPlace = place := BufferPlace.ext (hbdev.trans hdev.symm) hnr hlen
    exact hlast ((lastRead_of_mem_readsOf hread (by rw [hdata, hone])).trans (congrArg some hplace))
  · intro h ops hops block
    have hnone : ∀ bh ∈ (none : Option BufferHead), Captured block [] bh := nofun
    exact readBefore_of_lastReadMatches hnone (hops ▸ h)

/-- A whole block of a device. -/
def wholeBlock (bdev : UInt32) (blocknr : UInt64) : BufferPlace where
  bBdev := some bdev
  bBlocknr := blocknr
  bSize := singlefilefsBlockSize
  pos := singlefilefsBlockSize_pos
  le := le_rfl

theorem preHandler_wholeBlock (block : CapturedBlock) (bdev : UInt32) (blocknr : UInt64)
    (b : UInt8) :
    writeDirtyBufferPreHandler block ((wholeBlock bdev blocknr).filled b) =
      .submit ⟨bdev, blocknr, block⟩ := by
  simp [writeDirtyBufferPreHandler, BufferPlace.filled, wholeBlock]

/-- While a thread writes block 7, a page fault reads a block of another device, which is
then submitted as block 7. -/
theorem not_capturesRight :
    hitSubmissions onesBlock []
      [.bread ((wholeBlock 0x800011 7).filled 0), .bread ((wholeBlock 0x800001 9).filled 1),
        .writeDirtyBuffer ((wholeBlock 0x800011 7).filled 0)] =
      [(⟨0x800011, 7, onesBlock⟩,
        [(wholeBlock 0x800011 7).filled 0, (wholeBlock 0x800001 9).filled 1])] ∧
    ¬ CapturesRight [.bread (wholeBlock 0x800011 7), .bread (wholeBlock 0x800001 9),
      .writeDirtyBuffer (wholeBlock 0x800011 7)] := by
  have hblock (block : CapturedBlock) :
      block.memcpy ((wholeBlock 0x800001 9).filled 1) = onesBlock :=
    Subtype.ext (block.memcpy_full rfl)
  have hsubmit : hitSubmissions onesBlock []
      [.bread ((wholeBlock 0x800011 7).filled 0), .bread ((wholeBlock 0x800001 9).filled 1),
        .writeDirtyBuffer ((wholeBlock 0x800011 7).filled 0)] =
      [(⟨0x800011, 7, onesBlock⟩,
        [(wholeBlock 0x800011 7).filled 0, (wholeBlock 0x800001 9).filled 1])] := by
    simp only [hitSubmissions, preHandler_wholeBlock, hblock, List.nil_append, List.cons_append]
  refine ⟨hsubmit, fun h => ?_⟩
  obtain ⟨bh, hmem, hdev, hnr, hdata⟩ := h
    [.bread ((wholeBlock 0x800011 7).filled 0), .bread ((wholeBlock 0x800001 9).filled 1),
      .writeDirtyBuffer ((wholeBlock 0x800011 7).filled 0)] rfl onesBlock _
    (by rw [hsubmit]; exact List.mem_singleton_self _)
  rcases List.mem_cons.mp hmem with rfl | hmem
  · have hhead : some 0 = some (1 : UInt8) :=
      (head?_replicate (wholeBlock 0x800011 7).pos 0).symm.trans (congrArg List.head? hdata)
    exact absurd hhead (by decide)
  · rw [List.mem_singleton.mp hmem] at hnr
    exact absurd hnr (by decide)

/-- The reads and writes of `onefilefs_write`, with the reads that page faults of
`copy_from_user` make. -/
def onefilefsWrite (bdev : UInt32) (blockToWrite : UInt64) (faults : List BufferPlace)
    (grows : Bool) : List (BufferOp BufferPlace) :=
  [.bread (wholeBlock bdev 0), .bread (wholeBlock bdev blockToWrite)] ++ faults.map .bread ++
    [.writeDirtyBuffer (wholeBlock bdev blockToWrite)] ++
    if grows then [.bread (wholeBlock bdev 1), .writeDirtyBuffer (wholeBlock bdev 1)] else []

theorem lastReadMatches_breads (last : Option BufferPlace) (reads : List BufferPlace)
    (ops : List (BufferOp BufferPlace)) :
    LastReadMatches last (reads.map .bread ++ ops) ↔
      LastReadMatches (reads.getLast?.or last) ops := by
  induction reads generalizing last with
  | nil => rfl
  | cons place reads ih =>
    refine (ih (some place)).trans ?_
    cases reads with
    | nil => rfl
    | cons next reads => simp [List.getLast?_cons]

/-- A write of the file system matches unless a page fault reads another block last. -/
theorem onefilefsWrite_matches_iff (bdev : UInt32) (blockToWrite : UInt64)
    (faults : List BufferPlace) (grows : Bool) :
    LastReadMatches none (onefilefsWrite bdev blockToWrite faults grows) ↔
      ∀ place ∈ faults.getLast?, place = wholeBlock bdev blockToWrite := by
  have htail (last : Option BufferPlace) : LastReadMatches last
      ([.writeDirtyBuffer (wholeBlock bdev blockToWrite)] ++
        if grows then [.bread (wholeBlock bdev 1), .writeDirtyBuffer (wholeBlock bdev 1)] else []) ↔
      last = some (wholeBlock bdev blockToWrite) := by
    cases grows <;> simp [LastReadMatches, wholeBlock]
  simp only [onefilefsWrite, List.append_assoc, List.cons_append, List.nil_append, LastReadMatches]
  rw [lastReadMatches_breads]
  refine (htail _).trans ?_
  cases faults.getLast? with
  | none => simp
  | some place => simp

end BlkdevSnapshot

import BlkdevSnapshot.DiskHistories

/-!
# Earlier states of a disk

As long as a device is written to in its epochs only, each of them starts where the one
before it has ended. Restoring the files of its latest epochs, from the last one back,
gives the image that the device had at the first mount of any of them.
-/
namespace BlkdevSnapshot
open FirstWrite SnapshotDirs

variable {ι : Type*} [DecidableEq ι] {N : ι → ℕ}

/-- All calls of the works and of the submissions succeed, and a device is written to in an
epoch. -/
def WrittenInEpochs (s : Disks ι N) : DisksAct ι N → Prop
  | .work _ o => o.Succeeds
  | .write i _ _ calls => (s.dirs.object i).e ≠ none ∧ calls.Succeeds
  | _ => True

/-- Full restores of some files, each after any attempts at it. -/
def restoreEach (opts : RestoreOpts) (kind : DeviceKind) (stdin : Bytes) (fuel : ℕ) :
    List (List RestoreAttempt × Bytes) → Bytes → Option Bytes
  | [], data => some data
  | (attempts, file) :: files, data =>
    match doRestore opts (fun _ => .allDone) fuel file
      (.start kind (attempts.foldl (RestoreAttempt.after kind file) data) stdin) with
    | some (t, true) => restoreEach opts kind stdin fuel files t.dev.data
    | _ => none

namespace Disks
variable {hash : UInt64 → ℕ} {maxEntries fuel : ℕ} {path : ι → CStr} {s : Disks ι N}

/-- The epochs of a device, in the order of their first mounts. -/
def epochsOf (i : ι) (s : Disks ι N) : List (Opening ι) := s.dirs.opened.filter fun x => x.dev = i

omit [DecidableEq ι] in
theorem WrittenInEpochs.healthy {a : DisksAct ι N} (ha : WrittenInEpochs s a) : Healthy s a := by
  cases a with
  | work i o => exact ha
  | mount i kzalloc tv => trivial
  | umount i kmalloc => trivial
  | write i b block calls => exact ha.2

theorem reach_healthy (h : (disksMachine hash maxEntries fuel path N).Reach WrittenInEpochs s) :
    (disksMachine hash maxEntries fuel path N).Reach Healthy s := by
  induction h with
  | init hs => exact .init hs
  | step _ ha hstep ih => exact .step ih (WrittenInEpochs.healthy ha) hstep

/-- Each epoch of a device starts where the one before it has ended, and the device is where
the last one has ended. -/
structure Linked (s : Disks ι N) : Prop where
  chain : ∀ i, (s.epochsOf i).IsChain fun x y => s.begun i y.addr = s.ended i x.addr
  last : ∀ i, ∀ x ∈ (s.epochsOf i).getLast?, s.image i = s.ended i x.addr
  running : ∀ i e, (s.dirs.object i).e = some e → ∃ x ∈ (s.epochsOf i).getLast?, x.addr = e.addr

theorem Linked.setObject (h : s.Linked) {i : ι} {data : ObjectData}
    (hsame : ∀ e', data.e = some e' → ∃ e, (s.dirs.object i).e = some e ∧ e'.addr = e.addr) :
    Linked { s with
      dirs := { s.dirs with object := Function.update s.dirs.object i data } } :=
  ⟨h.chain, h.last, open_setObject
    (Q := fun j addr => ∃ x ∈ (s.epochsOf j).getLast?, x.addr = addr) h.running hsame⟩

/-- The first mount of an epoch. -/
theorem Linked.open (h : s.Linked) (hd : s.dirs.Inv hash maxEntries fuel path) {i : ι}
    (he : (s.dirs.object i).e = none) (tv : ClockSec) :
    Linked { s.opens i with dirs := s.dirs.mount i true tv } := by
  have hold (j : ι) (x : Opening ι) (hx : x ∈ s.epochsOf j) :
      (s.opens i).begun j x.addr = s.begun j x.addr ∧
        (s.opens i).ended j x.addr = s.ended j x.addr := by
    have hne : x.addr ≠ s.dirs.nextAddr := (hd.fresh x (List.mem_of_mem_filter hx)).ne
    by_cases hj : j = i
    · subst hj
      simp [opens, ended, Function.update_of_ne hne]
    · simp [opens, ended, Function.update_of_ne hj]
  have hkept (j : ι) : (s.epochsOf j).IsChain fun x y =>
      (s.opens i).begun j y.addr = (s.opens i).ended j x.addr := by
    apply (h.chain j).imp_of_mem_imp
    intro x y hx hy hlink
    rw [(hold j y hy).1, (hold j x hx).2, hlink]
  have hother (j : ι) (hj : j ≠ i) :
      epochsOf j { s.opens i with dirs := s.dirs.mount i true tv } = s.epochsOf j := by
    simp [epochsOf, SnapshotDirs.mount, he, Ne.symm hj]
  have hthis : epochsOf i { s.opens i with dirs := s.dirs.mount i true tv } =
      s.epochsOf i ++ [⟨i, s.dirs.nextAddr, tv⟩] := by
    simp [epochsOf, SnapshotDirs.mount, he]
  have hnew : (s.opens i).begun i s.dirs.nextAddr = s.image i ∧
      (s.opens i).ended i s.dirs.nextAddr = s.image i := by
    simp [opens, ended, applyWrites]
  constructor
  · intro j
    by_cases hj : j = i
    · subst hj
      rw [hthis]
      apply (hkept j).append (List.isChain_singleton _)
      intro x hx y hy
      obtain rfl : _ = y := by simpa using hy
      have hmem : x ∈ s.epochsOf j := List.mem_of_getLast? hx
      exact hnew.1.trans ((h.last j x hx).trans (hold j x hmem).2.symm)
    · rw [hother j hj]
      exact hkept j
  · intro j x hx
    by_cases hj : j = i
    · subst hj
      rw [hthis, List.getLast?_concat, Option.mem_some_iff] at hx
      subst hx
      exact hnew.2.symm
    · rw [hother j hj] at hx
      exact (h.last j x hx).trans (hold j x (List.mem_of_getLast? hx)).2.symm
  · intro j e' he'
    by_cases hj : j = i
    · subst hj
      have hmount := ObjectData.countMount_of_none he (some s.dirs.nextAddr) tv
      simp only [SnapshotDirs.mount, he, and_self, if_true, Function.update_self, hmount,
        Option.map_some, Option.some.injEq] at he'
      subst he'
      exact ⟨⟨j, s.dirs.nextAddr, tv⟩, by rw [hthis, List.getLast?_concat]; rfl, rfl⟩
    · simp only [SnapshotDirs.mount, he, and_self, if_true, Function.update_of_ne hj] at he'
      rw [hother j hj]
      exact h.running j e' he'

/-- A write in the last epoch of a device. -/
theorem Linked.write (h : s.Linked) (hd : s.dirs.Inv hash maxEntries fuel path) {i : ι}
    {e : Epoch} (he : (s.dirs.object i).e = some e) (b : Fin (N i))
    (block : Block singlefilefsBlockSize) : Linked (s.writes i b block) := by
  obtain ⟨x₀, hx₀, haddr₀⟩ := h.running i e he
  have hsince : (s.writes i b block).since = Function.update s.since i
      (Function.update (s.since i) e.addr (s.since i e.addr ++ [(b, block)])) := by
    simp [writes, he]
  have hbegun : (s.writes i b block).begun = s.begun := rfl
  have hepochs (j : ι) : (s.writes i b block).epochsOf j = s.epochsOf j := rfl
  have hkept (j : ι) (addr : ℕ) (hne : j ≠ i ∨ addr ≠ e.addr) :
      (s.writes i b block).ended j addr = s.ended j addr := by
    have hsame : (s.writes i b block).since j addr = s.since j addr := by
      rw [hsince]
      by_cases hj : j = i
      · subst hj
        rw [Function.update_self, Function.update_of_ne (hne.resolve_left fun h => h rfl)]
      · rw [Function.update_of_ne hj]
    rw [ended, hsame, hbegun, ended]
  have himage (j : ι) (hj : j ≠ i) : (s.writes i b block).image j = s.image j :=
    Function.update_of_ne hj _ _
  refine ⟨fun j => ?_, fun j x hx => ?_, h.running⟩
  · have hchain := h.chain j
    rw [hepochs]
    by_cases hj : j = i
    · subst hj
      -- only the relation of the last epoch to a later one would change
      obtain ⟨as, has⟩ := List.getLast?_eq_some_iff.mp hx₀
      have hnodup : ((s.epochsOf j).map Opening.addr).Nodup :=
        hd.nodup.sublist (List.filter_sublist.map _)
      rw [has, List.map_append, List.nodup_append] at hnodup
      have hbefore (x : Opening ι) (hx : x ∈ as) : x.addr ≠ e.addr := by
        rw [← haddr₀]
        exact hnodup.2.2 _ (List.mem_map_of_mem hx) _ (by simp)
      rw [has] at hchain ⊢
      obtain ⟨hfirst, -, hjoin⟩ := List.isChain_append.mp hchain
      apply List.IsChain.append
      · apply hfirst.imp_of_mem_imp
        intro x y hx _ hlink
        rw [hkept j x.addr (.inr (hbefore x hx))]
        exact hlink
      · exact List.isChain_singleton _
      · intro x hx y hy
        rw [hkept j x.addr (.inr (hbefore x (List.mem_of_getLast? hx)))]
        exact hjoin x hx y hy
    · apply hchain.imp
      intro x y hlink
      rw [hkept j x.addr (.inl hj)]
      exact hlink
  · by_cases hj : j = i
    · subst hj
      rw [hepochs] at hx
      obtain rfl : x₀ = x := Option.some.inj (hx₀.symm.trans hx)
      have hlast := h.last j x₀ hx₀
      rw [haddr₀] at hlast ⊢
      show Function.update s.image j (Function.update (s.image j) b block) j =
        applyWrites (s.begun j e.addr) ((s.writes j b block).since j e.addr)
      rw [hsince, Function.update_self, Function.update_self, Function.update_self,
        applyWrites_concat, hlast]
      rfl
    · rw [hepochs] at hx
      rw [himage j hj, hkept j x.addr (.inl hj)]
      exact h.last j x hx

theorem Linked.step (h : s.Linked) (hd : s.dirs.Inv hash maxEntries fuel path) {a : DisksAct ι N}
    (ha : WrittenInEpochs s a) {s' : Disks ι N}
    (hstep : (disksMachine hash maxEntries fuel path N).step s a = some s') : s'.Linked := by
  obtain ⟨d, hdirs, rfl⟩ := Option.map_eq_some_iff.mp hstep
  cases a with
  | mount i kzalloc tv =>
    cases hdirs
    by_cases hopen : (s.dirs.object i).e = none ∧ kzalloc = true
    · obtain ⟨he, rfl⟩ := hopen
      rw [note, if_pos ⟨he, rfl⟩]
      exact h.open hd he tv
    · rw [note, if_neg hopen, SnapshotDirs.mount, if_neg hopen]
      exact h.setObject (ObjectData.countMount_addr tv)
  | umount i kmalloc =>
    cases hdirs
    exact h.setObject ((hd.active i).countUmount_addr kmalloc)
  | write i b block calls =>
    cases hdirs
    obtain ⟨e, he⟩ := Option.ne_none_iff_exists'.mp ha.1
    have hwritten := h.write hd he b block
    simp only [SnapshotDirs.write, he]
    exact ⟨hwritten.chain, hwritten.last, hwritten.running⟩
  | work i o =>
    simp only [dirsMachine, label] at hdirs
    cases hwq : s.dirs.wq i with
    | nil => simp [hwq] at hdirs
    | cons q wq =>
      obtain ⟨addr, w⟩ := q
      simp only [hwq, Option.map_eq_some_iff] at hdirs
      obtain ⟨r, -, rfl⟩ := hdirs
      exact ⟨h.chain, h.last, h.running⟩

theorem linked_of_reach
    (h : (disksMachine hash maxEntries fuel path N).Reach WrittenInEpochs s) : s.Linked := by
  induction h with
  | init hs =>
    obtain ⟨hobject, -, -, hopened⟩ := hs
    constructor
    · simp [epochsOf, hopened]
    · simp [epochsOf, hopened]
    · simp [hobject, initObjectData]
  | step hs ha hstep ih =>
    exact ih.step (SnapshotDirs.inv_of_reachable (dirs_reachable (reach_healthy hs))) ha hstep

section Back
variable {opts : RestoreOpts} {kind : DeviceKind} {stdin : Bytes} {i : ι} {x : Opening ι}

/-- Back over one epoch. -/
theorem restoreEach_cons (h : (disksMachine hash maxEntries fuel path N).Reach Healthy s)
    (hdev : x.dev = i) (hN : N i * singlefilefsBlockSize < 2 ^ 63) (hx : s.Loggable path fuel x)
    (hdrained : s.Drained x) (hopts : opts.All) (attempts : List RestoreAttempt)
    (files : List (List RestoreAttempt × Bytes)) :
    restoreEach opts kind stdin fuel ((attempts, s.content path x) :: files)
        (flatten (s.ended i x.addr)) =
      restoreEach opts kind stdin fuel files (flatten (s.begun i x.addr)) := by
  subst hdev
  obtain ⟨t, hrestore, hdata⟩ := doRestore_epoch h hx hN hdrained hopts kind stdin attempts
  rw [restoreEach, hrestore]
  simp only [hdata]

/-- Back over the epochs behind `x` and over `x` itself. -/
theorem restoreEach_chain (h : (disksMachine hash maxEntries fuel path N).Reach Healthy s)
    (hN : N i * singlefilefsBlockSize < 2 ^ 63) (hopts : opts.All)
    (attempts : Opening ι → List RestoreAttempt) {ys : List (Opening ι)} {img : Image (N i)}
    (hys : ∀ y ∈ x :: ys, y.dev = i ∧ s.Loggable path fuel y ∧ s.Drained y)
    (hchain : (x :: ys).IsChain fun y z => s.begun i z.addr = s.ended i y.addr)
    (hlast : ∀ y ∈ (x :: ys).getLast?, img = s.ended i y.addr) :
    restoreEach opts kind stdin fuel
        ((x :: ys).reverse.map fun y => (attempts y, s.content path y)) (flatten img) =
      some (flatten (s.begun i x.addr)) := by
  induction ys using List.reverseRecOn generalizing img with
  | nil =>
    obtain ⟨hdev, hlog, hdrained⟩ := hys x List.mem_cons_self
    rw [hlast x rfl]
    exact restoreEach_cons h hdev hN hlog hdrained hopts (attempts x) []
  | append_singleton ys y ih =>
    obtain ⟨hdev, hlog, hdrained⟩ := hys y (by simp)
    have hsplit : x :: (ys ++ [y]) = (x :: ys) ++ [y] := rfl
    rw [hsplit] at hchain hlast ⊢
    obtain ⟨hbefore, -, hjoin⟩ := List.isChain_append.mp hchain
    rw [hlast y List.getLast?_concat, List.reverse_append, List.reverse_singleton, List.map_append,
      List.map_singleton, List.singleton_append,
      restoreEach_cons h hdev hN hlog hdrained hopts (attempts y)]
    apply ih
    · intro z hz
      apply hys z
      rw [hsplit]
      exact List.mem_append_left _ hz
    · exact hbefore
    · intro z hz
      exact hjoin z hz y rfl

end Back

end Disks

/-- Restoring the files of the epochs of a device from the last one back to `x`, each of them
after any attempts at it, takes its present image to the one at the first mount of `x`. -/
theorem point_in_time {hash : UInt64 → ℕ} {maxEntries fuel : ℕ} {path : ι → CStr}
    {s : Disks ι N} (h : (disksMachine hash maxEntries fuel path N).Reach WrittenInEpochs s)
    {i : ι} (hN : N i * singlefilefsBlockSize < 2 ^ 63) {xs ys : List (Opening ι)} {x : Opening ι}
    (hsplit : s.epochsOf i = xs ++ x :: ys)
    (hys : ∀ y ∈ x :: ys, s.Loggable path fuel y ∧ s.Drained y) {opts : RestoreOpts}
    (hopts : opts.All) (kind : DeviceKind) (stdin : Bytes)
    (attempts : Opening ι → List RestoreAttempt) :
    restoreEach opts kind stdin fuel
        ((x :: ys).reverse.map fun y => (attempts y, s.content path y)) (flatten (s.image i)) =
      some (flatten (s.begun i x.addr)) := by
  have hlinked := Disks.linked_of_reach h
  have hchain := hlinked.chain i
  rw [hsplit] at hchain
  apply Disks.restoreEach_chain (Disks.reach_healthy h) hN hopts
  · intro y hy
    have hmem : y ∈ s.epochsOf i := by
      rw [hsplit]
      exact List.mem_append_right _ hy
    exact ⟨by simpa using (List.mem_filter.mp hmem).2, hys y hy⟩
  · exact hchain.right_of_append
  · intro y hy
    apply hlinked.last i
    rw [hsplit, List.getLast?_append, hy]
    rfl

/-- An image that is mounted and written to twice. -/
def imgTwice : List (DisksAct Bool fun _ => 1) :=
  [.mount false true ⟨11, by decide⟩, .write false (Fin.last 0) (filledBlock 1) .allDone,
    .umount false true, .work false .allDone, .mount false true ⟨13, by decide⟩,
    .write false (Fin.last 0) (filledBlock 2) .allDone,
    .write false (Fin.last 0) (filledBlock 3) .allDone, .umount false true,
    .work false .allDone, .work false .allDone]

/-- Whether a write is made in an epoch, and its block gets into the queue. -/
def inEpoch (s : Disks Bool fun _ => 1) : DisksAct Bool (fun _ => 1) → Bool
  | .write i _ _ calls => (s.dirs.object i).e.isSome && calls == .allDone
  | _ => true

theorem imgTwice_writtenInEpochs :
    (disksMachine (fun _ => 0) 4 4 imgPath fun _ => 1).Meets WrittenInEpochs imgDisks imgTwice := by
  have hmeets : (disksMachine (fun _ => 0) 4 4 imgPath fun _ => 1).Meets
      (fun s a => inEpoch s a = true) imgDisks imgTwice := by decide +kernel
  apply hmeets.imp_mem
  intro s a ha hin
  cases a with
  | work i o =>
    have ho : o = .allDone := by
      simp only [imgTwice, List.mem_cons, reduceCtorEq, DisksAct.work.injEq, List.not_mem_nil,
        or_false, false_or] at ha
      rcases ha with ⟨-, ho⟩ | ⟨-, ho⟩ | ⟨-, ho⟩
      · exact ho
      · exact ho
      · exact ho
    rw [ho]
    exact WorkOutcomes.allDone_succeeds
  | mount i kzalloc tv => trivial
  | umount i kmalloc => trivial
  | write i b block calls =>
    obtain ⟨hopen, hcalls⟩ := Bool.and_eq_true_iff.mp hin
    exact ⟨Option.isSome_iff_ne_none.mp hopen, eq_of_beq hcalls⟩

/-- The second file is restored first, after a run that stopped in the middle of a write. -/
theorem point_in_time_twice :
    ∃ s x y, (disksMachine (fun _ => 0) 4 4 imgPath fun _ => 1).run imgDisks imgTwice = some s ∧
      s.epochsOf false = [x, y] ∧
      restoreEach ⟨true, 0, false⟩ .block [] 4 ([x, y].reverse.map fun z =>
          ([⟨⟨true, 0, false⟩, [], fun _ => ⟨.done, true, .done, .short 9⟩, 1⟩],
            s.content imgPath z)) (flatten (s.image false)) =
        some (flatten (s.begun false x.addr)) := by
  have hrun := Machine.run_eq_getD (disksMachine (fun _ => 0) 4 4 imgPath fun _ => 1) imgDisks
    imgTwice (by decide +kernel)
  generalize hs : ((disksMachine (fun _ => 0) 4 4 imgPath fun _ => 1).run imgDisks
    imgTwice).getD imgDisks = s at hrun
  have hopened : s.dirs.opened.map (fun x => (x.dev, x.addr, x.dir imgPath)) =
      [(false, 0, "img-1970-01-01_00:00:11".toList),
        (false, 1, "img-1970-01-01_00:00:13".toList)] := by
    rw [← hs]
    decide +kernel
  have hwq : s.dirs.wq false = [] := by
    rw [← hs]
    decide +kernel
  have hsince : (s.since false 0).length = 1 ∧ (s.since false 1).length = 2 := by
    rw [← hs]
    decide +kernel
  have hinit : (disksMachine (fun _ => 0) 4 4 imgPath fun _ => 1).init imgDisks :=
    imgDirs_init (fun _ => 0) 4 4
  have hreach := Machine.Reach.run (.init hinit) imgTwice_writtenInEpochs hrun
  obtain ⟨x, rest, hxs, hx, hrest⟩ := List.map_eq_cons_iff.mp hopened
  obtain ⟨y, last, hys, hy, hlast⟩ := List.map_eq_cons_iff.mp hrest
  obtain rfl := List.map_eq_nil_iff.mp hlast
  subst hys
  obtain ⟨hxdev, hxaddr, hxdir⟩ : x.dev = false ∧ x.addr = 0 ∧
      x.dir imgPath = "img-1970-01-01_00:00:11".toList := by simpa using hx
  obtain ⟨hydev, hyaddr, hydir⟩ : y.dev = false ∧ y.addr = 1 ∧
      y.dir imgPath = "img-1970-01-01_00:00:13".toList := by simpa using hy
  have hepochs : s.epochsOf false = [] ++ x :: [y] := by
    simp [Disks.epochsOf, hxs, hxdev, hydev]
  have happart : ¬ x.Collides imgPath y := by
    rw [← Opening.dir_eq_iff, hxdir, hydir]
    decide
  have happart' : ¬ y.Collides imgPath x := by
    rw [← Opening.dir_eq_iff, hxdir, hydir]
    decide
  have hdrained (z : Opening Bool) (hz : z.dev = false) : s.Drained z := by
    rw [Disks.Drained, hz, hwq]
    simp
  refine ⟨s, x, y, hrun, hepochs, point_in_time hreach (by decide) hepochs ?_ ⟨rfl, rfl⟩ .block []
    fun _ => _⟩
  intro z hz
  rcases List.mem_cons.mp hz with rfl | hz
  · refine ⟨⟨by simp [hxs], ?_, ?_, ?_⟩, hdrained z hxdev⟩
    · simpa [hxs] using fun _ => happart'
    · rw [hxdev, hxaddr, hsince.1]
      decide
    · rw [hxdev, hxaddr, hsince.1]
      decide
  · obtain rfl := List.mem_singleton.mp hz
    refine ⟨⟨by simp [hxs], ?_, ?_, ?_⟩, hdrained z hydev⟩
    · simpa [hxs] using fun _ => happart
    · rw [hydev, hyaddr, hsince.2]
      decide
    · rw [hydev, hyaddr, hsince.2]
      decide

end BlkdevSnapshot

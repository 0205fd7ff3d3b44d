import BlkdevSnapshot.ParseInPlace

/-!
# Requests through the character device

`activation_chrdev_ioctl` reads the length of the request from user memory three times:
for the allocation, for the copy and for the parser. The process can change it between
the reads, so the model takes three lengths.
-/
namespace BlkdevSnapshot
open CheckedBuffer

/-- `INT_MAX` -/
def intMax : ℕ := 2 ^ 31 - 1

/-- `ACTIVATE_CHRDEV_IOCTL_CMD` -/
def activateChrdevIoctlCmd : UInt32 := 0

/-- `DEACTIVATE_CHRDEV_IOCTL_CMD` -/
def deactivateChrdevIoctlCmd : UInt32 := 1

/-- A request: the command, what each read of `user_args->datalen` returns, and the bytes that
can be read behind `user_args->data` during the copy. The reads through `arg` itself do not
fault: the argument is mapped, and the CPU lets the kernel read it in place. -/
structure IoctlRequest where
  cmd : UInt32
  datalenAlloc : UInt64
  datalenCopy : UInt64
  datalenCall : UInt64
  data : Bytes

/-- `copy_from_user`: the number of bytes that are not copied, and the buffer. Sizes above
`INT_MAX` are refused; behind the bytes that can be read the buffer is set to zero. -/
def copyFromUser (b : Buffer) (data : Bytes) (n : ℕ) : Except AccessFault (ℕ × Buffer) :=
  if intMax < n then .ok (n, b)
  else do
    let b ← b.overwrite (data.take n ++ List.replicate (n - data.length) 0)
    .ok (n - data.length, b)

/-- `activation_chrdev_ioctl` -/
def activationChrdevIoctl (kmalloc : Bool) (d : Devices) (r : IoctlRequest)
    (callback : Request → Bytes → CString → ℤ × Devices) : Except AccessFault (ℤ × Devices) :=
  if r.cmd ≠ activateChrdevIoctlCmd ∧ r.cmd ≠ deactivateChrdevIoctlCmd then .ok (einval.code, d)
  else if !kmalloc || kmallocMaxSize < r.datalenAlloc.toNat then .ok (enomem.code, d)
  else do
    let copied ← copyFromUser (.empty r.datalenAlloc.toNat) r.data r.datalenCopy.toNat
    if copied.1 ≠ 0 then .ok (efault.code, d)
    else
      let fn := callback
        (if r.cmd = activateChrdevIoctlCmd then .activateSnapshot else .deactivateSnapshot)
      callWrapperInPlace d copied.2 r.datalenCall.toNat fn

/-- The three lengths agree as far as they are used: the copy, unless it is refused, is no longer
than the buffer, and after a whole copy the parser gets a length that is copied. -/
structure IoctlRequest.LengthsAgree (r : IoctlRequest) : Prop where
  copy : r.datalenCopy.toNat ≤ intMax → r.datalenCopy.toNat ≤ r.datalenAlloc.toNat
  call : r.datalenCopy.toNat ≤ intMax → r.datalenCopy.toNat ≤ r.data.length →
    0 < r.datalenCall.toNat ∧ r.datalenCall.toNat ≤ r.datalenCopy.toNat

/-- The request gets as far as to a buffer. -/
structure IoctlRequest.Allocates (kmalloc : Bool) (r : IoctlRequest) : Prop where
  cmd : r.cmd = activateChrdevIoctlCmd ∨ r.cmd = deactivateChrdevIoctlCmd
  kmalloc : kmalloc = true
  size : r.datalenAlloc.toNat ≤ kmallocMaxSize

section Wrapper
variable {b : Buffer} {datalen : ℕ}

/-- The wrapper stays in the filled part of the buffer exactly if the parser starts there. -/
theorem callWrapperInPlace_ok_iff (d : Devices) (callback : Bytes → CString → ℤ × Devices)
    (hsize : b.cells.length < 2 ^ 64) :
    (∃ reply, callWrapperInPlace d b datalen callback = .ok reply) ↔
      0 < datalen ∧ datalen ≤ b.cells.length := by
  constructor
  · rintro ⟨reply, hreply⟩
    by_contra hout
    have hfault := parseCallArgsInPlace_fault hout hsize
    simp only [callWrapperInPlace, hfault, bind, Except.bind] at hreply
    cases hreply
  · rintro ⟨hpos, hle⟩
    obtain ⟨r, b', hparse, hyields⟩ := parseCallArgsInPlace_yields hpos hle
    generalize (if b.cells[datalen - 1]? ≠ some 0 then none else splitCallArgs b.cells) = args
      at hyields
    simp only [callWrapperInPlace, hparse, bind, Except.bind]
    cases args with
    | none =>
      obtain rfl : r = .error einval := hyields
      exact ⟨_, rfl⟩
    | some args =>
      obtain ⟨lhs, rhs, rfl, hlhs, hrhs⟩ := hyields
      simp only [hlhs, hrhs]
      exact ⟨_, rfl⟩

end Wrapper

section Copy
variable {data : Bytes} {n size : ℕ}

theorem length_copied (data : Bytes) (n : ℕ) :
    (data.take n ++ List.replicate (n - data.length) (0 : UInt8)).length = n := by
  rw [List.length_append, List.length_take, List.length_replicate]
  omega

theorem copyFromUser_refused (b : Buffer) (data : Bytes) (h : intMax < n) :
    copyFromUser b data n = .ok (n, b) := if_pos h

theorem copyFromUser_outside (data : Bytes) (hmax : n ≤ intMax) (h : size < n) :
    copyFromUser (.empty size) data n = .error .outside := by
  have hlen := length_copied data n
  have hout : ¬ (data.take n ++ List.replicate (n - data.length) 0).length ≤
      (Buffer.empty size).size := by
    have hsize : (Buffer.empty size).size = size := rfl
    omega
  simp only [copyFromUser, if_neg (not_lt.mpr hmax), Buffer.overwrite, dif_neg hout, bind,
    Except.bind]

theorem copyFromUser_inside (data : Bytes) (hmax : n ≤ intMax) (h : n ≤ size) :
    ∃ b, copyFromUser (.empty size) data n = .ok (n - data.length, b) ∧ b.size = size ∧
      b.cells = data.take n ++ List.replicate (n - data.length) 0 := by
  have hlen : (data.take n ++ List.replicate (n - data.length) 0).length ≤ size := by
    rwa [length_copied]
  obtain ⟨b, hwrite, hsize, hcells⟩ := Buffer.overwrite_empty hlen
  refine ⟨b, ?_, hsize, hcells⟩
  simp only [copyFromUser, if_neg (not_lt.mpr hmax), hwrite, bind, Except.bind]

end Copy

section Ioctl
variable {kmalloc : Bool} {r : IoctlRequest}

/-- A request that gets no buffer touches none. -/
theorem activationChrdevIoctl_refused (h : ¬ r.Allocates kmalloc) (d : Devices)
    (callback : Request → Bytes → CString → ℤ × Devices) :
    ∃ reply, activationChrdevIoctl kmalloc d r callback = .ok reply := by
  unfold activationChrdevIoctl
  split
  · exact ⟨_, rfl⟩
  · rename_i hcmd
    split
    · exact ⟨_, rfl⟩
    · rename_i hmalloc
      rw [Bool.or_eq_true, not_or] at hmalloc
      exact absurd ⟨by tauto, by simpa using hmalloc.1, by simpa using hmalloc.2⟩ h

/-- With a buffer the request goes on to the copy. -/
theorem activationChrdevIoctl_allocated (h : r.Allocates kmalloc) (d : Devices)
    (callback : Request → Bytes → CString → ℤ × Devices) :
    activationChrdevIoctl kmalloc d r callback =
      (copyFromUser (.empty r.datalenAlloc.toNat) r.data r.datalenCopy.toNat).bind fun copied =>
        if copied.1 ≠ 0 then .ok (efault.code, d)
        else callWrapperInPlace d copied.2 r.datalenCall.toNat (callback
          (if r.cmd = activateChrdevIoctlCmd then .activateSnapshot else .deactivateSnapshot)) := by
  have hcmd : ¬ (r.cmd ≠ activateChrdevIoctlCmd ∧ r.cmd ≠ deactivateChrdevIoctlCmd) := by
    have hcmd := h.cmd
    tauto
  have hmalloc : ¬ (!kmalloc || kmallocMaxSize < r.datalenAlloc.toNat) = true := by
    simpa [h.kmalloc] using h.size
  rw [activationChrdevIoctl, if_neg hcmd, if_neg hmalloc]
  rfl

/-- No access of a request is outside its buffer or to a byte that was not copied exactly if
the lengths agree. -/
theorem activationChrdevIoctl_inside_iff (kmalloc : Bool) (d : Devices) (r : IoctlRequest)
    (callback : Request → Bytes → CString → ℤ × Devices) :
    (∃ reply, activationChrdevIoctl kmalloc d r callback = .ok reply) ↔
      (r.Allocates kmalloc → r.LengthsAgree) := by
  by_cases halloc : r.Allocates kmalloc
  · rw [activationChrdevIoctl_allocated halloc, forall_prop_of_true halloc]
    generalize callback _ = fn
    by_cases hmax : r.datalenCopy.toNat ≤ intMax
    · by_cases hle : r.datalenCopy.toNat ≤ r.datalenAlloc.toNat
      · obtain ⟨b, hcopy, -, hcells⟩ := copyFromUser_inside r.data hmax hle
        have hlen : b.cells.length = r.datalenCopy.toNat := by rw [hcells, length_copied]
        have hsize : b.cells.length < 2 ^ 64 := by
          rw [hlen]
          exact r.datalenCopy.toNat_lt
        rw [hcopy, Except.bind]
        by_cases hwhole : r.datalenCopy.toNat ≤ r.data.length
        · rw [if_neg (by simpa using Nat.sub_eq_zero_of_le hwhole),
            callWrapperInPlace_ok_iff d fn hsize, hlen]
          exact ⟨fun hcall => ⟨fun _ => hle, fun _ _ => hcall⟩, fun h => h.call hmax hwhole⟩
        · rw [if_pos (Nat.sub_ne_zero_of_lt (not_le.mp hwhole))]
          exact iff_of_true ⟨_, rfl⟩ ⟨fun _ => hle, fun _ hdata => absurd hdata hwhole⟩
      · rw [copyFromUser_outside r.data hmax (not_le.mp hle)]
        refine iff_of_false ?_ fun h => hle (h.copy hmax)
        rintro ⟨reply, hreply⟩
        cases hreply
    · have hlarge : intMax < r.datalenCopy.toNat := not_le.mp hmax
      have hne : r.datalenCopy.toNat ≠ 0 := by omega
      rw [copyFromUser_refused _ r.data hlarge, Except.bind, if_pos hne]
      exact iff_of_true ⟨_, rfl⟩ ⟨fun h => absurd h hmax, fun h => absurd h hmax⟩
  · exact iff_of_true (activationChrdevIoctl_refused halloc d callback) fun h => absurd h halloc

/-- A length of zero; a longer copy than the buffer; a longer length for the parser than for
the copy. -/
theorem not_activationChrdevIoctl_inside :
    activationChrdevIoctl true noDevices ⟨0, 0, 0, 0, []⟩ (fun _ _ _ => (0, noDevices)) =
      .error .outside ∧
    activationChrdevIoctl true noDevices ⟨0, 1, 2, 2, [0, 0]⟩ (fun _ _ _ => (0, noDevices)) =
      .error .outside ∧
    activationChrdevIoctl true noDevices ⟨0, 2, 1, 2, [0, 0]⟩ (fun _ _ _ => (0, noDevices)) =
      .error .unset :=
  ⟨by rfl, by rfl, by rfl⟩

/-- A request whose length does not change does what a write to the file does. -/
theorem activationChrdevIoctl_stable (kmalloc : Bool) (d : Devices) {cmd : UInt32} {n : UInt64}
    {data : Bytes} (callback : Request → Bytes → CString → ℤ × Devices)
    (hcmd : cmd = activateChrdevIoctlCmd ∨ cmd = deactivateChrdevIoctlCmd) (hpos : 0 < n.toNat)
    (hdata : n.toNat ≤ data.length) :
    activationChrdevIoctl kmalloc d ⟨cmd, n, n, n, data⟩ callback =
      .ok (sysfsCallWrapper kmalloc d (data.take n.toNat) (callback
        (if cmd = activateChrdevIoctlCmd then .activateSnapshot else .deactivateSnapshot))) := by
  have hlen : (data.take n.toNat).length = n.toNat := List.length_take_of_le hdata
  by_cases hmalloc : kmalloc = true ∧ n.toNat ≤ kmallocMaxSize
  · have hmax : n.toNat ≤ intMax := hmalloc.2.trans (by decide)
    obtain ⟨b, hcopy, hsize, hcells⟩ := copyFromUser_inside data hmax le_rfl
    have hb : b = .filled (data.take n.toNat) := by
      rw [Nat.sub_eq_zero_of_le hdata, List.replicate_zero, List.append_nil] at hcells
      obtain ⟨size, cells, fits⟩ := b
      obtain rfl : cells = data.take n.toNat := hcells
      obtain rfl : size = n.toNat := hsize
      simp only [Buffer.filled, hlen]
    have hne : data.take n.toNat ≠ [] := by
      rw [← List.length_pos_iff, hlen]
      exact hpos
    have hwrap := callWrapperInPlace_filled d hne
    have hlarge : ¬ (!kmalloc || kmallocMaxSize < n.toNat) = true := by simpa using hmalloc
    rw [activationChrdevIoctl_allocated ⟨hcmd, hmalloc.1, hmalloc.2⟩, hcopy, Except.bind, hb,
      if_neg (by simpa using Nat.sub_eq_zero_of_le hdata), sysfsCallWrapper, hlen, if_neg hlarge]
    rw [hlen] at hwrap
    exact hwrap _
  · have hsmall : (!kmalloc || kmallocMaxSize < n.toNat) = true := by
      simpa [imp_iff_not_or, not_le] using hmalloc
    have hknown : ¬ (cmd ≠ activateChrdevIoctlCmd ∧ cmd ≠ deactivateChrdevIoctlCmd) := by tauto
    rw [activationChrdevIoctl, if_neg hknown, if_pos hsmall, sysfsCallWrapper, hlen, if_pos hsmall]

end Ioctl

end BlkdevSnapshot

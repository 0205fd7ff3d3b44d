import BlkdevSnapshot.ParseInPlace

/-!
# The message of the activation tool

The tool checks its arguments, joins them with a carriage return and sends the string
with its zero, through sysfs or through the character device. The module takes the
message apart again, trimming the path with the kernel's own notion of white space.
-/
namespace BlkdevSnapshot
open CheckedBuffer

/-- `do_basic_checks_on`: the message of a failed check. -/
def doBasicChecksOn (path passwd : Option CString) : Except String Unit :=
  match passwd, path with
  | none, _ => .error "a password is required (see opt \"-p\")"
  | some _, none =>
    .error "a device (posix node) or regular file path is required (see opt \"-f\")"
  | some passwd, some path =>
    if 13 ∈ passwd.1 then .error "passwords cannot contain a carriage return (aka \"\\r\")"
    else if 13 ∈ path.1 then .error "filepaths cannot contain a carriage return (aka \"\\r\")"
    else .ok ()

/-- `concat`: a zeroed buffer with what `snprintf` puts there. -/
def concat (malloc : Bool) (a b : CString) : Option Bytes :=
  let s := a.1.length + b.1.length + 2
  if !malloc then none
  else some (overwrite (List.replicate s 0) 0 ((a.1 ++ 13 :: b.1).take (s - 1) ++ [0]))

/-- The `strlen(str) + 1` bytes that `__do_sysfs` writes and `__do_chrdev` passes on. -/
def sentBytes (str : Bytes) : Bytes := str.take ((cString str).1.length + 1)

section Message
variable {path passwd : CString}

theorem concat_true (a b : CString) :
    concat true a b = some (a.1 ++ 13 :: (b.1 ++ [0])) := by
  have htext : (a.1 ++ 13 :: b.1).take (a.1.length + b.1.length + 2 - 1) = a.1 ++ 13 :: b.1 := by
    apply List.take_of_length_le
    simp only [List.length_append, List.length_cons]
    omega
  have hsplit : a.1 ++ 13 :: (b.1 ++ [0]) = (a.1 ++ 13 :: b.1) ++ [0] := by simp
  have hwrite := overwrite_segment [] (List.replicate (a.1.length + b.1.length + 2) 0)
    (a.1 ++ 13 :: b.1 ++ [0]) [] (by simp; omega)
  simp only [List.nil_append, List.append_nil, List.length_nil] at hwrite
  rw [concat, htext, hwrite, hsplit]
  rfl

/-- The whole buffer is sent. -/
theorem sentBytes_concat (a b : CString) :
    sentBytes (a.1 ++ 13 :: (b.1 ++ [0])) = a.1 ++ 13 :: (b.1 ++ [0]) := by
  have hzero : 0 ∉ a.1 ++ 13 :: b.1 := by
    simp only [List.mem_append, List.mem_cons, not_or]
    exact ⟨a.2, by decide, b.2⟩
  have hsplit : a.1 ++ 13 :: (b.1 ++ [0]) = (a.1 ++ 13 :: b.1) ++ [0] := by simp
  have hstr : (cString (a.1 ++ 13 :: (b.1 ++ [0]))).1 = a.1 ++ 13 :: b.1 := by
    rw [hsplit]
    exact takeWhile_ne_append hzero []
  rw [sentBytes, hstr]
  apply List.take_of_length_le
  simp only [List.length_append, List.length_cons, List.length_nil]
  omega

theorem doBasicChecksOn_ok (h : doBasicChecksOn (some path) (some passwd) = .ok ()) :
    13 ∉ path.1 ∧ 13 ∉ passwd.1 := by
  unfold doBasicChecksOn at h
  simp only at h
  split at h
  · cases h
  · rename_i hpw
    split at h
    · cases h
    · rename_i hpath
      exact ⟨hpath, hpw⟩

/-- From an accepted path with something else than white space the module gets the path
without the white space at its ends, and exactly the password. -/
theorem parseCallArgsInPlace_sent (hchecks : doBasicChecksOn (some path) (some passwd) = .ok ())
    (hname : ∃ x ∈ path.1, isspace x = false) :
    ∃ str lhs rhs b, concat true path passwd = some str ∧
      parseCallArgsInPlace (.filled (sentBytes str)) (sentBytes str).length =
        .ok (.ok (lhs, rhs), b) ∧
      b.cstr lhs = .ok (strim path) ∧ b.cstr rhs = .ok passwd.1 ∧
      (strim path = path.1 ↔ (∀ x ∈ path.1.head?, isspace x = false) ∧
        ∀ x ∈ path.1.getLast?, isspace x = false) := by
  have hcr := (doBasicChecksOn_ok hchecks).1
  have hzero : 0 ∉ path.1 ++ 13 :: passwd.1 := by
    simp only [List.mem_append, List.mem_cons, not_or]
    exact ⟨path.2, by decide, passwd.2⟩
  have hne : path.1 ++ 13 :: (passwd.1 ++ [0]) ≠ [] := by simp
  have hnonblank : strim path.1 ≠ [] := strim_ne_nil_iff.mpr hname
  have hlast : (path.1 ++ 13 :: (passwd.1 ++ [0])).getLast? = some 0 := by
    rw [List.getLast?_append]
    simp [List.getLast?_cons]
  have hargs : parseCallArgs (path.1 ++ 13 :: (passwd.1 ++ [0])) =
      some (strim path.1, cString (passwd.1 ++ [0])) := by
    rw [parseCallArgs_eq, if_neg (by simp [hlast]), splitCallArgs_append hcr hzero,
      if_neg hnonblank]
  have hpw : (cString (passwd.1 ++ [0])).1 = passwd.1 := takeWhile_ne_append passwd.2 []
  obtain ⟨r, b, hparse, hyields⟩ := parseCallArgsInPlace_filled hne
  rw [hargs] at hyields
  obtain ⟨lhs, rhs, rfl, hlhs, hrhs⟩ := hyields
  rw [hpw] at hrhs
  refine ⟨_, lhs, rhs, b, concat_true path passwd, ?_, hlhs, hrhs, trim_eq_self_iff⟩
  rw [sentBytes_concat]
  exact hparse

/-- The path `/d` and the password `pw`. -/
theorem parseCallArgsInPlace_sent_sample :
    ∃ str lhs rhs b, concat true ⟨[47, 100], by decide⟩ samplePasswd = some str ∧
      parseCallArgsInPlace (.filled (sentBytes str)) (sentBytes str).length =
        .ok (.ok (lhs, rhs), b) ∧
      b.cstr lhs = .ok [47, 100] ∧ b.cstr rhs = .ok [112, 119] ∧
      (strim [47, 100] = [47, 100] ↔ (∀ x ∈ [47, 100].head?, isspace x = false) ∧
        ∀ x ∈ [47, 100].getLast?, isspace x = false) :=
  @parseCallArgsInPlace_sent ⟨[47, 100], by decide⟩ samplePasswd rfl ⟨47, by decide, by decide⟩

/-- Of the path `/d` with a blank behind it the module gets `/d`. -/
theorem not_parseCallArgsInPlace_sent :
    doBasicChecksOn (some ⟨[47, 100, 32], by decide⟩) (some samplePasswd) = .ok () ∧
    (∃ x ∈ ([47, 100, 32] : Bytes), isspace x = false) ∧
    ∃ str, concat true ⟨[47, 100, 32], by decide⟩ samplePasswd = some str ∧
      (sentBytes str).length ≤ 4096 ∧
      ∃ lhs rhs b, parseCallArgsInPlace (.filled (sentBytes str)) (sentBytes str).length =
          .ok (.ok (lhs, rhs), b) ∧
        b.cstr lhs = .ok [47, 100] :=
  ⟨rfl, ⟨47, by decide, by decide⟩, [47, 100, 32, 13, 112, 119, 0], by decide, by decide,
    0, 4, .filled [47, 100, 0, 0, 112, 119, 0], by rfl, by rfl⟩

end Message

end BlkdevSnapshot

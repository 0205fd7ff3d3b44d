import BlkdevSnapshot.Activation
import BlkdevSnapshot.CheckedBuffer

/-!
# Parsing the arguments in place

`parse_call_args` looks for the separator, overwrites it and trims the name, all in the
buffer that it is given. Here it runs on a buffer with checked accesses and leaves
pointers into it; the strings that they point to are those of the parser on lists.
-/
namespace BlkdevSnapshot
open CheckedBuffer

/-- `datalen - 1` as a `size_t`. -/
def lastIndex (datalen : ℕ) : ℕ := if datalen = 0 then 2 ^ 64 - 1 else datalen - 1

/-- `parse_call_args` on a buffer: the pointers to the device name and to the password,
and the buffer afterwards. -/
def parseCallArgsInPlace (b : Buffer) (datalen : ℕ) :
    Except AccessFault (Except Errno (ℕ × ℕ) × Buffer) := do
  let last ← b.load (lastIndex datalen)
  if last ≠ 0 then .ok (.error einval, b)
  else
    let separator ← b.strchr 0 13
    match separator with
    | none => .ok (.error einval, b)
    | some separator =>
      let b ← b.store separator 0
      let trimmed ← Buffer.strim isspace b 0
      let c ← trimmed.2.load trimmed.1
      if c = 0 then .ok (.error einval, trimmed.2)
      else .ok (.ok (trimmed.1, separator + 1), trimmed.2)

/-- `call_wrapper` on a buffer; the callback reads both strings. -/
def callWrapperInPlace (d : Devices) (b : Buffer) (datalen : ℕ)
    (callback : Bytes → CString → ℤ × Devices) : Except AccessFault (ℤ × Devices) := do
  let parsed ← parseCallArgsInPlace b datalen
  match parsed.1 with
  | .error _ => .ok (einval.code, d)
  | .ok args =>
    let devn ← parsed.2.cstr args.1
    let pwd ← parsed.2.cstr args.2
    let called := callback devn (cString pwd)
    .ok (if called.1 ≠ 0 then called else (intOfSize datalen, called.2))

/-- `__sysfs_call_wrapper` with its `memcpy` to a buffer that it allocates. -/
def sysfsCallWrapperInPlace (kmalloc : Bool) (d : Devices) (data : Bytes)
    (fn : Bytes → CString → ℤ × Devices) : Except AccessFault (ℤ × Devices) :=
  if !kmalloc || kmallocMaxSize < data.length then .ok (enomem.code, d)
  else do
    let buf ← (Buffer.empty data.length).overwrite data
    callWrapperInPlace d buf data.length fn

/-- What `parse_call_args` accepts: a zero at the end, a carriage return before the first
zero, and before the first carriage return something else than white space. -/
structure CallArgsGrammar (data : Bytes) : Prop where
  terminated : data.getLast? = some 0
  separated : 13 ∈ data.takeWhile (· ≠ 0)
  named : ∃ x ∈ data.takeWhile (· ≠ 13), isspace x = false

/-- The arguments in a buffer that holds a zero. -/
def splitCallArgs (data : Bytes) : Option (Bytes × CString) :=
  if 13 ∉ (cString data).1 then none
  else
    let lhs := (cString data).1.takeWhile (· ≠ 13)
    if strim lhs = [] then none else some (strim lhs, cString (data.drop (lhs.length + 1)))

/-- The result of the parser in place is the given one of the parser on lists. -/
def Yields (r : Except Errno (ℕ × ℕ)) (b : Buffer) : Option (Bytes × CString) → Prop
  | none => r = .error einval
  | some args => ∃ lhs rhs, r = .ok (lhs, rhs) ∧ b.cstr lhs = .ok args.1 ∧ b.cstr rhs = .ok args.2.1

section Lists
variable {as bs : Bytes} {x : UInt8}

theorem takeWhile_ne_append (has : x ∉ as) (bs : Bytes) :
    (as ++ x :: bs).takeWhile (· ≠ x) = as := by
  rw [List.takeWhile_append_of_pos]
  · simp
  · intro a ha
    simpa using ne_of_mem_of_not_mem ha has

theorem parseCallArgs_eq (data : Bytes) :
    parseCallArgs data = if data.getLast? ≠ some 0 then none else splitCallArgs data := rfl

theorem splitCallArgs_of_notMem (has : 0 ∉ as) (h : 13 ∉ as) (bs : Bytes) :
    splitCallArgs (as ++ 0 :: bs) = none := by
  have htext : (cString (as ++ 0 :: bs)).1 = as := takeWhile_ne_append has bs
  rw [splitCallArgs, htext, if_pos h]

theorem splitCallArgs_append {lhs rhs : Bytes} (hlhs : 13 ∉ lhs) (hzero : 0 ∉ lhs ++ 13 :: rhs)
    (bs : Bytes) :
    splitCallArgs (lhs ++ 13 :: (rhs ++ 0 :: bs)) =
      if strim lhs = [] then none else some (strim lhs, cString (rhs ++ 0 :: bs)) := by
  have hdata : lhs ++ 13 :: (rhs ++ 0 :: bs) = (lhs ++ 13 :: rhs) ++ 0 :: bs := by simp
  have htext : (cString (lhs ++ 13 :: (rhs ++ 0 :: bs))).1 = lhs ++ 13 :: rhs := by
    rw [hdata]
    exact takeWhile_ne_append hzero bs
  have hdrop : (lhs ++ 13 :: (rhs ++ 0 :: bs)).drop (lhs.length + 1) = rhs ++ 0 :: bs := by
    simp [List.drop_append]
  rw [splitCallArgs, htext, if_neg (by simp), takeWhile_ne_append hlhs]
  simp only [hdrop]

end Lists

section Parse
variable {b : Buffer} {datalen : ℕ}

/-- The parser on a buffer with a separator in front of its first zero. -/
theorem parseCallArgsInPlace_separated {lhs rhs tail : Bytes}
    (hload : b.load (lastIndex datalen) = .ok 0)
    (hcells : b.cells = lhs ++ 13 :: (rhs ++ 0 :: tail)) (hlhs : 13 ∉ lhs)
    (htext : 0 ∉ lhs ++ 13 :: rhs) :
    ∃ r b', parseCallArgsInPlace b datalen = .ok (r, b') ∧ Yields r b'
      (if strim lhs = [] then none else some (strim lhs, cString (rhs ++ 0 :: tail))) := by
  have hzerol : 0 ∉ lhs := fun hm => htext (List.mem_append_left _ hm)
  have hzeror : 0 ∉ rhs := fun hm => htext (List.mem_append_right _ (List.mem_cons_of_mem _ hm))
  have hstart : b.cells = [] ++ (lhs ++ 13 :: (rhs ++ 0 :: tail)) := hcells
  have hchr := Buffer.strchr_append 13 hstart
    (fun a ha => ⟨ne_of_mem_of_not_mem ha hlhs, ne_of_mem_of_not_mem ha hzerol⟩) (.inl rfl)
  obtain ⟨b₁, hstore, -, hcells₁⟩ := Buffer.store_append hcells 0
  have hname₁ : b₁.cells = [] ++ (lhs ++ 0 :: (rhs ++ 0 :: tail)) := hcells₁
  have hblank : isspace 0 = false := by decide
  obtain ⟨b₂, front, gap, hstrim, -, hcells₂, hlen⟩ := Buffer.strim_append hblank hzerol hname₁
  have hname : b₂.cells = front ++ (strim lhs ++ 0 :: (gap ++ (rhs ++ 0 :: tail))) := hcells₂
  have hnozero : 0 ∉ strim lhs := zero_notMem_trim hzerol
  rw [List.length_nil, if_pos rfl, Nat.zero_add] at hchr
  rw [List.length_nil, Nat.zero_add] at hstrim
  simp only [parseCallArgsInPlace, hload, bind, Except.bind, ne_eq, not_true_eq_false, if_false,
    hchr, hstore, hstrim]
  cases htrim : strim lhs with
  | nil =>
    have hfirst : b₂.load front.length = .ok 0 := Buffer.load_ok (by simp [hname, htrim])
    simp only [hfirst, if_true]
    exact ⟨_, _, rfl, rfl⟩
  | cons x xs =>
    have hx : x ≠ 0 := fun he => hnozero (by rw [htrim, he]; exact List.mem_cons_self)
    have hfirst : b₂.load front.length = .ok x := Buffer.load_ok (by simp [hname, htrim])
    have hpass : b₂.cells = (front ++ strim lhs ++ 0 :: gap) ++ (rhs ++ 0 :: tail) := by
      simp [hname]
    have hplace : (front ++ strim lhs ++ 0 :: gap).length = lhs.length + 1 := by
      have hlen' : front.length + (strim lhs).length + gap.length = lhs.length := hlen
      simp only [List.length_append, List.length_cons]
      omega
    have hstr := Buffer.cstr_append hpass hzeror
    have hpw : (cString (rhs ++ 0 :: tail)).1 = rhs := takeWhile_ne_append hzeror tail
    simp only [hfirst, hx, if_false]
    refine ⟨_, _, rfl, front.length, lhs.length + 1, rfl, ?_, ?_⟩
    · rw [← htrim]
      exact Buffer.cstr_append hname hnozero
    · rw [hplace] at hstr
      rw [hstr]
      exact congrArg Except.ok hpw.symm

/-- On a buffer whose cell in front of `datalen` has a value the parser stays inside. -/
theorem parseCallArgsInPlace_yields (hpos : 0 < datalen) (hle : datalen ≤ b.cells.length) :
    ∃ r b', parseCallArgsInPlace b datalen = .ok (r, b') ∧ Yields r b'
      (if b.cells[datalen - 1]? ≠ some 0 then none else splitCallArgs b.cells) := by
  have hidx : lastIndex datalen = datalen - 1 := if_neg (Nat.ne_of_gt hpos)
  have hlt : datalen - 1 < b.cells.length := by omega
  have hget : b.cells[datalen - 1]? = some b.cells[datalen - 1] := List.getElem?_eq_getElem hlt
  have hload : b.load (lastIndex datalen) = .ok b.cells[datalen - 1] := by
    rw [hidx]
    exact Buffer.load_ok hget
  by_cases hlast : b.cells[datalen - 1] = 0
  · have hmem : 0 ∈ b.cells := hlast ▸ List.getElem_mem hlt
    obtain ⟨text, tail, hcells, htext⟩ := List.eq_append_cons_of_mem hmem
    rw [hlast] at hload
    rw [hget, hlast, if_neg (by simp)]
    by_cases hsep : 13 ∈ text
    · obtain ⟨lhs, rhs, rfl, hlhs⟩ := List.eq_append_cons_of_mem hsep
      have hcells' : b.cells = lhs ++ 13 :: (rhs ++ 0 :: tail) := by simp [hcells]
      rw [hcells', splitCallArgs_append hlhs htext]
      exact parseCallArgsInPlace_separated hload hcells' hlhs htext
    · have hstart : b.cells = [] ++ (text ++ 0 :: tail) := hcells
      have hchr := Buffer.strchr_append 13 hstart
        (fun a ha => ⟨ne_of_mem_of_not_mem ha hsep, ne_of_mem_of_not_mem ha htext⟩) (.inr rfl)
      rw [List.length_nil, if_neg (by decide)] at hchr
      rw [hcells, splitCallArgs_of_notMem htext hsep]
      refine ⟨.error einval, b, ?_, rfl⟩
      simp only [parseCallArgsInPlace, hload, bind, Except.bind, ne_eq, not_true_eq_false, if_false,
        hchr]
  · rw [hget, if_pos (by simpa using hlast)]
    refine ⟨.error einval, b, ?_, rfl⟩
    simp only [parseCallArgsInPlace, hload, bind, Except.bind, ne_eq, hlast, not_false_eq_true,
      if_true]

/-- Without a value in front of `datalen` the first load is a fault. -/
theorem parseCallArgsInPlace_fault (h : ¬ (0 < datalen ∧ datalen ≤ b.cells.length))
    (hsize : b.cells.length < 2 ^ 64) :
    parseCallArgsInPlace b datalen = .error (b.faultAt (lastIndex datalen)) := by
  have hout : b.cells.length ≤ lastIndex datalen := by
    unfold lastIndex
    split <;> omega
  have hload : b.load (lastIndex datalen) = .error (b.faultAt (lastIndex datalen)) := by
    rw [Buffer.load, List.getElem?_eq_none hout]
  simp only [parseCallArgsInPlace, hload, bind, Except.bind]

/-- A buffer of all its data yields what the parser on lists does. -/
theorem parseCallArgsInPlace_filled {data : Bytes} (hne : data ≠ []) :
    ∃ r b, parseCallArgsInPlace (.filled data) data.length = .ok (r, b) ∧
      Yields r b (parseCallArgs data) := by
  have hpos : 0 < data.length := List.length_pos_of_ne_nil hne
  obtain ⟨r, b, hparse, hyields⟩ :=
    parseCallArgsInPlace_yields (b := .filled data) hpos le_rfl
  refine ⟨r, b, hparse, ?_⟩
  rw [parseCallArgs_eq, List.getLast?_eq_getElem?]
  exact hyields

/-- The wrapper in place does what the wrapper on lists does. -/
theorem callWrapperInPlace_filled (d : Devices) {data : Bytes} (hne : data ≠ [])
    (callback : Bytes → CString → ℤ × Devices) :
    callWrapperInPlace d (.filled data) data.length callback =
      .ok (callWrapper d data callback) := by
  obtain ⟨r, b, hparse, hyields⟩ := parseCallArgsInPlace_filled hne
  unfold callWrapper
  simp only [callWrapperInPlace, hparse, bind, Except.bind]
  cases hargs : parseCallArgs data with
  | none =>
    rw [hargs] at hyields
    obtain rfl : r = .error einval := hyields
    rfl
  | some args =>
    rw [hargs] at hyields
    obtain ⟨lhs, rhs, rfl, hlhs, hrhs⟩ := hyields
    have hpw : cString args.2.1 = args.2 := by
      apply Subtype.ext
      apply List.takeWhile_eq_self_iff.mpr
      intro x hx
      simpa using ne_of_mem_of_not_mem hx args.2.2
    simp only [hlhs, hrhs, hpw]

theorem sysfsCallWrapperInPlace_eq (kmalloc : Bool) (d : Devices) {data : Bytes}
    (hne : data ≠ []) (fn : Bytes → CString → ℤ × Devices) :
    sysfsCallWrapperInPlace kmalloc d data fn = .ok (sysfsCallWrapper kmalloc d data fn) := by
  unfold sysfsCallWrapperInPlace sysfsCallWrapper
  split
  · rfl
  · simp only [Buffer.overwrite_empty_self, bind, Except.bind]
    exact callWrapperInPlace_filled d hne fn

end Parse

section Grammar
variable {data : Bytes}

theorem strim_eq_nil_iff {text : Bytes} : strim text = [] ↔ ∀ x ∈ text, isspace x = true :=
  trim_eq_nil_iff

theorem strim_ne_nil_iff {text : Bytes} : strim text ≠ [] ↔ ∃ x ∈ text, isspace x = false := by
  simp [strim_eq_nil_iff]

/-- What the parser on lists makes of data with a separator in front of its first zero. -/
theorem parseCallArgs_of_separated (hlast : data.getLast? = some 0)
    (hsep : 13 ∈ data.takeWhile (· ≠ 0)) :
    parseCallArgs data = if strim (data.takeWhile (· ≠ 13)) = [] then none
      else some (strim (data.takeWhile (· ≠ 13)),
        cString (data.drop ((data.takeWhile (· ≠ 13)).length + 1))) := by
  obtain ⟨text, tail, hdata, htext⟩ := List.eq_append_cons_of_mem (List.mem_of_getLast? hlast)
  rw [hdata, takeWhile_ne_append htext] at hsep
  obtain ⟨lhs, rhs, rfl, hlhs⟩ := List.eq_append_cons_of_mem hsep
  have hdata' : data = lhs ++ 13 :: (rhs ++ 0 :: tail) := by simp [hdata]
  have hname : data.takeWhile (· ≠ 13) = lhs := by
    rw [hdata']
    exact takeWhile_ne_append hlhs _
  have hdrop : data.drop (lhs.length + 1) = rhs ++ 0 :: tail := by
    simp [hdata', List.drop_append]
  rw [parseCallArgs_eq, if_neg (by simp [hlast]), hname, hdrop, hdata',
    splitCallArgs_append hlhs htext]

theorem CallArgsGrammar.parses (h : CallArgsGrammar data) :
    parseCallArgs data = some (strim (data.takeWhile (· ≠ 13)),
      cString (data.drop ((data.takeWhile (· ≠ 13)).length + 1))) := by
  rw [parseCallArgs_of_separated h.terminated h.separated, if_neg (strim_ne_nil_iff.mpr h.named)]

theorem callArgsGrammar_of_parseCallArgs {args : Bytes × CString}
    (h : parseCallArgs data = some args) : CallArgsGrammar data := by
  have hlast : data.getLast? = some 0 := by
    by_contra hne
    rw [parseCallArgs_eq, if_pos hne] at h
    cases h
  have hsep : 13 ∈ data.takeWhile (· ≠ 0) := by
    by_contra hno
    have hnone : 13 ∉ (cString data).1 := hno
    rw [parseCallArgs_eq, if_neg (by simp [hlast]), splitCallArgs, if_pos hnone] at h
    cases h
  refine ⟨hlast, hsep, strim_ne_nil_iff.mp fun hnil => ?_⟩
  rw [parseCallArgs_of_separated hlast hsep, if_pos hnil] at h
  cases h

/-- The parser stays inside any buffer that is not empty, and accepts exactly its grammar;
the strings that it leaves end inside the buffer. -/
theorem parseCallArgsInPlace_grammar (hne : data ≠ []) :
    ∃ r b, parseCallArgsInPlace (.filled data) data.length = .ok (r, b) ∧
      ((∃ args, r = .ok args) ↔ CallArgsGrammar data) ∧
      ∀ lhs rhs, r = .ok (lhs, rhs) →
        b.cstr lhs = .ok (strim (data.takeWhile (· ≠ 13))) ∧
        b.cstr rhs =
          .ok ((data.drop ((data.takeWhile (· ≠ 13)).length + 1)).takeWhile (· ≠ 0)) := by
  obtain ⟨r, b, hparse, hyields⟩ := parseCallArgsInPlace_filled hne
  refine ⟨r, b, hparse, ?_⟩
  cases hargs : parseCallArgs data with
  | none =>
    rw [hargs] at hyields
    obtain rfl : r = .error einval := hyields
    refine ⟨⟨fun h => ?_, fun h => ?_⟩, fun lhs rhs h => ?_⟩
    · obtain ⟨args, hr⟩ := h
      cases hr
    · rw [h.parses] at hargs
      cases hargs
    · cases h
  | some args =>
    have hgrammar := callArgsGrammar_of_parseCallArgs hargs
    rw [hgrammar.parses, Option.some.injEq] at hargs
    subst hargs
    rw [hgrammar.parses] at hyields
    obtain ⟨lhs, rhs, rfl, hlhs, hrhs⟩ := hyields
    refine ⟨iff_of_true ⟨_, rfl⟩ hgrammar, fun lhs' rhs' h => ?_⟩
    obtain ⟨rfl, rfl⟩ := Prod.mk.inj (Except.ok.inj h)
    exact ⟨hlhs, hrhs⟩

/-- The request ` /d`, a carriage return, `pw`. -/
theorem parseCallArgsInPlace_grammar_sample :
    ∃ r b, parseCallArgsInPlace (.filled [32, 47, 100, 13, 112, 119, 0]) 7 = .ok (r, b) ∧
      ((∃ args, r = .ok args) ↔ CallArgsGrammar [32, 47, 100, 13, 112, 119, 0]) ∧
      ∀ lhs rhs, r = .ok (lhs, rhs) →
        b.cstr lhs = .ok [47, 100] ∧ b.cstr rhs = .ok [112, 119] :=
  parseCallArgsInPlace_grammar (by decide)

end Grammar

end BlkdevSnapshot

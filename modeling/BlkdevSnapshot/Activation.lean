import BlkdevSnapshot.DeviceRegistry
import BlkdevSnapshot.ByteFile

/-!
# Activation requests

A request is a buffer with a device name and a password. The module compares the
password with the configured one, by digest or in clear text, and then registers
or unregisters the device. SHA-256 is a parameter; its digests have 32 bytes.
-/
namespace BlkdevSnapshot

def eintr : Errno := ⟨4, by decide⟩

/-- A 32-byte digest. -/
abbrev Digest := { bs : Bytes // bs.length = 32 }

/-- A C string: bytes before the terminator. -/
abbrev CString := { bs : Bytes // 0 ∉ bs }

theorem zero_notMem_takeWhile (buf : Bytes) : 0 ∉ buf.takeWhile (· ≠ 0) := fun h => by
  simpa using List.mem_takeWhile_imp h

/-- The C string at the start of a buffer. -/
def cString (buf : Bytes) : CString := ⟨buf.takeWhile (· ≠ 0), zero_notMem_takeWhile buf⟩

/-- `memcmp` of two buffers of the same size. -/
def memcmp : Bytes → Bytes → ℤ
  | a :: as, b :: bs => if a = b then memcmp as bs else a.toNat - b.toNat
  | _, _ => 0

/-- `strcmp` -/
def strcmp : Bytes → Bytes → ℤ
  | [], [] => 0
  | a :: _, [] => a.toNat
  | [], b :: _ => -b.toNat
  | a :: as, b :: bs => if a = b then strcmp as bs else a.toNat - b.toNat

/-! ## The password -/

/-- What the calls of `hash_sha256` return. -/
structure HashCalls where
  desc : Bool
  dataWithSalt : Bool
  digest : Except Errno Unit

/-- What the calls of `setup_passwd` return; `salt` is `none` when the wait for random
bytes is interrupted. -/
structure SetupPasswdCalls where
  shash : Except Errno Unit
  authPasswd : Bool
  salt : Option Bytes
  hash : HashCalls

/-- `auth_passwd`, with the salt when `sha256_shash` is there. -/
inductive AuthPasswd where
  | hashed (salt : Bytes) (authPasswd : Digest)
  | cleartext (authPasswd : CString)

variable (sha256 : Bytes → Digest)

/-- `hash_sha256` -/
def hashSha256 (c : HashCalls) (salt data : Bytes) : Except Errno Digest :=
  if !c.desc then .error enomem
  else if !c.dataWithSalt then .error enomem
  else
    match c.digest with
    | .error e => .error e
    | .ok () => .ok (sha256 (data ++ salt))

/-- `password_cmp` -/
def passwordCmp (c : HashCalls) (auth : AuthPasswd) (passwd : CString) : ℤ :=
  match auth with
  | .hashed salt authPasswd =>
    match hashSha256 sha256 c salt passwd with
    | .error e => e.code
    | .ok hashedPasswd => memcmp hashedPasswd authPasswd
  | .cleartext authPasswd => strcmp passwd authPasswd

/-- `setup_passwd` -/
def setupPasswd (c : SetupPasswdCalls) (activationCtPasswd : CString) : Except Errno AuthPasswd :=
  match c.shash with
  | .ok () =>
    if !c.authPasswd then .error enomem
    else
      match c.salt with
      | none => .error eintr
      | some salt =>
        match hashSha256 sha256 c.hash salt activationCtPasswd with
        | .error e => .error e
        | .ok authPasswd => .ok (.hashed salt authPasswd)
  | .error _ => if !c.authPasswd then .error enomem else .ok (.cleartext activationCtPasswd)

/-! ## The request -/

/-- `isspace` -/
def isspace (b : UInt8) : Bool := (9 ≤ b && b ≤ 13) || b == 32 || b == 160

/-- `strim` -/
def strim (s : Bytes) : Bytes := (s.rdropWhile isspace).dropWhile isspace

/-- `parse_call_args`: the device name and the password behind the first `'\r'`. -/
def parseCallArgs (data : Bytes) : Option (Bytes × CString) :=
  if data.getLast? ≠ some 0 then none
  else if 13 ∉ (cString data).1 then none
  else
    let lhs := (cString data).1.takeWhile (· ≠ 13)
    if strim lhs = [] then none else some (strim lhs, cString (data.drop (lhs.length + 1)))

/-- `auth_check` -/
def authCheck (c : HashCalls) (auth : AuthPasswd) (euid : UInt32) (passwd : CString) : ℤ :=
  if euid ≠ 0 then eperm.code
  else if passwordCmp sha256 c auth passwd ≠ 0 then eacces.code
  else 0

/-- The bytes of a name as characters. -/
def cstrOfBytes (bs : Bytes) : CStr := bs.map fun b => Char.ofNat b.toNat

/-- Which of the two files of the module the request was written to. -/
inductive Request where
  | activateSnapshot
  | deactivateSnapshot
  deriving DecidableEq, Repr

/-- `register_device` or `unregister_device` -/
def Request.deviceOperation (calls : RegingCalls) (d : Devices) : Request → CStr → ℤ × Devices
  | .activateSnapshot => registerDevice calls d
  | .deactivateSnapshot => unregisterDevice calls d

/-- `activate_snapshot` and `deactivate_snapshot` -/
def Request.callback (c : HashCalls) (calls : RegingCalls) (auth : AuthPasswd) (euid : UInt32)
    (d : Devices) (req : Request) (devName : Bytes) (passwd : CString) : ℤ × Devices :=
  let authCheckRv := authCheck sha256 c auth euid passwd
  if authCheckRv ≠ 0 then (authCheckRv, d)
  else req.deviceOperation calls d (cstrOfBytes devName)

/-- A `size_t` as the `int` that it is returned as. -/
def intOfSize (n : ℕ) : ℤ := (BitVec.ofNat 32 n).toInt

/-- `call_wrapper` -/
def callWrapper (d : Devices) (data : Bytes) (callback : Bytes → CString → ℤ × Devices) :
    ℤ × Devices :=
  match parseCallArgs data with
  | none => (einval.code, d)
  | some (devn, pwd) =>
    let called := callback devn pwd
    if called.1 ≠ 0 then called else (intOfSize data.length, called.2)

/-- `KMALLOC_MAX_SIZE` -/
def kmallocMaxSize : ℕ := 2 ^ 22

/-- `__sysfs_call_wrapper`; `kmalloc` refuses sizes above `KMALLOC_MAX_SIZE`. -/
def sysfsCallWrapper (kmalloc : Bool) (d : Devices) (data : Bytes)
    (fn : Bytes → CString → ℤ × Devices) : ℤ × Devices :=
  if !kmalloc || kmallocMaxSize < data.length then (enomem.code, d) else callWrapper d data fn

/-! ## Who passes the check -/

theorem memcmp_eq_zero_iff {as bs : Bytes} (h : as.length = bs.length) :
    memcmp as bs = 0 ↔ as = bs := by
  induction as generalizing bs with
  | nil =>
    obtain rfl : bs = [] := List.eq_nil_of_length_eq_zero h.symm
    simp [memcmp]
  | cons a as ih =>
    cases bs with
    | nil => simp at h
    | cons b bs =>
      rw [memcmp]
      by_cases hab : a = b
      · simp [hab, ih (by simpa using h)]
      · have hne : (a.toNat : ℤ) - b.toNat ≠ 0 := fun he =>
          hab (UInt8.toNat.inj (by omega))
        simp [hab, hne]

theorem toNat_ne_zero {a : UInt8} (h : a ≠ 0) : (a.toNat : ℤ) ≠ 0 := fun he =>
  h (UInt8.toNat.inj (by simpa using he))

theorem strcmp_eq_zero_iff {as bs : Bytes} (ha : 0 ∉ as) (hb : 0 ∉ bs) :
    strcmp as bs = 0 ↔ as = bs := by
  induction as generalizing bs with
  | nil =>
    cases bs with
    | nil => simp [strcmp]
    | cons b bs =>
      have hne := toNat_ne_zero fun h => hb (h ▸ List.mem_cons_self)
      simp only [strcmp, neg_eq_zero, hne, reduceCtorEq]
  | cons a as ih =>
    have hne := toNat_ne_zero fun h => ha (h ▸ List.mem_cons_self)
    cases bs with
    | nil => simp only [strcmp, hne, reduceCtorEq]
    | cons b bs =>
      rw [strcmp]
      by_cases hab : a = b
      · have htail := ih (fun h => ha (List.mem_cons_of_mem _ h)) fun h =>
          hb (List.mem_cons_of_mem _ h)
        simp [hab, htail]
      · have hne : (a.toNat : ℤ) - b.toNat ≠ 0 := fun he =>
          hab (UInt8.toNat.inj (by omega))
        simp [hab, hne]

/-- The calls of `hash_sha256` succeed. -/
structure HashCalls.Succeed (c : HashCalls) : Prop where
  desc : c.desc = true
  dataWithSalt : c.dataWithSalt = true
  digest : c.digest = .ok ()

/-- A comparison with the password in this form does not fail in a call. -/
def AuthPasswd.HashOk (c : HashCalls) : AuthPasswd → Prop
  | .hashed _ _ => c.Succeed
  | .cleartext _ => True

/-- No other input has the digest of the configured password with its salt. -/
def NoCollision (sc : SetupPasswdCalls) (activationCtPasswd : CString) : Prop :=
  ∀ salt, sc.salt = some salt → ∀ x, sha256 x = sha256 (activationCtPasswd ++ salt) →
    x = activationCtPasswd ++ salt

variable {sha256}

theorem hashSha256_ok {c : HashCalls} (hc : c.Succeed) (salt data : Bytes) :
    hashSha256 sha256 c salt data = .ok (sha256 (data ++ salt)) := by
  simp [hashSha256, hc.desc, hc.dataWithSalt, hc.digest]

theorem hashSha256_eq_ok {c : HashCalls} {salt data : Bytes} {out : Digest}
    (h : hashSha256 sha256 c salt data = .ok out) : c.Succeed ∧ out = sha256 (data ++ salt) := by
  unfold hashSha256 at h
  split at h
  · cases h
  · split at h
    · cases h
    · split at h
      · cases h
      · rename_i hdesc hdata _ hdigest
        exact ⟨⟨by simpa using hdesc, by simpa using hdata, hdigest⟩, (Except.ok.inj h).symm⟩

/-- What `setup_passwd` leaves behind. -/
theorem setupPasswd_ok {sc : SetupPasswdCalls} {pw : CString} {auth : AuthPasswd}
    (h : setupPasswd sha256 sc pw = .ok auth) :
    (∃ salt, sc.salt = some salt ∧ auth = .hashed salt (sha256 (pw ++ salt))) ∨
      auth = .cleartext pw := by
  unfold setupPasswd at h
  split at h
  · split at h
    · cases h
    · split at h
      · cases h
      · rename_i salt hsalt
        split at h
        · cases h
        · rename_i out hout
          obtain rfl := Except.ok.inj h
          exact .inl ⟨salt, hsalt, by rw [(hashSha256_eq_ok hout).2]⟩
  · split at h
    · cases h
    · exact .inr (Except.ok.inj h).symm

/-- Only the configured password compares equal, and only when no call of the hash fails. -/
theorem passwordCmp_eq_zero_iff {sc : SetupPasswdCalls} {pw passwd : CString} {auth : AuthPasswd}
    (h : setupPasswd sha256 sc pw = .ok auth) (hsha : NoCollision sha256 sc pw) (c : HashCalls) :
    passwordCmp sha256 c auth passwd = 0 ↔ passwd = pw ∧ auth.HashOk c := by
  rcases setupPasswd_ok h with ⟨salt, hsalt, rfl⟩ | rfl
  · by_cases hc : c.Succeed
    · have hlen : (sha256 (passwd ++ salt)).1.length = (sha256 (pw ++ salt)).1.length := by
        rw [(sha256 _).2, (sha256 _).2]
      simp only [passwordCmp, hashSha256_ok hc, memcmp_eq_zero_iff hlen, AuthPasswd.HashOk, hc,
        and_true]
      constructor
      · intro he
        exact Subtype.ext (List.append_cancel_right (hsha salt hsalt _ (Subtype.ext he)))
      · rintro rfl
        rfl
    · have hfail : ∃ e, hashSha256 sha256 c salt passwd = .error e := by
        cases hout : hashSha256 sha256 c salt passwd with
        | error e => exact ⟨e, rfl⟩
        | ok out => exact absurd (hashSha256_eq_ok hout).1 hc
      obtain ⟨e, he⟩ := hfail
      simp only [passwordCmp, he, e.code_neg.ne, AuthPasswd.HashOk, hc, and_false]
  · simp only [passwordCmp, strcmp_eq_zero_iff passwd.2 pw.2, AuthPasswd.HashOk, and_true]
    exact ⟨fun he => Subtype.ext he, fun he => congrArg Subtype.val he⟩

/-- The check passes the superuser with the configured password, and nobody else. -/
theorem authCheck_eq_zero_iff {sc : SetupPasswdCalls} {pw passwd : CString} {auth : AuthPasswd}
    (h : setupPasswd sha256 sc pw = .ok auth) (hsha : NoCollision sha256 sc pw) (c : HashCalls)
    (euid : UInt32) :
    authCheck sha256 c auth euid passwd = 0 ↔ euid = 0 ∧ passwd = pw ∧ auth.HashOk c := by
  rw [← passwordCmp_eq_zero_iff h hsha c]
  unfold authCheck
  by_cases he : euid = 0
  · by_cases hp : passwordCmp sha256 c auth passwd = 0
    · simp [he, hp]
    · simp [he, hp, eacces.code_neg.ne]
  · simp [he, eperm.code_neg.ne]

theorem authCheck_nonpos (c : HashCalls) (auth : AuthPasswd) (euid : UInt32) (passwd : CString) :
    authCheck sha256 c auth euid passwd ≤ 0 := by
  unfold authCheck
  split
  · exact eperm.code_neg.le
  · split
    · exact eacces.code_neg.le
    · exact le_rfl

/-! ## What a request changes -/

/-- A request that gets through to the operation on the device `devn`. -/
structure Granted (kmalloc : Bool) (c : HashCalls) (auth : AuthPasswd) (pw : CString)
    (euid : UInt32) (data devn : Bytes) : Prop where
  kmalloc : kmalloc = true
  size : data.length ≤ kmallocMaxSize
  euid : euid = 0
  hashOk : auth.HashOk c
  parse : parseCallArgs data = some (devn, pw)

/-- An allocation of an operation that is under way fails. -/
inductive AllocFails (calls : RegingCalls) (d : Devices) (path : CStr) : Request → Prop where
  | object (h : calls.kzalloc = none) : AllocFails calls d path .activateSnapshot
  | queue (halloc : AllocatesQueue calls d path) (h : calls.allocOrderedWorkqueue = none) :
      AllocFails calls d path .activateSnapshot
  | pathBuffer (name : CStr) (hname : loopName calls path = some name)
      (h : calls.kmalloc = false) : AllocFails calls d path .deactivateSnapshot
  | cleanup (hremoves : Removes calls d path) (h : ¬ (calls.wlistnode && calls.wargs)) :
      AllocFails calls d path .deactivateSnapshot

/-- An operation goes past a failure that its code does not test. An activation reads an
error out of the freed object, and what it finds there passes for success: zero, which the
wrapper replaces by the length, or the length itself. -/
inductive Untested (calls : RegingCalls) (d : Devices) (path : CStr) (datalen : ℕ) :
    Request → Prop where
  | stale (hreads : ReadsFreedKey calls d path)
      (h : intOfLong calls.staleKey = 0 ∨ intOfLong calls.staleKey = datalen) :
      Untested calls d path datalen .activateSnapshot
  | queue (halloc : AllocatesQueue calls d path) (h : calls.allocOrderedWorkqueue = none) :
      Untested calls d path datalen .activateSnapshot
  | cleanup (hremoves : Removes calls d path) (h : ¬ (calls.wlistnode && calls.wargs)) :
      Untested calls d path datalen .deactivateSnapshot

/-- A reply that is in order: only an authorised request has changed the registry, a failed
hash or allocation denies and the call returns, with the length exactly for a change. -/
structure ReplyInOrder (kmalloc : Bool) (c : HashCalls) (calls : RegingCalls) (auth : AuthPasswd)
    (pw : CString) (euid : UInt32) (d : Devices) (req : Request) (data : Bytes)
    (r : ℤ × Devices) : Prop where
  authorised : r.2 ≠ d → euid = 0 ∧ ∃ devn, parseCallArgs data = some (devn, pw)
  hashError : ¬ auth.HashOk c → r.1 < 0 ∧ r.2 = d
  bufferError : kmalloc = false → r.1 < 0 ∧ r.2 = d
  allocError : ∀ devn passwd, parseCallArgs data = some (devn, passwd) →
    AllocFails calls d (cstrOfBytes devn) req → r.1 < 0 ∧ r.2 = d
  completes : ∀ devn, Granted kmalloc c auth pw euid data devn → req = .activateSnapshot →
    ¬ FlushesNullQueue calls d (cstrOfBytes devn)
  returns : r.1 = data.length ↔ r.2 ≠ d

theorem intOfSize_eq {n : ℕ} (h : n ≤ kmallocMaxSize) : intOfSize n = n := by
  simp only [kmallocMaxSize] at h
  have hn : (BitVec.ofNat 32 n).toNat = n := by
    rw [BitVec.toNat_ofNat, Nat.mod_eq_of_lt (by omega)]
  rw [intOfSize, BitVec.toInt_eq_toNat_of_lt (by rw [hn]; omega), hn]

section Replies

variable {kmalloc : Bool} {c : HashCalls} {calls : RegingCalls} {auth : AuthPasswd} {pw : CString}
  {euid : UInt32} {d : Devices} {req : Request} {data : Bytes}

/-- An error that leaves the registry alone is in order. -/
theorem replyInOrder_error {n : ℤ} (hn : n < 0)
    (hflush : ∀ devn, Granted kmalloc c auth pw euid data devn → req = .activateSnapshot →
      ¬ FlushesNullQueue calls d (cstrOfBytes devn)) :
    ReplyInOrder kmalloc c calls auth pw euid d req data (n, d) where
  authorised h := absurd rfl h
  hashError _ := ⟨hn, rfl⟩
  bufferError _ := ⟨hn, rfl⟩
  allocError _ _ _ _ := ⟨hn, rfl⟩
  completes := hflush
  returns := by
    have : n ≠ data.length := by omega
    simp [this]

/-- A request that gets through to one device gets through to no other. -/
theorem Granted.devn_eq {devn devn' : Bytes} (h : Granted kmalloc c auth pw euid data devn)
    (h' : Granted kmalloc c auth pw euid data devn') : devn' = devn :=
  congrArg Prod.fst (Option.some.inj (h'.parse.symm.trans h.parse))

section Granted
variable {devn : Bytes} (hg : Granted kmalloc c auth pw euid data devn)
include hg

theorem Granted.completes (hflush : ¬ FlushesNullQueue calls d (cstrOfBytes devn)) (devn' : Bytes)
    (h : Granted kmalloc c auth pw euid data devn') :
    ¬ FlushesNullQueue calls d (cstrOfBytes devn') := by
  rw [hg.devn_eq h]
  exact hflush

/-- A settled operation that tests all of its allocations is in order. -/
theorem replyInOrder_settled {r : ℤ × Devices} (hr : Settled d r)
    (halloc : AllocFails calls d (cstrOfBytes devn) req → r.1 < 0 ∧ r.2 = d)
    (hflush : req = .activateSnapshot → ¬ FlushesNullQueue calls d (cstrOfBytes devn)) :
    ReplyInOrder kmalloc c calls auth pw euid d req data
      (if r.1 ≠ 0 then r else (intOfSize data.length, r.2)) := by
  have hcompletes (devn' : Bytes) (h : Granted kmalloc c auth pw euid data devn')
      (hreq : req = .activateSnapshot) : ¬ FlushesNullQueue calls d (cstrOfBytes devn') :=
    hg.completes (hflush hreq) devn' h
  rcases hr with ⟨hzero, hne⟩ | ⟨hneg, hsame⟩
  · rw [if_neg (by simpa using hzero)]
    exact {
      authorised := fun _ => ⟨hg.euid, devn, hg.parse⟩
      hashError := fun h => absurd hg.hashOk h
      bufferError := fun h => by simp [hg.kmalloc] at h
      allocError := fun devn' passwd hparse hfails => by
        obtain rfl : devn' = devn :=
          congrArg Prod.fst (Option.some.inj (hparse.symm.trans hg.parse))
        exact absurd (halloc hfails).2 hne
      completes := hcompletes
      returns := by simp [intOfSize_eq hg.size, hne] }
  · rw [if_pos hneg.ne]
    obtain ⟨n, d'⟩ := r
    obtain rfl : d' = d := hsame
    exact replyInOrder_error hneg hcompletes

/-- What was read out of the freed object is in order unless it passes for success. -/
theorem replyInOrder_stale_iff (hreads : ReadsFreedKey calls d (cstrOfBytes devn)) :
    ReplyInOrder kmalloc c calls auth pw euid d .activateSnapshot data
      (if intOfLong calls.staleKey ≠ 0 then (intOfLong calls.staleKey, d)
        else (intOfSize data.length, d)) ↔
    ¬ (intOfLong calls.staleKey = 0 ∨ intOfLong calls.staleKey = data.length) := by
  rw [intOfSize_eq hg.size]
  constructor
  · rintro hin (h | h)
    · simpa [h] using hin.returns
    · by_cases hz : intOfLong calls.staleKey = 0
      · simpa [hz] using hin.returns
      · rw [if_pos hz] at hin
        simpa [h] using hin.returns
  · intro h
    obtain ⟨hz, hl⟩ := not_or.mp h
    rw [if_pos hz]
    exact {
      authorised := fun hne => absurd rfl hne
      hashError := fun hno => absurd hg.hashOk hno
      bufferError := fun hno => by simp [hg.kmalloc] at hno
      allocError := fun devn' passwd hparse hfails => by
        obtain rfl : devn' = devn :=
          congrArg Prod.fst (Option.some.inj (hparse.symm.trans hg.parse))
        cases hfails with
        | object hnone => exact absurd hnone hreads.kzalloc
        | queue halloc hnone => exact absurd hreads (halloc.not_readsFreedKey calls)
      completes := fun devn' h _ => hg.completes
        (fun hflush => hflush.allocates.not_readsFreedKey calls hreads) devn' h
      returns := by simp [hl] }

/-- The reply to an activation is in order unless it goes past an untested failure. -/
theorem replyInOrder_register_iff :
    ReplyInOrder kmalloc c calls auth pw euid d .activateSnapshot data
      (if (registerDevice calls d (cstrOfBytes devn)).1 ≠ 0 then
        registerDevice calls d (cstrOfBytes devn)
      else (intOfSize data.length, (registerDevice calls d (cstrOfBytes devn)).2)) ↔
    ¬ Untested calls d (cstrOfBytes devn) data.length .activateSnapshot := by
  by_cases hreads : ReadsFreedKey calls d (cstrOfBytes devn)
  · rw [registerDevice_readsFreedKey calls hreads, replyInOrder_stale_iff hg hreads]
    refine not_congr ⟨.stale hreads, fun h => ?_⟩
    cases h with
    | stale _ h => exact h
    | queue halloc h => exact absurd hreads (halloc.not_readsFreedKey calls)
  have hsettled := registerDevice_settled calls d _ hreads
  by_cases hqueue : AllocatesQueue calls d (cstrOfBytes devn) ∧ calls.allocOrderedWorkqueue = none
  · refine iff_of_false (fun hin => ?_) fun h => h (.queue hqueue.1 hqueue.2)
    rcases hsettled with ⟨hzero, hne⟩ | ⟨hneg, hsame⟩
    · rw [if_neg (by simpa using hzero)] at hin
      exact hne (hin.allocError devn pw hg.parse (.queue hqueue.1 hqueue.2)).2
    · exact hin.completes devn hg rfl ⟨hqueue.1, hqueue.2, hneg.ne⟩
  · refine iff_of_true (replyInOrder_settled hg hsettled (fun hfails => ?_) fun _ hflush => ?_)
      fun h => ?_
    · cases hfails with
      | object h => exact registerDevice_kzalloc_none calls d _ h
      | queue halloc h => exact absurd ⟨halloc, h⟩ hqueue
    · exact hqueue ⟨hflush.allocates, hflush.queue⟩
    · cases h with
      | stale h _ => exact hreads h
      | queue halloc h => exact hqueue ⟨halloc, h⟩

/-- The reply to a deactivation is in order unless it goes past an untested failure. -/
theorem replyInOrder_unregister_iff :
    ReplyInOrder kmalloc c calls auth pw euid d .deactivateSnapshot data
      (if (unregisterDevice calls d (cstrOfBytes devn)).1 ≠ 0 then
        unregisterDevice calls d (cstrOfBytes devn)
      else (intOfSize data.length, (unregisterDevice calls d (cstrOfBytes devn)).2)) ↔
    ¬ Untested calls d (cstrOfBytes devn) data.length .deactivateSnapshot := by
  have hsettled := unregisterDevice_settled calls d (cstrOfBytes devn)
  by_cases hclean : Removes calls d (cstrOfBytes devn) ∧ ¬ (calls.wlistnode && calls.wargs)
  · refine iff_of_false (fun hin => ?_) fun h => h (.cleanup hclean.1 hclean.2)
    have hdenied := (hin.allocError devn pw hg.parse (.cleanup hclean.1 hclean.2)).2
    split at hdenied
    · exact hclean.1.unregisterDevice_ne calls hdenied
    · exact hclean.1.unregisterDevice_ne calls hdenied
  · refine iff_of_true (replyInOrder_settled hg hsettled (fun hfails => ?_) nofun) fun h => ?_
    · cases hfails with
      | pathBuffer name hname h => exact unregisterDevice_kmalloc_false calls d hname h
      | cleanup hremoves h => exact absurd ⟨hremoves, h⟩ hclean
    · cases h with
      | cleanup hremoves h => exact hclean ⟨hremoves, h⟩

end Granted

end Replies

/-- A request is in order exactly if no operation that it gets through to goes past an
untested failure. -/
theorem request_inOrder_iff {sc : SetupPasswdCalls} {pw : CString} {auth : AuthPasswd}
    (hset : setupPasswd sha256 sc pw = .ok auth) (hsha : NoCollision sha256 sc pw)
    (kmalloc : Bool) (c : HashCalls) (calls : RegingCalls) (euid : UInt32) (d : Devices)
    (req : Request) (data : Bytes) :
    ReplyInOrder kmalloc c calls auth pw euid d req data
      (sysfsCallWrapper kmalloc d data (req.callback sha256 c calls auth euid d)) ↔
    ¬ ∃ devn, Granted kmalloc c auth pw euid data devn ∧
      Untested calls d (cstrOfBytes devn) data.length req := by
  have hdenied {n : ℤ} (hn : n < 0) (hno : ∀ devn, ¬ Granted kmalloc c auth pw euid data devn) :
      ReplyInOrder kmalloc c calls auth pw euid d req data (n, d) ↔
        ¬ ∃ devn, Granted kmalloc c auth pw euid data devn ∧
          Untested calls d (cstrOfBytes devn) data.length req :=
    iff_of_true (replyInOrder_error hn fun devn hg => absurd hg (hno devn))
      fun ⟨devn, hg, _⟩ => hno devn hg
  unfold sysfsCallWrapper
  by_cases hbuf : (!kmalloc || kmallocMaxSize < data.length) = true
  · rw [if_pos hbuf]
    refine hdenied enomem.code_neg fun devn hg => ?_
    have := hg.size
    simp [hg.kmalloc] at hbuf
    omega
  rw [if_neg hbuf]
  simp only [Bool.or_eq_true, Bool.not_eq_true', decide_eq_true_eq, not_or, Bool.not_eq_false,
    not_lt] at hbuf
  obtain ⟨hk, hlen⟩ := hbuf
  unfold callWrapper
  cases hparse : parseCallArgs data with
  | none =>
    refine hdenied einval.code_neg fun devn hg => ?_
    have hsome := hg.parse
    rw [hparse] at hsome
    cases hsome
  | some args =>
    obtain ⟨devn, passwd⟩ := args
    simp only [Request.callback]
    by_cases hauth : authCheck sha256 c auth euid passwd = 0
    · obtain ⟨he, rfl, hc⟩ := (authCheck_eq_zero_iff hset hsha c euid).mp hauth
      have hg : Granted kmalloc c auth passwd euid data devn := ⟨hk, hlen, he, hc, hparse⟩
      have hone : (∃ devn', Granted kmalloc c auth passwd euid data devn' ∧
          Untested calls d (cstrOfBytes devn') data.length req) ↔
          Untested calls d (cstrOfBytes devn) data.length req := by
        constructor
        · rintro ⟨devn', hg', h⟩
          rwa [hg.devn_eq hg'] at h
        · exact fun h => ⟨devn, hg, h⟩
      rw [hone]
      simp only [hauth, ne_eq, not_true_eq_false, if_false]
      cases req with
      | activateSnapshot => exact replyInOrder_register_iff hg
      | deactivateSnapshot => exact replyInOrder_unregister_iff hg
    · have hneg : authCheck sha256 c auth euid passwd < 0 :=
        lt_of_le_of_ne (authCheck_nonpos c auth euid passwd) hauth
      simp only [hauth, ne_eq, not_false_eq_true, if_true]
      refine hdenied hneg fun devn' hg => hauth ?_
      have hparse' := hg.parse
      rw [hparse] at hparse'
      cases hparse'
      exact (authCheck_eq_zero_iff hset hsha c euid).mpr ⟨hg.euid, rfl, hg.hashOk⟩

/-- The password `pw`. -/
def samplePasswd : CString := ⟨[112, 119], by decide⟩

/-- A salt of 32 bytes. -/
def sampleSalt : Bytes := (List.range 32).map UInt8.ofNat

/-- SHA-256 on `samplePasswd` with `sampleSalt`. -/
def sampleSha256 (x : Bytes) : Digest :=
  if x = samplePasswd ++ sampleSalt then
    ⟨[64, 28, 12, 214, 127, 210, 72, 54, 126, 233, 145, 202, 21, 177, 135, 167, 246, 95, 241, 225,
      107, 7, 28, 126, 32, 233, 2, 77, 103, 103, 244, 37], by decide⟩
  else ⟨List.replicate 32 0, List.length_replicate⟩

def sampleSetupPasswdCalls : SetupPasswdCalls :=
  ⟨.ok (), true, some sampleSalt, ⟨true, true, .ok ()⟩⟩

def sampleAuthPasswd : AuthPasswd :=
  .hashed sampleSalt (sampleSha256 (samplePasswd ++ sampleSalt))

theorem setupPasswd_sample :
    setupPasswd sampleSha256 sampleSetupPasswdCalls samplePasswd = .ok sampleAuthPasswd := rfl

theorem noCollision_sample : NoCollision sampleSha256 sampleSetupPasswdCalls samplePasswd := by
  intro salt hsalt x hx
  obtain rfl := Option.some.inj hsalt
  by_contra hne
  simp only [sampleSha256, if_neg hne, if_true, Subtype.mk.injEq] at hx
  exact absurd hx (by decide)

/-- The request `/d\rpw`. -/
def sampleData : Bytes := [47, 100, 13, 112, 119, 0]

/-- `/d` is the first loop device, whose backing file has a name that cannot be resolved; the freed
object reads as zeros. -/
def sampleRegingCalls : RegingCalls where
  inodeOf _ := .ok (some (.blk (loopMajor <<< 20)))
  fullPath _ := .error enoent
  loBackingFile _ := .ok ['/', 'i']
  kzalloc := some 1
  allocOrderedWorkqueue := some 2
  insert := .ok ()
  kmalloc := true
  removeFast := true
  wlistnode := true
  wargs := true
  staleKey := 0

def noDevices : Devices := ⟨true, fun _ => none, fun _ => none⟩

theorem request_inOrder_iff_activate :
    ReplyInOrder true ⟨true, true, .ok ()⟩ { sampleRegingCalls with fullPath := .ok }
      sampleAuthPasswd samplePasswd 0 noDevices .activateSnapshot sampleData
      (sysfsCallWrapper true noDevices sampleData
        (Request.callback sampleSha256 ⟨true, true, .ok ()⟩
          { sampleRegingCalls with fullPath := .ok } sampleAuthPasswd 0 noDevices
          .activateSnapshot)) := by
  refine (request_inOrder_iff setupPasswd_sample noCollision_sample true ⟨true, true, .ok ()⟩
    { sampleRegingCalls with fullPath := .ok } 0 noDevices .activateSnapshot sampleData).mpr ?_
  rintro ⟨devn, -, h⟩
  cases h with
  | stale hreads h =>
    obtain ⟨name, e, -, hpath⟩ := hreads.fullPath
    cases hpath
  | queue halloc h => cases h

/-- An activation fails on the path of the backing file and still returns the length. -/
theorem not_request_inOrder :
    setupPasswd sampleSha256 sampleSetupPasswdCalls samplePasswd = .ok sampleAuthPasswd ∧
    NoCollision sampleSha256 sampleSetupPasswdCalls samplePasswd ∧
    sysfsCallWrapper true noDevices sampleData
      (Request.callback sampleSha256 ⟨true, true, .ok ()⟩ sampleRegingCalls sampleAuthPasswd 0
        noDevices .activateSnapshot) = (6, noDevices) ∧
    ¬ ReplyInOrder true ⟨true, true, .ok ()⟩ sampleRegingCalls sampleAuthPasswd samplePasswd 0
      noDevices .activateSnapshot sampleData
      (sysfsCallWrapper true noDevices sampleData
        (Request.callback sampleSha256 ⟨true, true, .ok ()⟩ sampleRegingCalls sampleAuthPasswd 0
          noDevices .activateSnapshot)) := by
  have hreply : sysfsCallWrapper true noDevices sampleData
      (Request.callback sampleSha256 ⟨true, true, .ok ()⟩ sampleRegingCalls sampleAuthPasswd 0
        noDevices .activateSnapshot) = (6, noDevices) := rfl
  refine ⟨setupPasswd_sample, noCollision_sample, hreply, fun h => ?_⟩
  have hreturns := h.returns
  rw [hreply] at hreturns
  exact hreturns.mp rfl rfl

end BlkdevSnapshot

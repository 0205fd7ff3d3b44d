import BlkdevSnapshot.ActivationIoctl
import BlkdevSnapshot.ActivationTool
import BlkdevSnapshot.Getopt
import BlkdevSnapshot.Strtoull

/-!
# The command line of the activation tool

`main` of the activation tool and the module behind the file that it opens: an attribute in
sysfs or a node of the character device. The tool ends with a success as soon as its own
checks have passed, whatever the module answers; what the answer was is seen in its report.
-/
namespace BlkdevSnapshot
open CheckedBuffer Getopt

def enotty : Errno := ⟨25, by decide⟩

/-- `PAGE_SIZE` -/
def pageSize : ℕ := 4096

/-- The options of the activation tool, in the order of its `switch`. -/
inductive ActivationOption where
  | chrdev
  | sysfs
  | activate
  | deactivate
  | filepath
  | passwd
  | help
  deriving DecidableEq, Repr

namespace ActivationOption

/-- The letter of an option. -/
def letter : ActivationOption → UInt8
  | chrdev => 'c'.toUInt8
  | sysfs => 's'.toUInt8
  | activate => 'a'.toUInt8
  | deactivate => 'd'.toUInt8
  | filepath => 'f'.toUInt8
  | passwd => 'p'.toUInt8
  | help => 'h'.toUInt8

/-- The cases of the `switch` of `main`. -/
def cases : List ActivationOption := [chrdev, sysfs, activate, deactivate, filepath, passwd, help]

/-- The case that a result of `getopt` takes, with `optarg`. -/
def ofItem : Item UInt8 → Option (ActivationOption × Bytes) := Item.chosen letter cases

end ActivationOption

/-- The option string of `main`. -/
def activationOptstring : UInt8 → Option Bool := optstring ':'.toUInt8 (asciiBytes "c:adf:p:hs")

/-- The variables that the options set. -/
structure ActivationArgs where
  chrdev : Option Bytes
  filepath : Option CString
  passwd : Option CString
  needToActivate : Bool
  deriving DecidableEq

namespace ActivationArgs

/-- The variables at the start of the tool. -/
def init : ActivationArgs := ⟨none, none, none, true⟩

/-- A case of the `switch`: the variables, or the success of an exit. -/
def set (v : ActivationArgs) : ActivationOption × Bytes → Except Bool ActivationArgs
  | (.chrdev, optarg) => .ok { v with chrdev := some optarg }
  | (.sysfs, _) => .ok { v with chrdev := none }
  | (.activate, _) => .ok { v with needToActivate := true }
  | (.deactivate, _) => .ok { v with needToActivate := false }
  | (.filepath, optarg) => .ok { v with filepath := some (cString optarg) }
  | (.passwd, optarg) => .ok { v with passwd := some (cString optarg) }
  | (.help, _) => .error true

/-- The loop over `getopt`. -/
def scan (os : List (ActivationOption × Bytes)) : Except Bool ActivationArgs := os.foldlM set init

end ActivationArgs

/-- What the module is asked for. -/
def requestOf (activate : Bool) : Request :=
  if activate then .activateSnapshot else .deactivateSnapshot

/-! ## The files of the module -/

/-- What a path names: an attribute of the module, a node of its character device, or another
file, with what is returned by a call on it. -/
inductive ActivationFile where
  | attribute (req : Request)
  | chrdev
  | other (rv : ℤ)

/-- The two ways to build the module, with `CONFIG_SYSFS` and without it. The nodes of the
character device are anywhere. -/
inductive ActivationMechanism where
  | sysfs
  | chrdev (isNode : Bytes → Bool)

/-- `activate_kobj_attribute` and `deactivate_kobj_attribute`: the name and what `store` calls. -/
def kobjAttributes : List (Bytes × Request) :=
  [(asciiBytes "activate_snapshot", .activateSnapshot),
    (asciiBytes "deactivate_snapshot", .deactivateSnapshot)]

/-- The directory of the `kobject` of the module. -/
def moduleKobj : Bytes := asciiBytes "/sys/module/blkdev_snapshot/"

/-- What a run of the tool meets: the files, the results of `open`, of the allocations of the
tool, of sysfs and of the module and of all calls behind them, and who runs it. -/
structure ActivationRun where
  mechanism : ActivationMechanism
  otherFile : Bytes → Option ℤ
  opens : Bool
  malloc : Bool
  kernfsKmalloc : Bool
  kmalloc : Bool
  hash : HashCalls
  calls : RegingCalls
  auth : AuthPasswd
  euid : UInt32

section Tool
variable (sha256 : Bytes → Digest) (r : ActivationRun) (d : Devices)

namespace ActivationRun

/-- `open` -/
def openFile (path : Bytes) : Option ActivationFile :=
  if !r.opens then none
  else
    match r.mechanism with
    | .sysfs =>
      match kobjAttributes.find? fun attr => moduleKobj ++ attr.1 = path with
      | some attr => some (.attribute attr.2)
      | none => (r.otherFile path).map .other
    | .chrdev isNode => if isNode path then some .chrdev else (r.otherFile path).map .other

/-- The callback for a request. -/
def callback (req : Request) : Bytes → CString → ℤ × Devices :=
  req.callback sha256 r.hash r.calls r.auth r.euid d

/-- `write` of a message: sysfs hands the first page of it to `store`, if it is not empty. -/
def write (file : ActivationFile) (data : Bytes) : Except AccessFault (ℤ × Devices) :=
  match file with
  | .attribute req =>
    if !r.kernfsKmalloc then .ok (enomem.code, d)
    else if data = [] then .ok (0, d)
    else sysfsCallWrapperInPlace r.kmalloc d (data.take pageSize) (r.callback sha256 d req)
  | .chrdev => .ok (einval.code, d)
  | .other rv => .ok (rv, d)

/-- `ioctl` with a string and the length of a message in it. -/
def ioctl (file : ActivationFile) (cmd : UInt32) (str : Bytes) (datalen : UInt64) :
    Except AccessFault (ℤ × Devices) :=
  match file with
  | .attribute _ => .ok (enotty.code, d)
  | .chrdev =>
    activationChrdevIoctl r.kmalloc d ⟨cmd, datalen, datalen, datalen, str⟩ (r.callback sha256 d)
  | .other rv => .ok (rv, d)

end ActivationRun

/-- What kills the tool, or an access of the module that no check allows. -/
inductive ToolFault where
  | nullString
  | module (f : AccessFault)

/-- What a run prints on `stderr`, as far as to the first colon of `perror`, and the registry. -/
structure ToolResult where
  report : Option String
  devices : Devices

/-- How the tool ends, whether it reports anything, and the registry. -/
def ToolResult.seen (x : Bool × ToolResult) : Bool × Bool × Devices :=
  (x.1, x.2.report.isSome, x.2.devices)

/-- The registry behind a run, if the module has made no access that is not allowed. A tool that
is killed by its own string has called nothing. -/
def registryAfter (d : Devices) : Except ToolFault (Bool × ToolResult) → Option Devices
  | .error (.module _) => none
  | .error .nullString => some d
  | .ok x => some x.2.devices

/-- The result behind a call that `perror` reports by its name. -/
def ToolResult.ofCall (name : String) (called : ℤ × Devices) : ToolResult :=
  ⟨if called.1 < 0 then some name else none, called.2⟩

/-- `__do_sysfs` -/
def doSysfs (sysfsPath : Bytes) (path passwd : CString) : Except ToolFault ToolResult :=
  match r.openFile sysfsPath with
  | none => .ok ⟨some "open", d⟩
  | some file =>
    match concat r.malloc path passwd with
    | none => .error .nullString
    | some str =>
      match r.write sha256 d file (sentBytes str) with
      | .error f => .error (.module f)
      | .ok called => .ok (.ofCall "write" called)

def activateSysfs (path passwd : CString) (_ : Option Bytes) : Except ToolFault ToolResult :=
  doSysfs sha256 r d (asciiBytes "/sys/module/blkdev_snapshot/activate_snapshot") path passwd

def deactivateSysfs (path passwd : CString) (_ : Option Bytes) : Except ToolFault ToolResult :=
  doSysfs sha256 r d (asciiBytes "/sys/module/blkdev_snapshot/deactivate_snapshot") path passwd

/-- `__do_chrdev`; `open` of a null pointer fails. -/
def doChrdev (path passwd : CString) (chrdevPath : Option Bytes) (iocmd : UInt32) :
    Except ToolFault ToolResult :=
  match chrdevPath.bind r.openFile with
  | none => .ok ⟨some "open", d⟩
  | some file =>
    match concat r.malloc path passwd with
    | none => .error .nullString
    | some str =>
      match r.ioctl sha256 d file iocmd str (UInt64.ofNat (sentBytes str).length) with
      | .error f => .error (.module f)
      | .ok called => .ok (.ofCall "ioctl" called)

def activateChrdev (path passwd : CString) (chrdevPath : Option Bytes) :
    Except ToolFault ToolResult :=
  doChrdev sha256 r d path passwd chrdevPath activateChrdevIoctlCmd

def deactivateChrdev (path passwd : CString) (chrdevPath : Option Bytes) :
    Except ToolFault ToolResult :=
  doChrdev sha256 r d path passwd chrdevPath deactivateChrdevIoctlCmd

/-- `get_mgmt_fn` -/
def getMgmtFn (chrdev : Option Bytes) (activate : Bool) :
    CString → CString → Option Bytes → Except ToolFault ToolResult :=
  if chrdev.isNone && activate then activateSysfs sha256 r d
  else if chrdev.isNone && !activate then deactivateSysfs sha256 r d
  else if chrdev.isSome && activate then activateChrdev sha256 r d
  else deactivateChrdev sha256 r d

/-- The part of `main` behind the loop: whether the tool succeeds, and its result. -/
def activateWith (v : ActivationArgs) : Except ToolFault (Bool × ToolResult) :=
  match doBasicChecksOn v.filepath v.passwd with
  | .error message => .ok (false, ⟨some message, d⟩)
  | .ok () =>
    match v.filepath, v.passwd with
    | some filepath, some passwd =>
      (getMgmtFn sha256 r d v.chrdev v.needToActivate filepath passwd v.chrdev).map (true, ·)
    | _, _ => .error .nullString

/-- The options on a command line. -/
def activationOptions (permute : Bool) (argv : List Bytes) : List (ActivationOption × Bytes) :=
  (getopt '-'.toUInt8 activationOptstring permute argv).filterMap ActivationOption.ofItem

/-- `main` of the activation tool. -/
def activationMain (permute : Bool) (argv : List Bytes) : Except ToolFault (Bool × ToolResult) :=
  match ActivationArgs.scan (activationOptions permute argv) with
  | .error status => .ok (status, ⟨none, d⟩)
  | .ok v => activateWith sha256 r d v

end Tool

/-! ## The last option counts -/

namespace ActivationOption

/-- An option that ends the tool, with its success. -/
def exits : ActivationOption × Bytes → Option Bool
  | (help, _) => some true
  | _ => none

/-- What an option makes of `chrdev`. -/
def setsChrdev : ActivationOption × Bytes → Option (Option Bytes)
  | (chrdev, optarg) => some (some optarg)
  | (sysfs, _) => some none
  | _ => none

/-- What an option makes of `need_to_activate`. -/
def setsActivate : ActivationOption × Bytes → Option Bool
  | (activate, _) => some true
  | (deactivate, _) => some false
  | _ => none

/-- The string that an option gives. -/
def optarg (o : ActivationOption) (x : ActivationOption × Bytes) : Option CString :=
  if x.1 = o then some (cString x.2) else none

end ActivationOption

/-- Each variable as the last option says that sets it. -/
def ActivationArgs.last (os : List (ActivationOption × Bytes)) : ActivationArgs where
  chrdev := (lastSome ActivationOption.setsChrdev os).getD none
  filepath := lastSome (ActivationOption.optarg .filepath) os
  passwd := lastSome (ActivationOption.optarg .passwd) os
  needToActivate := (lastSome ActivationOption.setsActivate os).getD true

theorem ActivationArgs.set_last (os : List (ActivationOption × Bytes))
    (o : ActivationOption × Bytes) :
    (ActivationArgs.last os).set o =
      (ActivationOption.exits o).elim (.ok (ActivationArgs.last (os ++ [o]))) .error := by
  obtain ⟨o, optarg⟩ := o
  cases o <;>
    simp [ActivationArgs.set, ActivationOption.exits, ActivationArgs.last, lastSome_concat,
      ActivationOption.optarg, ActivationOption.setsChrdev, ActivationOption.setsActivate]

section Main
variable {sha256 : Bytes → Digest} {r : ActivationRun} {d : Devices}

theorem activationMain_eq (permute : Bool) (argv : List Bytes) :
    activationMain sha256 r d permute argv =
      match (activationOptions permute argv).findSome? ActivationOption.exits with
      | some status => .ok (status, ⟨none, d⟩)
      | none => activateWith sha256 r d (ActivationArgs.last (activationOptions permute argv)) := by
  have hscan : ActivationArgs.scan (activationOptions permute argv) = _ :=
    foldlM_last ActivationArgs.set_last (activationOptions permute argv)
  rw [activationMain, hscan]
  cases (activationOptions permute argv).findSome? ActivationOption.exits with
  | some status => rfl
  | none => rfl

/-! ## The message -/

section Message
variable {path passwd : CString}

/-- The message with its zero. -/
def activationMessage (path passwd : CString) : Bytes := path.1 ++ 13 :: (passwd.1 ++ [0])

@[simp] theorem length_activationMessage :
    (activationMessage path passwd).length = path.1.length + passwd.1.length + 2 := by
  simp only [activationMessage, List.length_append, List.length_cons, List.length_nil]
  omega

theorem parseCallArgs_message (hcr : 13 ∉ path.1) :
    parseCallArgs (activationMessage path passwd) =
      if strim path.1 = [] then none else some (strim path.1, passwd) := by
  have hzero : 0 ∉ path.1 ++ 13 :: passwd.1 := by
    simp only [List.mem_append, List.mem_cons, not_or]
    exact ⟨path.2, by decide, passwd.2⟩
  have hlast : (activationMessage path passwd).getLast? = some 0 := by
    rw [activationMessage, List.getLast?_append]
    simp [List.getLast?_cons]
  have hpw : cString (passwd.1 ++ [0]) = passwd := Subtype.ext (takeWhile_ne_append passwd.2 [])
  rw [parseCallArgs_eq, if_neg (by simp [hlast]), activationMessage, splitCallArgs_append hcr hzero,
    hpw]

/-- A message without its end is refused. -/
theorem parseCallArgs_message_take {n : ℕ} (hn : n < (activationMessage path passwd).length) :
    parseCallArgs ((activationMessage path passwd).take n) = none := by
  have hsplit : activationMessage path passwd = (path.1 ++ 13 :: passwd.1) ++ [0] := by
    simp [activationMessage]
  have hzero : 0 ∉ path.1 ++ 13 :: passwd.1 := by
    simp only [List.mem_append, List.mem_cons, not_or]
    exact ⟨path.2, by decide, passwd.2⟩
  have hle : n ≤ (path.1 ++ 13 :: passwd.1).length := by
    rw [hsplit, List.length_append, List.length_singleton] at hn
    omega
  have hlast : ((activationMessage path passwd).take n).getLast? ≠ some 0 := by
    rw [hsplit, List.take_append_of_le_length hle]
    intro h
    exact hzero (List.mem_of_mem_take (List.mem_of_getLast? h))
  rw [parseCallArgs, if_pos hlast]

end Message

/-! ## From the tool to the module -/

/-- A whole message of some length gets from the tool to the module. -/
def ActivationRun.Reaches (r : ActivationRun) (chrdev : Option Bytes) (n : ℕ) : Prop :=
  r.opens = true ∧
    match r.mechanism, chrdev with
    | .sysfs, none => r.kernfsKmalloc = true ∧ n ≤ pageSize
    | .chrdev isNode, some path => isNode path = true
    | _, _ => False

/-- Other files refuse the calls of the tool. -/
def ActivationRun.OthersRefuse (r : ActivationRun) : Prop :=
  ∀ path rv, r.otherFile path = some rv → rv < 0

/-- What a management function comes to: the answer of the module if the whole message reaches
it, and else an unchanged registry and an error. -/
def Answered (sha256 : Bytes → Digest) (r : ActivationRun) (d : Devices) (chrdev : Option Bytes)
    (req : Request) (path passwd : CString) (result : Except ToolFault ToolResult) : Prop :=
  ∃ name called, result = .ok (.ofCall name called) ∧
    (r.Reaches chrdev (activationMessage path passwd).length →
      called = sysfsCallWrapper r.kmalloc d (activationMessage path passwd)
        (r.callback sha256 d req)) ∧
    (¬ r.Reaches chrdev (activationMessage path passwd).length →
      called.2 = d ∧ (r.OthersRefuse → called.1 < 0))

section Functions
variable {path passwd : CString}

theorem answered_refused {chrdev : Option Bytes} {req : Request} {name : String}
    {called : ℤ × Devices} (hreach : ¬ r.Reaches chrdev (activationMessage path passwd).length)
    (hsame : called.2 = d) (hneg : r.OthersRefuse → called.1 < 0) :
    Answered sha256 r d chrdev req path passwd (.ok (.ofCall name called)) :=
  ⟨name, called, rfl, fun h => absurd h hreach, fun _ => ⟨hsame, hneg⟩⟩

theorem openFile_closed (h : r.opens = false) (path : Bytes) : r.openFile path = none := by
  simp [ActivationRun.openFile, h]

theorem not_reaches_closed (h : r.opens = false) (chrdev : Option Bytes) (n : ℕ) :
    ¬ r.Reaches chrdev n := by
  simp [ActivationRun.Reaches, h]

/-- A failed `open` is reported like a call that returns an error. -/
theorem answered_open {chrdev : Option Bytes} {req : Request}
    (hreach : ¬ r.Reaches chrdev (activationMessage path passwd).length) :
    Answered sha256 r d chrdev req path passwd (.ok ⟨some "open", d⟩) := by
  have hneg : r.OthersRefuse → ((-1, d) : ℤ × Devices).1 < 0 := fun _ => neg_one_lt_zero
  exact answered_refused hreach rfl hneg

theorem concat_malloc (hmalloc : r.malloc = true) :
    concat r.malloc path passwd = some (activationMessage path passwd) := by
  rw [hmalloc, concat_true, activationMessage]

theorem sentBytes_message :
    sentBytes (activationMessage path passwd) = activationMessage path passwd :=
  sentBytes_concat path passwd

/-- A failed `open` ends every management function. -/
theorem getMgmtFn_closed (h : r.opens = false) (d : Devices) (chrdev : Option Bytes)
    (activate : Bool) :
    getMgmtFn sha256 r d chrdev activate path passwd chrdev = .ok ⟨some "open", d⟩ := by
  have hbind : chrdev.bind r.openFile = none := by
    cases chrdev with
    | none => rfl
    | some node => exact openFile_closed h node
  unfold getMgmtFn
  split_ifs
  · simp only [activateSysfs, doSysfs, openFile_closed h]
  · simp only [deactivateSysfs, doSysfs, openFile_closed h]
  · simp only [activateChrdev, doChrdev, hbind]
  · simp only [deactivateChrdev, doChrdev, hbind]

variable (sha256 path passwd) in
/-- Without a message the tool is killed as soon as it has a file. -/
theorem getMgmtFn_noMalloc (hmalloc : r.malloc = false) (d : Devices) (chrdev : Option Bytes)
    (activate : Bool) :
    getMgmtFn sha256 r d chrdev activate path passwd chrdev = .ok ⟨some "open", d⟩ ∨
      getMgmtFn sha256 r d chrdev activate path passwd chrdev = .error .nullString := by
  have hconcat : concat r.malloc path passwd = none := by rw [hmalloc]; rfl
  have hopen (file : Option ActivationFile) :
      (match file with
        | none => Except.ok (ToolResult.mk (some "open") d)
        | some _ => Except.error ToolFault.nullString) = .ok ⟨some "open", d⟩ ∨
      (match file with
        | none => Except.ok (ToolResult.mk (some "open") d)
        | some _ => Except.error ToolFault.nullString) = .error .nullString := by
    cases file with
    | none => exact .inl rfl
    | some file => exact .inr rfl
  unfold getMgmtFn
  split_ifs
  · simp only [activateSysfs, doSysfs, hconcat]
    exact hopen _
  · simp only [deactivateSysfs, doSysfs, hconcat]
    exact hopen _
  · simp only [activateChrdev, doChrdev, hconcat]
    exact hopen _
  · simp only [deactivateChrdev, doChrdev, hconcat]
    exact hopen _

/-- A tool that could reach the module, and has no message for it. -/
theorem getMgmtFn_killed (hmalloc : r.malloc = false) (d : Devices) {chrdev : Option Bytes} {n : ℕ}
    (hreach : r.Reaches chrdev n) (activate : Bool) :
    getMgmtFn sha256 r d chrdev activate path passwd chrdev = .error .nullString := by
  obtain ⟨hopens, htarget⟩ := hreach
  have hconcat : concat r.malloc path passwd = none := by rw [hmalloc]; rfl
  have hactivate : (kobjAttributes.find? fun attr => moduleKobj ++ attr.1 =
      asciiBytes "/sys/module/blkdev_snapshot/activate_snapshot") =
        some (asciiBytes "activate_snapshot", .activateSnapshot) := by decide
  have hdeactivate : (kobjAttributes.find? fun attr => moduleKobj ++ attr.1 =
      asciiBytes "/sys/module/blkdev_snapshot/deactivate_snapshot") =
        some (asciiBytes "deactivate_snapshot", .deactivateSnapshot) := by decide
  cases hmech : r.mechanism with
  | sysfs =>
    rw [hmech] at htarget
    cases chrdev with
    | none =>
      cases activate with
      | true =>
        show doSysfs sha256 r d _ path passwd = _
        simp [doSysfs, hconcat, ActivationRun.openFile, hopens, hmech, hactivate]
      | false =>
        show doSysfs sha256 r d _ path passwd = _
        simp [doSysfs, hconcat, ActivationRun.openFile, hopens, hmech, hdeactivate]
    | some node => exact htarget.elim
  | chrdev isNode =>
    rw [hmech] at htarget
    cases chrdev with
    | none => exact htarget.elim
    | some node =>
      have hnode : isNode node = true := htarget
      have hkilled (iocmd : UInt32) :
          doChrdev sha256 r d path passwd (some node) iocmd = .error .nullString := by
        simp [doChrdev, hconcat, ActivationRun.openFile, hopens, hmech, hnode]
      cases activate with
      | true => exact hkilled _
      | false => exact hkilled _

theorem sysfsCallWrapper_cut (kmalloc : Bool) (d : Devices) {n : ℕ}
    (fn : Bytes → CString → ℤ × Devices) (hn : n < (activationMessage path passwd).length) :
    ∃ e : Errno, sysfsCallWrapper kmalloc d ((activationMessage path passwd).take n) fn =
      (e.code, d) := by
  unfold sysfsCallWrapper
  split
  · exact ⟨enomem, rfl⟩
  · exact ⟨einval, by rw [callWrapper, parseCallArgs_message_take hn]⟩

/-- What sysfs hands on stays in the buffer of the module. -/
theorem write_message (hk : r.kernfsKmalloc = true) (d : Devices) (req : Request) :
    r.write sha256 d (.attribute req) (activationMessage path passwd) =
      .ok (sysfsCallWrapper r.kmalloc d ((activationMessage path passwd).take pageSize)
        (r.callback sha256 d req)) := by
  have hpos : 0 < (activationMessage path passwd).length := by simp
  have hne : activationMessage path passwd ≠ [] := List.ne_nil_of_length_pos hpos
  have hcut : (activationMessage path passwd).take pageSize ≠ [] := by
    apply List.ne_nil_of_length_pos
    rw [List.length_take]
    exact lt_min (by decide) hpos
  simp only [ActivationRun.write, hk, Bool.not_true, Bool.false_eq_true, if_false, if_neg hne]
  exact sysfsCallWrapperInPlace_eq r.kmalloc d hcut _

theorem doSysfs_answered (hmalloc : r.malloc = true) (d : Devices) {sysfsPath : Bytes}
    {attr : Bytes × Request}
    (hattr : (kobjAttributes.find? fun attr => moduleKobj ++ attr.1 = sysfsPath) =
      some attr) :
    Answered sha256 r d none attr.2 path passwd (doSysfs sha256 r d sysfsPath path passwd) := by
  have hconcat := @concat_malloc r path passwd hmalloc
  cases hopens : r.opens with
  | false =>
    rw [doSysfs, openFile_closed hopens]
    exact answered_open (not_reaches_closed hopens none _)
  | true =>
    cases hmech : r.mechanism with
    | sysfs =>
      have hfile : r.openFile sysfsPath = some (.attribute attr.2) := by
        simp [ActivationRun.openFile, hopens, hmech, hattr]
      simp only [doSysfs, hfile, hconcat, sentBytes_message]
      cases hk : r.kernfsKmalloc with
      | false =>
        have hwritten : r.write sha256 d (.attribute attr.2) (activationMessage path passwd) =
            .ok (enomem.code, d) := by simp [ActivationRun.write, hk]
        rw [hwritten]
        refine answered_refused ?_ rfl fun _ => enomem.code_neg
        simp [ActivationRun.Reaches, hmech, hk]
      | true =>
        rw [write_message hk]
        by_cases hn : (activationMessage path passwd).length ≤ pageSize
        · refine ⟨"write", _, rfl, fun _ => ?_, fun h => absurd ?_ h⟩
          · rw [List.take_of_length_le hn]
          · simpa [ActivationRun.Reaches, hopens, hmech, hk] using hn
        · obtain ⟨e, he⟩ := sysfsCallWrapper_cut r.kmalloc d (r.callback sha256 d attr.2)
            (not_le.mp hn)
          rw [he]
          refine answered_refused ?_ rfl fun _ => e.code_neg
          simpa [ActivationRun.Reaches, hmech, hk] using fun _ => not_le.mp hn
    | chrdev isNode =>
      have hreach : ¬ r.Reaches none (activationMessage path passwd).length := by
        simp [ActivationRun.Reaches, hmech]
      have hfile : r.openFile sysfsPath =
          if isNode sysfsPath then some .chrdev else (r.otherFile sysfsPath).map .other := by
        simp [ActivationRun.openFile, hopens, hmech]
      rw [doSysfs, hfile, hconcat]
      by_cases hnode : isNode sysfsPath = true
      · rw [if_pos hnode]
        exact answered_refused hreach rfl fun _ => einval.code_neg
      · rw [if_neg hnode]
        cases hother : r.otherFile sysfsPath with
        | none => exact answered_open hreach
        | some rv => exact answered_refused hreach rfl fun h => h sysfsPath rv hother

theorem doChrdev_answered (hmalloc : r.malloc = true) (d : Devices)
    (hlen : (activationMessage path passwd).length < 2 ^ 64) (chrdev : Bytes) {iocmd : UInt32}
    (hcmd : iocmd = activateChrdevIoctlCmd ∨ iocmd = deactivateChrdevIoctlCmd) :
    Answered sha256 r d (some chrdev)
      (if iocmd = activateChrdevIoctlCmd then .activateSnapshot else .deactivateSnapshot)
      path passwd
      (doChrdev sha256 r d path passwd (some chrdev) iocmd) := by
  have hconcat := @concat_malloc r path passwd hmalloc
  have hsize : (UInt64.ofNat (activationMessage path passwd).length).toNat =
      (activationMessage path passwd).length := UInt64.toNat_ofNat_of_lt hlen
  have hpos : 0 < (activationMessage path passwd).length := by simp
  cases hopens : r.opens with
  | false =>
    rw [doChrdev, Option.bind_some, openFile_closed hopens]
    exact answered_open (not_reaches_closed hopens (some chrdev) _)
  | true =>
    cases hmech : r.mechanism with
    | sysfs =>
      have hreach : ¬ r.Reaches (some chrdev) (activationMessage path passwd).length := by
        simp [ActivationRun.Reaches, hmech]
      rw [doChrdev, Option.bind_some, hconcat]
      have hfile : r.openFile chrdev = none ∨ (∃ req, r.openFile chrdev = some (.attribute req)) ∨
          ∃ rv, r.otherFile chrdev = some rv ∧ r.openFile chrdev = some (.other rv) := by
        simp only [ActivationRun.openFile, hopens, hmech]
        cases kobjAttributes.find? fun attr => moduleKobj ++ attr.1 = chrdev with
        | some attr => exact .inr (.inl ⟨attr.2, rfl⟩)
        | none =>
          cases r.otherFile chrdev with
          | none => exact .inl rfl
          | some rv => exact .inr (.inr ⟨rv, rfl, rfl⟩)
      rcases hfile with hnone | ⟨req, hattr⟩ | ⟨rv, hother, hfile⟩
      · rw [hnone]
        exact answered_open hreach
      · rw [hattr]
        exact answered_refused hreach rfl fun _ => enotty.code_neg
      · rw [hfile]
        exact answered_refused hreach rfl fun h => h chrdev rv hother
    | chrdev isNode =>
      have hfile : r.openFile chrdev =
          if isNode chrdev then some .chrdev else (r.otherFile chrdev).map .other := by
        simp [ActivationRun.openFile, hopens, hmech]
      rw [doChrdev, Option.bind_some, hfile, hconcat]
      by_cases hnode : isNode chrdev = true
      · have hstable := activationChrdevIoctl_stable r.kmalloc d (r.callback sha256 d) hcmd
          (by rw [hsize]; exact hpos) (le_of_eq hsize)
        rw [hsize, List.take_length] at hstable
        simp only [if_pos hnode, sentBytes_message, ActivationRun.ioctl, hstable]
        refine ⟨"ioctl", _, rfl, fun _ => rfl, fun h => absurd ?_ h⟩
        simpa [ActivationRun.Reaches, hopens, hmech] using hnode
      · have hreach : ¬ r.Reaches (some chrdev) (activationMessage path passwd).length := by
          simpa [ActivationRun.Reaches, hmech] using fun _ => hnode
        rw [if_neg hnode]
        cases hother : r.otherFile chrdev with
        | none => exact answered_open hreach
        | some rv => exact answered_refused hreach rfl fun h => h chrdev rv hother

variable (sha256) in
/-- Whatever function is chosen, the module is asked for what the variables say. -/
theorem getMgmtFn_answered (hmalloc : r.malloc = true) (d : Devices)
    (hlen : (activationMessage path passwd).length < 2 ^ 64) (chrdev : Option Bytes)
    (activate : Bool) :
    Answered sha256 r d chrdev (requestOf activate) path passwd
      (getMgmtFn sha256 r d chrdev activate path passwd chrdev) := by
  have hactivate : (kobjAttributes.find? fun attr => moduleKobj ++ attr.1 =
      asciiBytes "/sys/module/blkdev_snapshot/activate_snapshot") =
        some (asciiBytes "activate_snapshot", .activateSnapshot) := by decide
  have hdeactivate : (kobjAttributes.find? fun attr => moduleKobj ++ attr.1 =
      asciiBytes "/sys/module/blkdev_snapshot/deactivate_snapshot") =
        some (asciiBytes "deactivate_snapshot", .deactivateSnapshot) := by decide
  cases chrdev with
  | none =>
    cases activate with
    | true => exact doSysfs_answered hmalloc d hactivate
    | false => exact doSysfs_answered hmalloc d hdeactivate
  | some chrdev =>
    cases activate with
    | true => exact doChrdev_answered hmalloc d hlen chrdev (.inl rfl)
    | false => exact doChrdev_answered hmalloc d hlen chrdev (.inr rfl)

end Functions

/-! ## What a run does to the registry -/

/-- `MAX_ARG_STRLEN`: a longer word, with its zero, is not accepted by `execve`. -/
def maxArgStrlen : ℕ := 131072

section Registry
variable {permute : Bool} {argv : List Bytes}

theorem optarg_lt (hargv : ∀ word ∈ argv, word.length < maxArgStrlen) {o : ActivationOption}
    {s : CString}
    (h : lastSome (ActivationOption.optarg o) (activationOptions permute argv) = some s) :
    s.1.length < maxArgStrlen := by
  obtain ⟨⟨o', optarg⟩, hmem, ho⟩ := mem_of_lastSome h
  simp only [ActivationOption.optarg] at ho
  split at ho
  · obtain rfl := Option.some.inj ho
    have hle : (cString optarg).1.length ≤ optarg.length := (List.takeWhile_prefix _).length_le
    by_cases hne : optarg = []
    · rw [hne] at hle ⊢
      exact lt_of_le_of_lt hle (by decide)
    · obtain ⟨word, hword, hsuffix⟩ := optarg_of_chosen hmem hne
      exact hle.trans_lt (hsuffix.length_le.trans_lt (hargv word hword))
  · cases ho

theorem length_message_le {path passwd : CString} (hpath : path.1.length < maxArgStrlen)
    (hpasswd : passwd.1.length < maxArgStrlen) :
    (activationMessage path passwd).length ≤ kmallocMaxSize := by
  rw [length_activationMessage]
  simp only [maxArgStrlen] at hpath hpasswd
  simp only [kmallocMaxSize]
  omega

theorem callWrapper_message {path passwd : CString} (hcr : 13 ∉ path.1)
    (fn : Bytes → CString → ℤ × Devices) :
    callWrapper d (activationMessage path passwd) fn =
      if strim path.1 = [] then (einval.code, d)
      else if (fn (strim path.1) passwd).1 ≠ 0 then fn (strim path.1) passwd
      else (intOfSize (activationMessage path passwd).length, (fn (strim path.1) passwd).2) := by
  rw [callWrapper, parseCallArgs_message hcr]
  by_cases hblank : strim path.1 = []
  · rw [if_pos hblank, if_pos hblank]
  · rw [if_neg hblank, if_neg hblank]

/-- The request of a command line is one that the module carries out: it reaches the module with
a path that has something else than white space, the configured password and the rights of
the superuser. -/
structure ActivationRun.Effective (r : ActivationRun) (pw : CString)
    (os : List (ActivationOption × Bytes)) (path : CString) : Prop where
  noHelp : os.findSome? ActivationOption.exits = none
  filepath : (ActivationArgs.last os).filepath = some path
  passwd : (ActivationArgs.last os).passwd = some pw
  checked : doBasicChecksOn (some path) (some pw) = .ok ()
  named : ∃ x ∈ path.1, isspace x = false
  malloc : r.malloc = true
  reaches : r.Reaches (ActivationArgs.last os).chrdev (activationMessage path pw).length
  kmalloc : r.kmalloc = true
  euid : r.euid = 0
  hashOk : r.auth.HashOk r.hash

/-- A request that reaches the module changes the registry as the operation on its path does, or
not at all. -/
theorem sysfsCallWrapper_message (d : Devices) (req : Request) {path passwd : CString}
    (hcr : 13 ∉ path.1)
    (hlen : (activationMessage path passwd).length ≤ kmallocMaxSize) :
    (sysfsCallWrapper r.kmalloc d (activationMessage path passwd) (r.callback sha256 d req)).2 =
      if r.kmalloc = true ∧ strim path.1 ≠ [] ∧
        authCheck sha256 r.hash r.auth r.euid passwd = 0 then
        (req.deviceOperation r.calls d (cstrOfBytes (strim path.1))).2
      else d := by
  cases hk : r.kmalloc with
  | false => simp [sysfsCallWrapper]
  | true =>
    rw [sysfsCallWrapper, if_neg (by simpa using hlen), callWrapper_message hcr]
    by_cases hblank : strim path.1 = []
    · simp [hblank]
    · by_cases hauth : authCheck sha256 r.hash r.auth r.euid passwd = 0
      · simp only [ActivationRun.callback, Request.callback, hauth, hblank, ne_eq,
          not_true_eq_false, if_false, not_false_eq_true, and_self, if_true]
        split <;> rfl
      · simp [ActivationRun.callback, Request.callback, hauth, hblank]

theorem doBasicChecksOn_some {filepath passwd : Option CString}
    (h : doBasicChecksOn filepath passwd = .ok ()) :
    ∃ path pw, filepath = some path ∧ passwd = some pw := by
  cases filepath with
  | none => cases passwd <;> cases h
  | some path =>
    cases passwd with
    | none => cases h
    | some pw => exact ⟨path, pw, rfl, rfl⟩

/-- A tool whose checks fail reports that. -/
theorem activateWith_error {v : ActivationArgs} {message : String}
    (h : doBasicChecksOn v.filepath v.passwd = .error message) (d : Devices) :
    activateWith sha256 r d v = .ok (false, ⟨some message, d⟩) := by
  simp only [activateWith, h]

/-- With its checks passed the tool calls a management function. -/
theorem activateWith_ok {v : ActivationArgs} {path passwd : CString}
    (hpath : v.filepath = some path) (hpasswd : v.passwd = some passwd)
    (hchecks : doBasicChecksOn v.filepath v.passwd = .ok ()) (d : Devices) :
    activateWith sha256 r d v =
      (getMgmtFn sha256 r d v.chrdev v.needToActivate path passwd v.chrdev).map (true, ·) := by
  rw [hpath, hpasswd] at hchecks
  simp only [activateWith, hpath, hpasswd, hchecks]

/-- Behind the loop the tool fails in its checks, or calls a management function. -/
theorem activateWith_cases (hargv : ∀ word ∈ argv, word.length < maxArgStrlen) (d : Devices)
    {v : ActivationArgs}
    (hv : v = ActivationArgs.last (activationOptions permute argv)) :
    (∃ message, doBasicChecksOn v.filepath v.passwd = .error message ∧
      activateWith sha256 r d v = .ok (false, ⟨some message, d⟩)) ∨
    ∃ path passwd, v.filepath = some path ∧ v.passwd = some passwd ∧
      doBasicChecksOn (some path) (some passwd) = .ok () ∧
      (activationMessage path passwd).length ≤ kmallocMaxSize ∧
      activateWith sha256 r d v =
        (getMgmtFn sha256 r d v.chrdev v.needToActivate path passwd v.chrdev).map (true, ·) := by
  cases hchecks : doBasicChecksOn v.filepath v.passwd with
  | error message => exact .inl ⟨message, rfl, activateWith_error hchecks d⟩
  | ok _ =>
    obtain ⟨path, passwd, hpath, hpasswd⟩ := doBasicChecksOn_some hchecks
    have hlen : (activationMessage path passwd).length ≤ kmallocMaxSize :=
      length_message_le (optarg_lt hargv (by rw [hv] at hpath; exact hpath))
        (optarg_lt hargv (by rw [hv] at hpasswd; exact hpasswd))
    refine .inr ⟨path, passwd, hpath, hpasswd, ?_, hlen, activateWith_ok hpath hpasswd hchecks d⟩
    rwa [hpath, hpasswd] at hchecks

/-- Whether a request that is sent and reaches the module is effective. -/
theorem effective_iff {sc : SetupPasswdCalls} {pw path passwd : CString}
    (hset : setupPasswd sha256 sc pw = .ok r.auth) (hsha : NoCollision sha256 sc pw)
    {os : List (ActivationOption × Bytes)}
    (hexits : os.findSome? ActivationOption.exits = none)
    (hpath : (ActivationArgs.last os).filepath = some path)
    (hpasswd : (ActivationArgs.last os).passwd = some passwd)
    (hchecks : doBasicChecksOn (some path) (some passwd) = .ok ()) (hmalloc : r.malloc = true)
    (hreaches : r.Reaches (ActivationArgs.last os).chrdev
      (activationMessage path passwd).length) :
    (∃ path', r.Effective pw os path') ↔ r.kmalloc = true ∧ strim path.1 ≠ [] ∧
      authCheck sha256 r.hash r.auth r.euid passwd = 0 := by
  rw [authCheck_eq_zero_iff hset hsha r.hash r.euid, strim_ne_nil_iff]
  constructor
  · rintro ⟨path', h⟩
    obtain rfl : path' = path := Option.some.inj (h.filepath.symm.trans hpath)
    obtain rfl : pw = passwd := Option.some.inj (h.passwd.symm.trans hpasswd)
    exact ⟨h.kmalloc, h.named, h.euid, rfl, h.hashOk⟩
  · rintro ⟨hkmalloc, hnamed, heuid, rfl, hhash⟩
    exact ⟨path, hexits, hpath, hpasswd, hchecks, hnamed, hmalloc, hreaches, hkmalloc, heuid,
      hhash⟩

/-- For every command line and every outcome of the calls, no access of the module is at fault, and
the registry changes exactly if the request is effective, and then as the operation on the trimmed
path does. -/
theorem activationMain_registry {sc : SetupPasswdCalls} {pw : CString}
    (hset : setupPasswd sha256 sc pw = .ok r.auth) (hsha : NoCollision sha256 sc pw)
    (hargv : ∀ word ∈ argv, word.length < maxArgStrlen) (permute : Bool) (d : Devices) :
    ∃ d', registryAfter d (activationMain sha256 r d permute argv) = some d' ∧
      (∀ path, r.Effective pw (activationOptions permute argv) path →
        d' = ((requestOf
          (ActivationArgs.last (activationOptions permute argv)).needToActivate).deviceOperation
            r.calls d (cstrOfBytes (strim path.1))).2) ∧
      ((¬ ∃ path, r.Effective pw (activationOptions permute argv) path) → d' = d) := by
  rw [activationMain_eq]
  cases hexits : (activationOptions permute argv).findSome? ActivationOption.exits with
  | some status =>
    refine ⟨d, rfl, fun path h => ?_, fun _ => rfl⟩
    rw [h.noHelp] at hexits
    cases hexits
  | none =>
    rcases @activateWith_cases sha256 r permute argv hargv d _ rfl with
      ⟨message, hchecks, hrun⟩ | ⟨path, passwd, hpath, hpasswd, hchecks, hlen, hrun⟩
    · refine ⟨d, by simp only [hrun, registryAfter], fun path h => ?_, fun _ => rfl⟩
      rw [h.filepath, h.passwd, h.checked] at hchecks
      cases hchecks
    · simp only [hrun]
      by_cases hmalloc : r.malloc = true
      swap
      · refine ⟨d, ?_, fun path' h => absurd h.malloc hmalloc, fun _ => rfl⟩
        rcases getMgmtFn_noMalloc sha256 path passwd
          (Bool.eq_false_iff.mpr hmalloc) d
          (ActivationArgs.last (activationOptions permute argv)).chrdev
          (ActivationArgs.last (activationOptions permute argv)).needToActivate with h | h
        · rw [h]
          rfl
        · rw [h]
          rfl
      obtain ⟨name, called, hresult, hreach, hunreached⟩ := getMgmtFn_answered sha256
        hmalloc d (hlen.trans_lt (by decide))
        (ActivationArgs.last (activationOptions permute argv)).chrdev
        (ActivationArgs.last (activationOptions permute argv)).needToActivate
      rw [hresult]
      have hcr := (doBasicChecksOn_ok hchecks).1
      refine ⟨called.2, rfl, fun path' h => ?_, fun hnone => ?_⟩
      · obtain rfl : path' = path := Option.some.inj (h.filepath.symm.trans hpath)
        obtain rfl : pw = passwd := Option.some.inj (h.passwd.symm.trans hpasswd)
        have heffective := (effective_iff hset hsha hexits hpath hpasswd hchecks hmalloc
          h.reaches).mp ⟨path', h⟩
        rw [hreach h.reaches, sysfsCallWrapper_message d _ hcr hlen, if_pos heffective]
      · by_cases hreaches : r.Reaches
            (ActivationArgs.last (activationOptions permute argv)).chrdev
            (activationMessage path passwd).length
        · rw [effective_iff hset hsha hexits hpath hpasswd hchecks hmalloc hreaches] at hnone
          rw [hreach hreaches, sysfsCallWrapper_message d _ hcr hlen, if_neg hnone]
        · exact (hunreached hreaches).1

/-- A run of the superuser with the calls of a device that can be registered. -/
def sampleRun : ActivationRun :=
  ⟨.sysfs, fun _ => none, true, true, true, true, ⟨true, true, .ok ()⟩,
    { sampleRegingCalls with fullPath := .ok }, sampleAuthPasswd, 0⟩

/-- `-d -f " /d" -apw` with a word that is no option: the last of `-d` and `-a` counts. -/
theorem activationMain_registry_activated :
    let argv := ["-d", "x", "-f", " /d", "-appw"].map asciiBytes
    registryAfter noDevices (activationMain sampleSha256 sampleRun noDevices true argv) =
      some (registerDevice sampleRun.calls noDevices ['/', 'd']).2 := by
  intro argv
  have hargv : ∀ word ∈ argv, word.length < maxArgStrlen := by decide
  obtain ⟨d', hrun, heffective, -⟩ :=
    activationMain_registry (r := sampleRun) setupPasswd_sample noCollision_sample hargv true
      noDevices
  refine hrun.trans (congrArg some (heffective ⟨[32, 47, 100], by decide⟩ ?_))
  exact {
    noHelp := by decide
    filepath := by decide
    passwd := by decide
    checked := rfl
    named := ⟨47, by decide, by decide⟩
    malloc := rfl
    reaches := ⟨rfl, rfl, by decide⟩
    kmalloc := rfl
    euid := rfl
    hashOk := ⟨rfl, rfl, rfl⟩ }

/-! ## What the tool tells -/

/-- The path of every backing file can be found out. -/
def ActivationRun.PathsResolve (r : ActivationRun) : Prop :=
  ∀ name, ∃ key, r.calls.fullPath name = .ok key

/-- An operation on the registry returns zero exactly if it has changed it. -/
theorem deviceOperation_settled (hpaths : r.PathsResolve) (d : Devices) (req : Request)
    (name : CStr) : Settled d (req.deviceOperation r.calls d name) := by
  cases req with
  | activateSnapshot =>
    refine registerDevice_settled r.calls d name fun h => ?_
    obtain ⟨backing, e, -, herror⟩ := h.fullPath
    obtain ⟨key, hkey⟩ := hpaths backing
    rw [hkey] at herror
    cases herror
  | deactivateSnapshot => exact unregisterDevice_settled r.calls d name

/-- The module answers with an error exactly if it leaves the registry as it is. -/
theorem sysfsCallWrapper_told (hpaths : r.PathsResolve) (d : Devices) (req : Request)
    (data : Bytes) :
    (sysfsCallWrapper r.kmalloc d data (r.callback sha256 d req)).1 < 0 ↔
      (sysfsCallWrapper r.kmalloc d data (r.callback sha256 d req)).2 = d := by
  unfold sysfsCallWrapper
  split
  · exact iff_of_true enomem.code_neg rfl
  · rename_i hlarge
    have hlen : data.length ≤ kmallocMaxSize := by
      by_contra h
      exact hlarge (by simp [not_le.mp h])
    unfold callWrapper
    split
    · exact iff_of_true einval.code_neg rfl
    · rename_i devn pwd hparse
      simp only [ActivationRun.callback, Request.callback]
      by_cases hauth : authCheck sha256 r.hash r.auth r.euid pwd = 0
      · simp only [hauth, ne_eq, not_true_eq_false, if_false]
        rcases deviceOperation_settled hpaths d req (cstrOfBytes devn) with
          ⟨hzero, hne⟩ | ⟨hneg, hsame⟩
        · rw [if_neg (by simpa using hzero), intOfSize_eq hlen]
          exact iff_of_false (by simp) hne
        · rw [if_pos hneg.ne]
          exact iff_of_true hneg hsame
      · have hneg : authCheck sha256 r.hash r.auth r.euid pwd < 0 :=
          lt_of_le_of_ne (authCheck_nonpos r.hash r.auth r.euid pwd) hauth
        simp only [hauth, ne_eq, not_false_eq_true, if_true, hneg]

/-- The exit of the tool says only that its own checks passed, or that help was asked for; a report
is printed exactly if the registry is as before. -/
theorem activationMain_reports (hothers : r.OthersRefuse) (hpaths : r.PathsResolve)
    (hmalloc : r.malloc = true) (hargv : ∀ word ∈ argv, word.length < maxArgStrlen)
    (permute : Bool) (d : Devices) :
    ∃ status result, activationMain sha256 r d permute argv = .ok (status, result) ∧
      if (activationOptions permute argv).findSome? ActivationOption.exits = none then
        (status = true ↔ doBasicChecksOn
          (ActivationArgs.last (activationOptions permute argv)).filepath
          (ActivationArgs.last (activationOptions permute argv)).passwd = .ok ()) ∧
        (result.report = none ↔ result.devices ≠ d)
      else status = true ∧ result.report = none ∧ result.devices = d := by
  rw [activationMain_eq]
  cases hexits : (activationOptions permute argv).findSome? ActivationOption.exits with
  | some status =>
    refine ⟨status, _, rfl, ?_⟩
    obtain ⟨⟨o, optarg⟩, -, ho⟩ := List.exists_of_findSome?_eq_some hexits
    rw [if_neg (by simp)]
    cases o with
    | help => exact ⟨(Option.some.inj ho).symm, rfl, rfl⟩
    | _ => cases ho
  | none =>
    rcases @activateWith_cases sha256 r permute argv hargv d _ rfl with
      ⟨message, hchecks, hrun⟩ | ⟨path, passwd, hpath, hpasswd, hchecks, hlen, hrun⟩
    · refine ⟨false, _, hrun, ?_⟩
      rw [if_pos rfl, hchecks]
      exact ⟨by simp, by simp⟩
    · obtain ⟨name, called, hresult, hreach, hunreached⟩ := getMgmtFn_answered sha256
        hmalloc d (hlen.trans_lt (by decide))
        (ActivationArgs.last (activationOptions permute argv)).chrdev
        (ActivationArgs.last (activationOptions permute argv)).needToActivate
      rw [hresult] at hrun
      refine ⟨true, .ofCall name called, hrun, ?_⟩
      rw [if_pos rfl, hpath, hpasswd, hchecks]
      refine ⟨by simp, ?_⟩
      have htold : called.1 < 0 ↔ called.2 = d := by
        by_cases hreaches : r.Reaches
            (ActivationArgs.last (activationOptions permute argv)).chrdev
            (activationMessage path passwd).length
        · rw [hreach hreaches]
          exact sysfsCallWrapper_told hpaths d _ _
        · exact iff_of_true ((hunreached hreaches).2 hothers) (hunreached hreaches).1
      show (if called.1 < 0 then some name else none) = none ↔ called.2 ≠ d
      rw [ne_eq, ← htold]
      simp

theorem activationMain_reports_wrong :
    let argv := ["-f/d", "-p", "no"].map asciiBytes
    ∃ status result, activationMain sampleSha256 sampleRun noDevices true argv =
        .ok (status, result) ∧
      if (activationOptions true argv).findSome? ActivationOption.exits = none then
        (status = true ↔ doBasicChecksOn
          (ActivationArgs.last (activationOptions true argv)).filepath
          (ActivationArgs.last (activationOptions true argv)).passwd = .ok ()) ∧
        (result.report = none ↔ result.devices ≠ noDevices)
      else status = true ∧ result.report = none ∧ result.devices = noDevices := by
  intro argv
  have hothers : sampleRun.OthersRefuse := nofun
  have hpaths : sampleRun.PathsResolve := fun name => ⟨name, rfl⟩
  exact activationMain_reports hothers hpaths rfl (by decide) true noDevices

/-! ## The two interfaces -/

/-- The variables of the options in front of `-s` or `-c`. -/
theorem ActivationArgs.last_concat_interface (os : List (ActivationOption × Bytes)) (node : Bytes) :
    ActivationArgs.last (os ++ [(.sysfs, [])]) = { ActivationArgs.last os with chrdev := none } ∧
      ActivationArgs.last (os ++ [(.chrdev, node)]) =
        { ActivationArgs.last os with chrdev := some node } := by
  simp [ActivationArgs.last, lastSome_concat, ActivationOption.setsChrdev,
    ActivationOption.setsActivate, ActivationOption.optarg]

/-- The options of a command line that is written in parts. -/
theorem activationOptions_parts {parts : List (ArgvPart UInt8)}
    (hok : ∀ part ∈ parts, part.Ok '-'.toUInt8 activationOptstring) :
    activationOptions true (parts.flatMap (ArgvPart.words '-'.toUInt8)) =
      (parts.flatMap ArgvPart.items).filterMap ActivationOption.ofItem := by
  have hdash : activationOptstring '-'.toUInt8 = none := by decide
  rw [activationOptions, getopt_parts hdash hok]

/-- The options that a command line gives, in the order of its parts. -/
def optionsOf (parts : List (ArgvPart UInt8)) : List (ActivationOption × Bytes) :=
  (parts.flatMap ArgvPart.items).filterMap ActivationOption.ofItem

/-- A part at the end of a command line adds its options. -/
theorem activationOptions_concat {parts : List (ArgvPart UInt8)} {part : ArgvPart UInt8}
    (hok : ∀ part ∈ parts, part.Ok '-'.toUInt8 activationOptstring)
    (hpart : part.Ok '-'.toUInt8 activationOptstring) :
    activationOptions true ((parts ++ [part]).flatMap (ArgvPart.words '-'.toUInt8)) =
      optionsOf parts ++ part.items.filterMap ActivationOption.ofItem := by
  have hall : ∀ part' ∈ parts ++ [part], part'.Ok '-'.toUInt8 activationOptstring := by
    intro part' hmem
    rcases List.mem_append.mp hmem with h | h
    · exact hok part' h
    · rw [List.mem_singleton.mp h]
      exact hpart
  rw [activationOptions_parts hall, List.flatMap_append, List.filterMap_append, optionsOf,
    List.flatMap_singleton]

/-- A message of at most a page is answered alike through both files. -/
theorem getMgmtFn_interfaces {path passwd : CString} (hkernfs : r.kernfsKmalloc = true)
    {isNode : Bytes → Bool} {node : Bytes} (hnode : isNode node = true)
    (hpage : (activationMessage path passwd).length ≤ pageSize) (d : Devices) (activate : Bool) :
    ((getMgmtFn sha256 { r with mechanism := .sysfs } d none activate path passwd none).map
        (true, ·)).map ToolResult.seen =
      ((getMgmtFn sha256 { r with mechanism := .chrdev isNode } d (some node) activate path passwd
        (some node)).map (true, ·)).map ToolResult.seen := by
  have hlen : (activationMessage path passwd).length < 2 ^ 64 := hpage.trans_lt (by decide)
  set r₁ : ActivationRun := { r with mechanism := .sysfs }
  set r₂ : ActivationRun := { r with mechanism := .chrdev isNode }
  by_cases hopens : r.opens = true
  · have hreach₁ : r₁.Reaches none (activationMessage path passwd).length :=
      ⟨hopens, hkernfs, hpage⟩
    have hreach₂ : r₂.Reaches (some node) (activationMessage path passwd).length :=
      ⟨hopens, hnode⟩
    by_cases hmalloc : r.malloc = true
    · obtain ⟨name₁, called₁, hresult₁, hanswer₁, -⟩ := getMgmtFn_answered sha256
        (r := r₁) hmalloc d hlen none activate
      obtain ⟨name₂, called₂, hresult₂, hanswer₂, -⟩ := getMgmtFn_answered sha256
        (r := r₂) hmalloc d hlen (some node) activate
      obtain rfl : called₁ = called₂ := (hanswer₁ hreach₁).trans (hanswer₂ hreach₂).symm
      rw [hresult₁, hresult₂]
      simp only [Except.map, ToolResult.seen, ToolResult.ofCall]
      split <;> rfl
    · have hnone : r.malloc = false := Bool.eq_false_iff.mpr hmalloc
      rw [getMgmtFn_killed (r := r₁) hnone d hreach₁, getMgmtFn_killed (r := r₂) hnone d hreach₂]
  · have hclosed : r.opens = false := Bool.eq_false_iff.mpr hopens
    rw [getMgmtFn_closed (r := r₁) hclosed, getMgmtFn_closed (r := r₂) hclosed]

/-- A command line that ends in `-s` where the module has attributes, or in `-c` and a node of its
character device where it has none, with a message of at most a page: the tool ends in the same
way and leaves the same registry, with a report in both cases or in none. -/
theorem activationMain_interfaces (hkernfs : r.kernfsKmalloc = true) (isNode : Bytes → Bool)
    {node : Bytes} (hnode : isNode node = true) {parts : List (ArgvPart UInt8)}
    (hok : ∀ part ∈ parts, part.Ok '-'.toUInt8 activationOptstring)
    (hpage : ∀ path passwd, (ActivationArgs.last (optionsOf parts)).filepath = some path →
      (ActivationArgs.last (optionsOf parts)).passwd = some passwd →
      (activationMessage path passwd).length ≤ pageSize)
    (d : Devices) :
    (activationMain sha256 { r with mechanism := .sysfs } d true
        ((parts ++ [ArgvPart.flags ['s'.toUInt8]]).flatMap
          (ArgvPart.words '-'.toUInt8))).map ToolResult.seen =
      (activationMain sha256 { r with mechanism := .chrdev isNode } d true
        ((parts ++ [ArgvPart.separate [] 'c'.toUInt8 node]).flatMap
          (ArgvPart.words '-'.toUInt8))).map ToolResult.seen := by
  have hos₁ := @activationOptions_concat parts (.flags ['s'.toUInt8]) hok
    ⟨by decide, by decide +kernel⟩
  have hos₂ := @activationOptions_concat parts (.separate [] 'c'.toUInt8 node) hok
    ⟨by decide +kernel, by decide +kernel⟩
  have hchosen₁ : (ArgvPart.flags ['s'.toUInt8]).items.filterMap ActivationOption.ofItem =
      [(.sysfs, [])] := rfl
  have hchosen₂ : (ArgvPart.separate [] 'c'.toUInt8 node).items.filterMap ActivationOption.ofItem =
      [(.chrdev, node)] := rfl
  rw [hchosen₁] at hos₁
  rw [hchosen₂] at hos₂
  obtain ⟨hlast₁, hlast₂⟩ := ActivationArgs.last_concat_interface (optionsOf parts) node
  rw [activationMain_eq, activationMain_eq, hos₁, hos₂, List.findSome?_append,
    List.findSome?_append]
  cases hexits : (optionsOf parts).findSome? ActivationOption.exits with
  | some status => rfl
  | none =>
    simp only [hlast₁, hlast₂]
    cases hchecks : doBasicChecksOn (ActivationArgs.last (optionsOf parts)).filepath
        (ActivationArgs.last (optionsOf parts)).passwd with
    | error message =>
      have hrun (r : ActivationRun) (chrdev : Option Bytes) :=
        @activateWith_error sha256 r { ActivationArgs.last (optionsOf parts) with chrdev := chrdev }
          message hchecks d
      simp only [hrun]
      rfl
    | ok _ =>
      obtain ⟨path, passwd, hpath, hpasswd⟩ := doBasicChecksOn_some hchecks
      have hrun (r : ActivationRun) (chrdev : Option Bytes) :=
        @activateWith_ok sha256 r { ActivationArgs.last (optionsOf parts) with chrdev := chrdev }
          path passwd hpath hpasswd hchecks d
      simp only [hrun]
      exact getMgmtFn_interfaces hkernfs hnode (hpage path passwd hpath hpasswd) d _

theorem activationMain_interfaces_deactivate :
    (activationMain sampleSha256 { sampleRun with mechanism := .sysfs } noDevices true
        (["-df", "/d", "-ppw", "-s"].map asciiBytes)).map ToolResult.seen =
      (activationMain sampleSha256 { sampleRun with mechanism := .chrdev fun _ => true } noDevices
        true (["-df", "/d", "-ppw", "-c", "/dev/act"].map asciiBytes)).map ToolResult.seen := by
  have hok : ∀ part ∈ [ArgvPart.separate ['d'.toUInt8] 'f'.toUInt8 (asciiBytes "/d"),
      .attached [] 'p'.toUInt8 (asciiBytes "pw")], part.Ok '-'.toUInt8 activationOptstring := by
    intro part hpart
    simp only [List.mem_cons, List.not_mem_nil, or_false] at hpart
    rcases hpart with rfl | rfl
    · exact ⟨by decide +kernel, by decide +kernel⟩
    · exact ⟨by decide +kernel, by decide +kernel, by decide +kernel⟩
  have hpath : (ActivationArgs.last (optionsOf [.separate ['d'.toUInt8] 'f'.toUInt8
      (asciiBytes "/d"), .attached [] 'p'.toUInt8 (asciiBytes "pw")])).filepath =
        some ⟨[47, 100], by decide +kernel⟩ := by decide +kernel
  have hpasswd : (ActivationArgs.last (optionsOf [.separate ['d'.toUInt8] 'f'.toUInt8
      (asciiBytes "/d"), .attached [] 'p'.toUInt8 (asciiBytes "pw")])).passwd =
        some samplePasswd := by decide +kernel
  refine @activationMain_interfaces sampleSha256 sampleRun rfl (fun _ => true)
    (asciiBytes "/dev/act") rfl _ hok ?_ noDevices
  intro path passwd h₁ h₂
  obtain rfl := Option.some.inj (h₁.symm.trans hpath)
  obtain rfl := Option.some.inj (h₂.symm.trans hpasswd)
  decide

end Registry

end Main

end BlkdevSnapshot

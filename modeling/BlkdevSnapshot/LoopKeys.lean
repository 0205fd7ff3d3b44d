import BlkdevSnapshot.DeviceRegistry

/-!
# Keys of loop images

An image is registered under the path that `d_path` gives for it and looked up under
the file name in its loop device, which holds the first 63 bytes of that path. The
files, their paths and the files behind loop devices are a `FileSystem`; calls that
allocate succeed here.
-/
namespace BlkdevSnapshot

/-- What paths lead to; a regular file is what its own full path leads to. -/
structure FileSystem (ν : Type*) where
  kernPath : CStr → Except Errno ν
  dPath : ν → CStr
  inode : ν → Inode
  backing : UInt32 → Option ν
  canonical : ∀ n, inode n = .reg → (dPath n).length < pathMax → kernPath (dPath n) = .ok n

namespace FileSystem

variable {ν : Type*} (fs : FileSystem ν)

/-- `lo_file_name` of a loop device. -/
def loFileName (rdev : UInt32) : CStr :=
  match fs.backing rdev with
  | some n => (fs.dPath n).take (myLoNameSize - 1)
  | none => []

/-- `get_full_path` with a buffer of `PATH_MAX` bytes. -/
def getFullPath (path : CStr) : Except Errno CStr :=
  match fs.kernPath path with
  | .error e => .error e
  | .ok n => if (fs.dPath n).length < pathMax then .ok (fs.dPath n) else .error enametoolong

/-- The calls of an operation on this file system, with memory for the object at `addr`. -/
def calls (addr : ℕ) (staleKey : ℤ) : RegingCalls where
  inodeOf path := (fs.kernPath path).map fun n => some (fs.inode n)
  fullPath := fs.getFullPath
  loBackingFile rdev := .ok (fs.loFileName rdev)
  kzalloc := some addr
  allocOrderedWorkqueue := some addr
  insert := .ok ()
  kmalloc := true
  removeFast := true
  wlistnode := true
  wargs := true
  staleKey := staleKey

/-- An image file whose canonical path is short enough for a path. -/
structure Image (p : ν) : Prop where
  reg : fs.inode p = .reg
  length_lt : (fs.dPath p).length < pathMax

/-- The two names of an image: a path to it, or to a loop device that it backs. -/
inductive Names (p : ν) : CStr → Prop
  | path {s : CStr} (h : fs.kernPath s = .ok p) : Names p s
  | node {s : CStr} {n : ν} {rdev : UInt32} (h : fs.kernPath s = .ok n)
      (hinode : fs.inode n = .blk rdev) (hmajor : major rdev = loopMajor)
      (hbacking : fs.backing rdev = some p) : Names p s

/-- A loop device with the name of an image. -/
structure LoopDeviceOf (q : ν) (bdev : BlockDevice) : Prop where
  major_eq : major bdev.bdDev = loopMajor
  loFileName_eq : bdev.loFileName = (fs.dPath q).take (myLoNameSize - 1)

/-- Where an image may be registered with a new object at `addr`. -/
structure Registrable (p : ν) (addr : ℕ) (d : Devices) : Prop where
  allowed : d.allowRegingOperation = true
  unregistered : d.loopsHt (fs.dPath p) = none
  fresh : ∀ key o, d.loopsHt key = some o → o.addr ≠ addr

/-- Activated under any of its names, an image is found on the loop devices that it backs
and on no others, cannot be activated again, and is removed under any of its names. -/
def KeyAgrees (p : ν) : Prop :=
  ∀ d addr staleKey s, fs.Registrable p addr d → fs.Names p s →
    ∃ d', registerDevice (fs.calls addr staleKey) d s = (0, d') ∧
      (∀ q bdev, fs.Image q → fs.LoopDeviceOf q bdev →
        ((∃ o, getDeviceDataAlways d' (fromBlockDeviceToMountinfo bdev) = some o ∧
          o.addr = addr) ↔ q = p)) ∧
      (∀ addr' staleKey' s', fs.Names p s' →
        registerDevice (fs.calls addr' staleKey') d' s' = (eexist.code, d')) ∧
      ∀ addr' staleKey' s', fs.Names p s' →
        unregisterDevice (fs.calls addr' staleKey') d' s' = (0, d)

/-- The path of an image fits into the name in a loop device, and no other image has a
path that starts with it and is cut off right behind it. -/
structure KeyFits (p : ν) : Prop where
  length_lt : (fs.dPath p).length < myLoNameSize
  alone : ∀ q, fs.Image q → (fs.dPath q).take (myLoNameSize - 1) = fs.dPath p → q = p

variable {fs} {p : ν}

/-! ## One key for every name -/

theorem getFullPath_of_image (hp : fs.Image p) {path : CStr} (h : fs.kernPath path = .ok p) :
    fs.getFullPath path = .ok (fs.dPath p) := by
  simp [getFullPath, h, hp.length_lt]

theorem loopName_of_path (hp : fs.Image p) {s : CStr} (h : fs.kernPath s = .ok p) (addr : ℕ)
    (staleKey : ℤ) : loopName (fs.calls addr staleKey) s = some s := by
  simp [loopName, calls, h, hp.reg, Except.map]

/-- A name that fits leads the operations on loop devices to the full path. -/
theorem loopName_of_names (hp : fs.Image p) (hfits : (fs.dPath p).length < myLoNameSize)
    {s : CStr} (hs : fs.Names p s) (addr : ℕ) (staleKey : ℤ) :
    ∃ name, loopName (fs.calls addr staleKey) s = some name ∧
      fs.getFullPath name = .ok (fs.dPath p) := by
  cases hs with
  | path h => exact ⟨s, loopName_of_path hp h addr staleKey, getFullPath_of_image hp h⟩
  | @node n rdev h hinode hmajor hbacking =>
    refine ⟨fs.dPath p, ?_, getFullPath_of_image hp (fs.canonical p hp.reg hp.length_lt)⟩
    have hcut : strscpy myLoNameSize (fs.loFileName rdev) = fs.dPath p := by
      rw [loFileName, hbacking, strscpy, List.take_take, min_self]
      exact List.take_of_length_le (Nat.le_sub_one_of_lt hfits)
    simp [loopName, calls, h, hinode, hmajor, Except.map, getLoopDeviceBackingFile, hcut,
      Except.toOption]

section Keys

variable {d : Devices} {s name key : CStr} {addr : ℕ} {staleKey : ℤ}

theorem registerDevice_of_key (hallow : d.allowRegingOperation = true)
    (hname : loopName (fs.calls addr staleKey) s = some name)
    (hfull : fs.getFullPath name = .ok key) :
    registerDevice (fs.calls addr staleKey) d s =
      match d.loopsHt key with
      | some _ => (eexist.code, d)
      | none => (0, { d with
          loopsHt := Function.update d.loopsHt key (some ⟨addr, initObjectData s⟩) }) := by
  rw [registerDevice, doDeviceRegingOperation_of_loopName _ hallow hname]
  cases hkey : d.loopsHt key <;> simp [tryToInsertLoopDevice, calls, hfull, hkey]

theorem unregisterDevice_of_key {o : DeviceObject} (hallow : d.allowRegingOperation = true)
    (hname : loopName (fs.calls addr staleKey) s = some name)
    (hfull : fs.getFullPath name = .ok key) (hfound : d.loopsHt key = some o) :
    unregisterDevice (fs.calls addr staleKey) d s =
      (0, { d with loopsHt := Function.update d.loopsHt key none }) := by
  rw [unregisterDevice, doDeviceRegingOperation_of_loopName _ hallow hname]
  simp [tryToRemoveLoopDevice, calls, hfull, hfound]

end Keys

theorem major_loopMajor : major (loopMajor <<< 20) = loopMajor := by decide

/-- The key of a lookup on a loop device. -/
theorem fromBlockDeviceToMountinfo_of_loopDeviceOf {q : ν} {bdev : BlockDevice}
    (h : fs.LoopDeviceOf q bdev) :
    fromBlockDeviceToMountinfo bdev = .loop ((fs.dPath q).take (myLoNameSize - 1)) := by
  simp only [fromBlockDeviceToMountinfo, h.major_eq, if_true, h.loFileName_eq, strscpy,
    List.take_take, min_self]

/-- The registered object is found by exactly the key that it was registered under. -/
theorem finds_update_iff {addr : ℕ} {d : Devices} (hfresh : ∀ key o, d.loopsHt key = some o →
    o.addr ≠ addr) (value : ObjectData) (key key' : CStr) :
    (∃ o, Function.update d.loopsHt key (some ⟨addr, value⟩) key' = some o ∧ o.addr = addr) ↔
      key' = key := by
  by_cases hkey : key' = key
  · simp [hkey]
  · rw [Function.update_of_ne hkey]
    refine iff_of_false ?_ hkey
    rintro ⟨o, ho, haddr⟩
    exact hfresh key' o ho haddr

/-- The registry with the image inserted under its full path. -/
def registered (fs : FileSystem ν) (p : ν) (d : Devices) (addr : ℕ) (s : CStr) : Devices :=
  { d with loopsHt := Function.update d.loopsHt (fs.dPath p) (some ⟨addr, initObjectData s⟩) }

theorem registerDevice_of_registrable {name s : CStr} {d : Devices} {addr : ℕ} {staleKey : ℤ}
    (hd : fs.Registrable p addr d) (hname : loopName (fs.calls addr staleKey) s = some name)
    (hfull : fs.getFullPath name = .ok (fs.dPath p)) :
    registerDevice (fs.calls addr staleKey) d s = (0, fs.registered p d addr s) := by
  rw [registerDevice_of_key hd.allowed hname hfull, hd.unregistered]
  rfl

/-- The object is found on the loop devices whose names are the full path. -/
theorem finds_registered_iff {d : Devices} {addr : ℕ} (hd : fs.Registrable p addr d) (s : CStr)
    {q : ν} {bdev : BlockDevice} (hdev : fs.LoopDeviceOf q bdev) :
    (∃ o, getDeviceDataAlways (fs.registered p d addr s) (fromBlockDeviceToMountinfo bdev) =
      some o ∧ o.addr = addr) ↔ (fs.dPath q).take (myLoNameSize - 1) = fs.dPath p := by
  rw [fromBlockDeviceToMountinfo_of_loopDeviceOf hdev]
  exact finds_update_iff hd.fresh _ _ _

theorem unregister_registered {d : Devices} {addr : ℕ} (hd : fs.Registrable p addr d) (s : CStr) :
    { fs.registered p d addr s with
      loopsHt := Function.update (fs.registered p d addr s).loopsHt (fs.dPath p) none } = d := by
  simp [registered, ← hd.unregistered]

/-- Registration and lookup agree on an image exactly if its path fits. -/
theorem keyAgrees_iff (fs : FileSystem ν) (hp : fs.Image p) : fs.KeyAgrees p ↔ fs.KeyFits p := by
  have hcanonical := fs.canonical p hp.reg hp.length_lt
  constructor
  · intro h
    have hd : fs.Registrable p 0 ⟨true, fun _ => none, fun _ => none⟩ := ⟨rfl, rfl, nofun⟩
    obtain ⟨d', hreg, hfind, -, -⟩ := h _ 0 0 (fs.dPath p) hd (.path hcanonical)
    rw [registerDevice_of_registrable hd (loopName_of_path hp hcanonical 0 0)
      (getFullPath_of_image hp hcanonical)] at hreg
    obtain rfl : fs.registered p _ 0 (fs.dPath p) = d' := congrArg Prod.snd hreg
    have hlookup (q : ν) (hq : fs.Image q) :
        (fs.dPath q).take (myLoNameSize - 1) = fs.dPath p ↔ q = p := by
      have hdev : fs.LoopDeviceOf q ⟨loopMajor <<< 20, (fs.dPath q).take (myLoNameSize - 1)⟩ :=
        ⟨major_loopMajor, rfl⟩
      rw [← hfind q _ hq hdev, finds_registered_iff hd _ hdev]
    refine ⟨?_, fun q hq => (hlookup q hq).mp⟩
    have hlen := congrArg List.length ((hlookup p hp).mpr rfl)
    rw [List.length_take] at hlen
    simp only [myLoNameSize] at hlen ⊢
    omega
  · intro hfits d addr staleKey s hd hs
    have hkey (addr : ℕ) (staleKey : ℤ) {s : CStr} (hs : fs.Names p s) :=
      loopName_of_names hp hfits.length_lt hs addr staleKey
    obtain ⟨name, hname, hfull⟩ := hkey addr staleKey hs
    refine ⟨_, registerDevice_of_registrable hd hname hfull, fun q bdev hq hdev => ?_,
      fun addr' staleKey' s' hs' => ?_, fun addr' staleKey' s' hs' => ?_⟩
    · refine (finds_registered_iff hd s hdev).trans ⟨hfits.alone q hq, ?_⟩
      rintro rfl
      exact List.take_of_length_le (Nat.le_sub_one_of_lt hfits.length_lt)
    · obtain ⟨name', hname', hfull'⟩ := hkey addr' staleKey' hs'
      rw [registerDevice_of_key (d := fs.registered p d addr s) hd.allowed hname' hfull']
      simp [registered]
    · obtain ⟨name', hname', hfull'⟩ := hkey addr' staleKey' hs'
      rw [unregisterDevice_of_key (d := fs.registered p d addr s) hd.allowed hname' hfull'
        (Function.update_self _ _ _), unregister_registered hd]

/-- The path of the image, or of a copy of it next to it. -/
def copiedPath (copy : Bool) : CStr := if copy then "/i.old".toList else "/i".toList

/-- `kern_path` where an image, a copy of it and the device `/dev/loop0` exist. -/
def copiedKernPath (s : CStr) : Except Errno (Option Bool) :=
  if s = copiedPath false then .ok (some false)
  else if s = copiedPath true then .ok (some true)
  else if s = "/dev/loop0".toList then .ok none
  else .error enoent

def copiedDPath : Option Bool → CStr
  | some copy => copiedPath copy
  | none => "/dev/loop0".toList

theorem copied_canonical (n : Option Bool) : copiedKernPath (copiedDPath n) = .ok n := by
  rcases n with - | (- | -) <;> decide +kernel

/-- An image and its copy; the image backs the device `/dev/loop0`. -/
def copied : FileSystem (Option Bool) where
  kernPath := copiedKernPath
  dPath := copiedDPath
  inode n := if n.isSome then .reg else .blk (loopMajor <<< 20)
  backing _ := some (some false)
  canonical n _ _ := copied_canonical n

theorem image_copied (copy : Bool) : copied.Image (some copy) :=
  ⟨rfl, by cases copy <;> decide⟩

theorem keyAgrees_iff_copied : copied.Image (some true) ∧ copied.KeyAgrees (some false) := by
  refine ⟨image_copied true, (keyAgrees_iff copied (image_copied false)).mpr ⟨by decide, ?_⟩⟩
  intro q hq hkey
  rcases q with - | (- | -)
  · exact absurd hq.reg (by decide)
  · rfl
  · exact absurd hkey (by decide)

/-- `kern_path` where an image at `path` and the device `/dev/loop0` exist. -/
def oneImageKernPath (path s : CStr) : Except Errno Bool :=
  if s = path then .ok false
  else if s = "/dev/loop0".toList then .ok true
  else .error enoent

def oneImageDPath (path : CStr) (n : Bool) : CStr := if n then "/dev/loop0".toList else path

def oneImageInode (n : Bool) : Inode := if n then .blk (loopMajor <<< 20) else .reg

theorem oneImage_canonical (path : CStr) (n : Bool) (hn : oneImageInode n = .reg) :
    oneImageKernPath path (oneImageDPath path n) = .ok n := by
  cases n with
  | false => simp [oneImageKernPath, oneImageDPath]
  | true => simp [oneImageInode] at hn

/-- One image at `path`, which backs the device `/dev/loop0`. -/
def oneImage (path : CStr) : FileSystem Bool where
  kernPath := oneImageKernPath path
  dPath := oneImageDPath path
  inode := oneImageInode
  backing _ := some false
  canonical n hn _ := oneImage_canonical path n hn

theorem image_oneImage {path : CStr} (h : path.length < pathMax) :
    (oneImage path).Image false :=
  ⟨rfl, h⟩

/-- A path of 64 bytes. -/
def longPath : CStr := '/' :: List.replicate 63 'a'

/-- The image is registered under its path, but not found on the device that it backs. -/
theorem not_keyAgrees :
    (oneImage longPath).Image false ∧
    (registerDevice ((oneImage longPath).calls 1 0) ⟨true, fun _ => none, fun _ => none⟩
      longPath).1 = 0 ∧
    getDeviceDataAlways
      (registerDevice ((oneImage longPath).calls 1 0) ⟨true, fun _ => none, fun _ => none⟩
        longPath).2
      (fromBlockDeviceToMountinfo ⟨loopMajor <<< 20, longPath.take (myLoNameSize - 1)⟩) = none ∧
    ¬ (oneImage longPath).KeyAgrees false := by
  have himage : (oneImage longPath).Image false := image_oneImage (by decide)
  have hreturn : (registerDevice ((oneImage longPath).calls 1 0)
      ⟨true, fun _ => none, fun _ => none⟩ longPath).1 = 0 := by decide +kernel
  have hmiss : getDeviceDataAlways
      (registerDevice ((oneImage longPath).calls 1 0) ⟨true, fun _ => none, fun _ => none⟩
        longPath).2
      (fromBlockDeviceToMountinfo ⟨loopMajor <<< 20, longPath.take (myLoNameSize - 1)⟩) = none := by
    decide +kernel
  refine ⟨himage, hreturn, hmiss, fun h => ?_⟩
  obtain ⟨d', hreg, hfind, -⟩ := h ⟨true, fun _ => none, fun _ => none⟩ 1 0 longPath
    ⟨rfl, rfl, nofun⟩ (.path (by decide +kernel))
  obtain ⟨o, ho, -⟩ := (hfind false ⟨loopMajor <<< 20, longPath.take (myLoNameSize - 1)⟩ himage
    ⟨major_loopMajor, rfl⟩).mpr rfl
  rw [hreg] at hmiss
  exact absurd (hmiss.symm.trans ho) nofun

end FileSystem

end BlkdevSnapshot

import BlkdevSnapshot.DeviceRegistry

/-!
# Loading and unloading the module

`init_blkdev_snapshot_module` and `exit_blkdev_snapshot_module` over a table of
file-system supports of any length. A function returns its code together with the
components that it set up and tore down, in order; the codes of the kernel calls
and of the setup steps that the module takes as a whole come from outside.
-/
namespace BlkdevSnapshot

/-- What the setup steps of the module provide. -/
inductive Component where
  | blkdevsHt
  | loopsHt
  | fssupport (idx : ℕ)
  | mounts
  | activationMechanism
  deriving DecidableEq, Repr

inductive SetupEvent where
  | up (c : Component)
  | down (c : Component)
  deriving DecidableEq, Repr

/-- `struct fssupport_struct`, with the code that its `regi` returns. -/
structure FssupportStruct where
  name : CStr
  regi : ℤ

/-- The codes of the calls of `init_blkdev_snapshot_module`. -/
structure SetupOutcomes where
  blkdevsHtInit : ℤ
  loopsHtInit : ℤ
  mounts : ℤ
  activationMechanism : ℤ

/-- `setup_devices` -/
def setupDevices (o : SetupOutcomes) : ℤ × List SetupEvent :=
  if o.blkdevsHtInit ≠ 0 then (einval.code, [])
  else if o.loopsHtInit ≠ 0 then (einval.code, [.up .blkdevsHt, .down .blkdevsHt])
  else (0, [.up .blkdevsHt, .up .loopsHt])

/-- `destroy_devices` -/
def destroyDevices : List SetupEvent := [.down .blkdevsHt, .down .loopsHt]

/-- The loop of `setup_fssupport` from index `i` on. The undo loop counts with `j`
but calls `supported_fs[i].unregi()`. -/
def setupFssupportFrom (i : ℕ) : List FssupportStruct → ℤ × List SetupEvent
  | [] => (0, [])
  | fs :: rest =>
    if fs.regi ≠ 0 then (1, (List.range i).map fun _ => .down (.fssupport i))
    else
      let more := setupFssupportFrom (i + 1) rest
      (more.1, .up (.fssupport i) :: more.2)

/-- `setup_fssupport` -/
def setupFssupport (supportedFs : List FssupportStruct) : ℤ × List SetupEvent :=
  setupFssupportFrom 0 supportedFs

/-- `destroy_fssupport` -/
def destroyFssupport (supportedFs : List FssupportStruct) : List SetupEvent :=
  (List.range supportedFs.length).map fun i => .down (.fssupport i)

/-- A setup step that provides its component exactly when it returns 0. -/
def setupStep (c : Component) (rv : ℤ) : ℤ × List SetupEvent :=
  (rv, if rv = 0 then [.up c] else [])

/-- `setup_mounts` -/
def setupMounts (o : SetupOutcomes) : ℤ × List SetupEvent := setupStep .mounts o.mounts

/-- `destroy_mounts` -/
def destroyMounts : List SetupEvent := [.down .mounts]

/-- `setup_activation_mechanism` -/
def setupActivationMechanism (o : SetupOutcomes) : ℤ × List SetupEvent :=
  setupStep .activationMechanism o.activationMechanism

/-- `destroy_activation_mechanism` -/
def destroyActivationMechanism : List SetupEvent := [.down .activationMechanism]

/-- The test of `activation_ct_passwd`. -/
def hasPasswd (passwd : Option CStr) : Bool := passwd.any (! ·.isEmpty)

/-- `init_blkdev_snapshot_module` -/
def initBlkdevSnapshotModule (passwd : Option CStr) (o : SetupOutcomes)
    (supportedFs : List FssupportStruct) : ℤ × List SetupEvent :=
  if !hasPasswd passwd then (enodata.code, [])
  else
    let devices := setupDevices o
    if devices.1 ≠ 0 then devices
    else
      let fssupport := setupFssupport supportedFs
      if fssupport.1 ≠ 0 then (fssupport.1, devices.2 ++ fssupport.2 ++ destroyDevices)
      else
        let mounts := setupMounts o
        if mounts.1 ≠ 0 then
          (mounts.1, devices.2 ++ fssupport.2 ++ mounts.2 ++
            destroyFssupport supportedFs ++ destroyDevices)
        else
          let activation := setupActivationMechanism o
          if activation.1 ≠ 0 then
            (activation.1, devices.2 ++ fssupport.2 ++ mounts.2 ++ activation.2 ++
              destroyMounts ++ destroyFssupport supportedFs ++ destroyDevices)
          else (activation.1, devices.2 ++ fssupport.2 ++ mounts.2 ++ activation.2)

/-- `exit_blkdev_snapshot_module` -/
def exitBlkdevSnapshotModule (supportedFs : List FssupportStruct) : List SetupEvent :=
  destroyActivationMechanism ++ destroyMounts ++ destroyFssupport supportedFs ++ destroyDevices

/-- The components of the module with `n` file-system supports, in setup order. -/
def components (n : ℕ) : List Component :=
  [.blkdevsHt, .loopsHt] ++ (List.range n).map .fssupport ++ [.mounts, .activationMechanism]

/-- Everything that was set up was torn down exactly once, later, and nothing else was. -/
def RolledBack (evs : List SetupEvent) : Prop :=
  ∀ c, evs.count (.up c) ≤ 1 ∧ evs.count (.down c) = evs.count (.up c) ∧
    ∀ p, p <+: evs → p.count (.down c) ≤ p.count (.up c)

/-- Init returned 0 with everything set up, or a negative code with all rolled back. -/
def AllOrNothing (n : ℕ) (r : ℤ × List SetupEvent) : Prop :=
  (r.1 = 0 ∧ ∀ c ∈ components n, r.2.count (.up c) = 1 ∧ r.2.count (.down c) = 0) ∨
    (r.1 < 0 ∧ RolledBack r.2)

section Count
variable (cs : List Component) (c : Component)

@[simp] theorem count_up_ups : (cs.map SetupEvent.up).count (.up c) = cs.count c :=
  List.count_map_of_injective _ _ (fun _ _ h => SetupEvent.up.inj h) _

@[simp] theorem count_down_downs : (cs.map SetupEvent.down).count (.down c) = cs.count c :=
  List.count_map_of_injective _ _ (fun _ _ h => SetupEvent.down.inj h) _

@[simp] theorem count_down_ups : (cs.map SetupEvent.up).count (.down c) = 0 := by
  simp [List.count_eq_zero]

@[simp] theorem count_up_downs : (cs.map SetupEvent.down).count (.up c) = 0 := by
  simp [List.count_eq_zero]

end Count

/-- Setting up distinct components and then tearing them down in any order rolls back. -/
theorem rolledBack_of_perm {ups downs : List Component} (hnd : ups.Nodup) (h : downs.Perm ups) :
    RolledBack (ups.map .up ++ downs.map .down) := by
  intro c
  have hcount := h.count_eq c
  have hone := List.nodup_iff_count_le_one.mp hnd c
  refine ⟨by simpa using hone, by simpa using hcount, fun p hp => ?_⟩
  rcases List.prefix_or_prefix_of_prefix hp (List.prefix_append _ _) with hup | hup
  · have hle := hup.sublist.count_le (.down c)
    rw [count_down_ups] at hle
    omega
  · have hle := hup.sublist.count_le (.up c)
    have hle' := hp.sublist.count_le (.down c)
    simp only [count_up_ups, List.count_append, count_down_ups, count_down_downs] at hle hle'
    omega

/-- The hash tables of the devices. -/
def deviceTables : List Component := [.blkdevsHt, .loopsHt]

/-- The supports from index `i` on. -/
def fssupports (i n : ℕ) : List Component := (List.range' i n).map .fssupport

theorem setupFssupportFrom_ok {fss : List FssupportStruct} (h : ∀ fs ∈ fss, fs.regi = 0) (i : ℕ) :
    setupFssupportFrom i fss = (0, (fssupports i fss.length).map .up) := by
  induction fss generalizing i with
  | nil => rfl
  | cons fs rest ih =>
    have hfs : fs.regi = 0 := h fs List.mem_cons_self
    rw [setupFssupportFrom, if_neg (not_not.mpr hfs),
      ih (fun g hg => h g (List.mem_cons_of_mem _ hg)) (i + 1)]
    simp [fssupports, List.range'_succ]

/-- A support whose `regi` fails makes `setup_fssupport` return 1. -/
theorem setupFssupportFrom_failed {fss : List FssupportStruct} (h : ∃ fs ∈ fss, fs.regi ≠ 0)
    (i : ℕ) : (setupFssupportFrom i fss).1 = 1 := by
  induction fss generalizing i with
  | nil => simp at h
  | cons fs rest ih =>
    rw [setupFssupportFrom]
    by_cases hfs : fs.regi = 0
    · rw [if_neg (not_not.mpr hfs)]
      obtain ⟨g, hg, hne⟩ := h
      have hrest : g ∈ rest := (List.mem_cons.mp hg).resolve_left fun he => hne (he ▸ hfs)
      exact ih ⟨g, hrest, hne⟩ (i + 1)
    · rw [if_pos hfs]

theorem destroyFssupport_eq (fss : List FssupportStruct) :
    destroyFssupport fss = (fssupports 0 fss.length).map .down := by
  simp [destroyFssupport, fssupports, List.range_eq_range']

theorem components_eq (n : ℕ) :
    components n = deviceTables ++ fssupports 0 n ++ [.mounts, .activationMechanism] := by
  simp [components, deviceTables, fssupports, List.range_eq_range']

theorem components_nodup (n : ℕ) : (components n).Nodup := by
  have hfs : (fssupports 0 n).Nodup :=
    List.Nodup.map (fun _ _ h => Component.fssupport.inj h) List.nodup_range'
  have hmem (c : Component) (hc : c ∈ fssupports 0 n) : ∃ i, .fssupport i = c := by
    obtain ⟨i, -, hi⟩ := List.mem_map.mp hc
    exact ⟨i, hi⟩
  rw [components_eq]
  refine List.nodup_append.mpr ⟨List.nodup_append.mpr ⟨by decide, hfs, ?_⟩, by decide, ?_⟩
  · rintro a ha b hb rfl
    obtain ⟨i, rfl⟩ := hmem a hb
    simp [deviceTables] at ha
  · rintro a ha b hb rfl
    rcases List.mem_append.mp ha with ha | ha
    · simp only [deviceTables, List.mem_cons, List.not_mem_nil, or_false] at ha hb
      rcases ha with rfl | rfl <;> simp at hb
    · obtain ⟨i, rfl⟩ := hmem a ha
      simp at hb

variable (passwd : Option CStr) (o : SetupOutcomes) (supportedFs : List FssupportStruct)

/-- The events of an init that returns 0. -/
theorem initBlkdevSnapshotModule_ok (hp : hasPasswd passwd) (hb : o.blkdevsHtInit = 0)
    (hl : o.loopsHtInit = 0) (hfs : ∀ fs ∈ supportedFs, fs.regi = 0) (hm : o.mounts = 0)
    (ha : o.activationMechanism = 0) :
    initBlkdevSnapshotModule passwd o supportedFs =
      (0, (components supportedFs.length).map .up) := by
  simp [initBlkdevSnapshotModule, hp, setupDevices, hb, hl, setupFssupport,
    setupFssupportFrom_ok hfs, setupMounts, setupStep, hm, setupActivationMechanism, ha,
    components_eq, deviceTables]

/-- The events of an init whose `setup_mounts` fails. -/
theorem initBlkdevSnapshotModule_mounts (hp : hasPasswd passwd) (hb : o.blkdevsHtInit = 0)
    (hl : o.loopsHtInit = 0) (hfs : ∀ fs ∈ supportedFs, fs.regi = 0) (hm : o.mounts ≠ 0) :
    initBlkdevSnapshotModule passwd o supportedFs =
      (o.mounts,
        (deviceTables ++ fssupports 0 supportedFs.length).map .up ++
        (fssupports 0 supportedFs.length ++ deviceTables).map .down) := by
  simp [initBlkdevSnapshotModule, hp, setupDevices, hb, hl, setupFssupport,
    setupFssupportFrom_ok hfs, setupMounts, setupStep, hm, destroyFssupport_eq, destroyDevices,
    deviceTables]

/-- The events of an init whose `setup_activation_mechanism` fails. -/
theorem initBlkdevSnapshotModule_activation (hp : hasPasswd passwd) (hb : o.blkdevsHtInit = 0)
    (hl : o.loopsHtInit = 0) (hfs : ∀ fs ∈ supportedFs, fs.regi = 0) (hm : o.mounts = 0)
    (ha : o.activationMechanism ≠ 0) :
    initBlkdevSnapshotModule passwd o supportedFs =
      (o.activationMechanism,
        (deviceTables ++ fssupports 0 supportedFs.length ++ [Component.mounts]).map .up ++
        ([Component.mounts] ++ fssupports 0 supportedFs.length ++ deviceTables).map .down) := by
  simp [initBlkdevSnapshotModule, hp, setupDevices, hb, hl, setupFssupport,
    setupFssupportFrom_ok hfs, setupMounts, setupStep, hm, setupActivationMechanism, ha,
    destroyFssupport_eq, destroyDevices, destroyMounts,
    deviceTables]

/-- A support that cannot be registered makes init return 1. -/
theorem initBlkdevSnapshotModule_regi (hp : hasPasswd passwd) (hb : o.blkdevsHtInit = 0)
    (hl : o.loopsHtInit = 0) (hfs : ∃ fs ∈ supportedFs, fs.regi ≠ 0) :
    (initBlkdevSnapshotModule passwd o supportedFs).1 = 1 := by
  simp [initBlkdevSnapshotModule, hp, setupDevices, hb, hl, setupFssupport,
    setupFssupportFrom_failed hfs]

theorem allOrNothing_failed {n : ℕ} {rv : ℤ} {evs : List SetupEvent} (h : rv ≠ 0) :
    AllOrNothing n (rv, evs) ↔ rv < 0 ∧ RolledBack evs :=
  ⟨fun hr => hr.resolve_left fun hz => h hz.1, .inr⟩

theorem rolledBack_devices :
    RolledBack ([Component.blkdevsHt].map .up ++ [Component.blkdevsHt].map .down) :=
  rolledBack_of_perm (List.nodup_singleton _) (.refl _)

theorem rolledBack_mounts (n : ℕ) :
    RolledBack ((deviceTables ++ fssupports 0 n).map .up ++
      (fssupports 0 n ++ deviceTables).map .down) := by
  refine rolledBack_of_perm ((components_nodup n).sublist ?_) List.perm_append_comm
  rw [components_eq]
  exact List.sublist_append_left _ _

theorem rolledBack_activation (n : ℕ) :
    RolledBack ((deviceTables ++ fssupports 0 n ++ [Component.mounts]).map .up ++
      ([Component.mounts] ++ fssupports 0 n ++ deviceTables).map .down) := by
  refine rolledBack_of_perm ((components_nodup n).sublist ?_) ?_
  · rw [components_eq]
    exact List.Sublist.append_left 
      (List.sublist_append_left [Component.mounts] [Component.activationMechanism]) _
  · refine List.perm_iff_count.mpr fun c => ?_
    simp only [List.count_append]
    omega

/-- Init is all or nothing exactly when no support that it comes to fails to register
and no later step fails with a positive code. -/
theorem init_allOrNothing_iff :
    AllOrNothing supportedFs.length (initBlkdevSnapshotModule passwd o supportedFs) ↔
      (hasPasswd passwd → o.blkdevsHtInit = 0 → o.loopsHtInit = 0 →
        (∀ fs ∈ supportedFs, fs.regi = 0) ∧ o.mounts ≤ 0 ∧
          (o.mounts = 0 → o.activationMechanism ≤ 0)) := by
  have hnil : RolledBack [] := rolledBack_of_perm List.nodup_nil (.refl _)
  by_cases hp : hasPasswd passwd
  · by_cases hb : o.blkdevsHtInit = 0
    · by_cases hl : o.loopsHtInit = 0
      · simp only [hp, hb, hl, forall_const]
        by_cases hfs : ∀ fs ∈ supportedFs, fs.regi = 0
        · by_cases hm : o.mounts = 0
          · by_cases ha : o.activationMechanism = 0
            · rw [initBlkdevSnapshotModule_ok passwd o supportedFs hp hb hl hfs hm ha]
              have hall : AllOrNothing supportedFs.length
                  (0, (components supportedFs.length).map .up) := by
                refine .inl ⟨rfl, fun c hc => ⟨?_, count_down_ups _ c⟩⟩
                rw [count_up_ups]
                exact List.count_eq_one_of_mem (components_nodup _) hc
              exact ⟨fun _ => ⟨hfs, hm.le, fun _ => ha.le⟩, fun _ => hall⟩
            · rw [initBlkdevSnapshotModule_activation passwd o supportedFs hp hb hl hfs hm ha,
                allOrNothing_failed ha]
              have hback := rolledBack_activation supportedFs.length
              constructor
              · rintro ⟨hneg, -⟩
                exact ⟨hfs, hm.le, fun _ => hneg.le⟩
              · rintro ⟨-, -, hle⟩
                exact ⟨lt_of_le_of_ne (hle hm) ha, hback⟩
          · rw [initBlkdevSnapshotModule_mounts passwd o supportedFs hp hb hl hfs hm,
              allOrNothing_failed hm]
            have hback := rolledBack_mounts supportedFs.length
            constructor
            · rintro ⟨hneg, -⟩
              exact ⟨hfs, hneg.le, fun hz => absurd hz hm⟩
            · rintro ⟨-, hle, -⟩
              exact ⟨lt_of_le_of_ne hle hm, hback⟩
        · have hone := initBlkdevSnapshotModule_regi passwd o supportedFs hp hb hl
            (by simpa using hfs)
          constructor
          · rintro (⟨hz, -⟩ | ⟨hneg, -⟩) <;> omega
          · rintro ⟨hall, -⟩
            exact absurd hall hfs
      · have hdev : initBlkdevSnapshotModule passwd o supportedFs =
            (einval.code, [.up .blkdevsHt, .down .blkdevsHt]) := by
          simp [initBlkdevSnapshotModule, hp, setupDevices, hb, hl, einval.code_neg.ne]
        rw [hdev, allOrNothing_failed (by decide)]
        exact ⟨fun _ _ _ h => absurd h hl, fun _ => ⟨by decide, rolledBack_devices⟩⟩
    · have hdev : initBlkdevSnapshotModule passwd o supportedFs = (einval.code, []) := by
        simp [initBlkdevSnapshotModule, hp, setupDevices, hb, einval.code_neg.ne]
      rw [hdev, allOrNothing_failed (by decide)]
      exact ⟨fun _ _ h => absurd h hb, fun _ => ⟨by decide, hnil⟩⟩
  · have hdata : initBlkdevSnapshotModule passwd o supportedFs = (enodata.code, []) := by
      simp [initBlkdevSnapshotModule, hp]
    rw [hdata, allOrNothing_failed (by decide)]
    exact ⟨fun _ h => absurd h hp, fun _ => ⟨by decide, hnil⟩⟩

/-- The second of two supports fails to register: the first one stays set up, the
second one is torn down instead, the devices are gone and the module stays loaded. -/
theorem not_init_allOrNothing :
    initBlkdevSnapshotModule (some ['p']) ⟨0, 0, 0, 0⟩ [⟨['a'], 0⟩, ⟨['b'], -22⟩] =
      (1, [.up .blkdevsHt, .up .loopsHt, .up (.fssupport 0), .down (.fssupport 1),
        .down .blkdevsHt, .down .loopsHt]) ∧
    ¬ AllOrNothing 2 (initBlkdevSnapshotModule (some ['p']) ⟨0, 0, 0, 0⟩
      [⟨['a'], 0⟩, ⟨['b'], -22⟩]) := by
  have hrun : initBlkdevSnapshotModule (some ['p']) ⟨0, 0, 0, 0⟩ [⟨['a'], 0⟩, ⟨['b'], -22⟩] =
      (1, [.up .blkdevsHt, .up .loopsHt, .up (.fssupport 0), .down (.fssupport 1),
        .down .blkdevsHt, .down .loopsHt]) := by
    decide
  refine ⟨hrun, fun h => ?_⟩
  rw [hrun] at h
  rcases h with ⟨hz, -⟩ | ⟨hneg, -⟩
  · exact absurd hz (by decide)
  · exact absurd hneg (by decide)

/-- After an init that returned 0 the exit function tears everything down once. -/
theorem exitBlkdevSnapshotModule_rolledBack (fss : List FssupportStruct) :
    RolledBack ((components fss.length).map .up ++ exitBlkdevSnapshotModule fss) := by
  have hexit : exitBlkdevSnapshotModule fss =
      ([Component.activationMechanism] ++ [Component.mounts] ++
      fssupports 0 fss.length ++ deviceTables).map .down := by
    simp [exitBlkdevSnapshotModule, destroyActivationMechanism, destroyMounts, destroyFssupport_eq,
      destroyDevices, deviceTables]
  rw [hexit]
  refine rolledBack_of_perm (components_nodup _) ?_
  refine List.perm_iff_count.mpr fun c => ?_
  simp only [components_eq, List.count_append, List.count_cons, List.count_nil]
  omega

end BlkdevSnapshot

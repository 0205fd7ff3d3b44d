import BlkdevSnapshot.Getopt
import BlkdevSnapshot.Prompts
import BlkdevSnapshot.RepeatedRecords
import BlkdevSnapshot.Strtoull

/-!
# The command line of the restore tool

`main` of the restore tool: the loop over `getopt`, the checks behind it and `do_restore`
with the two files opened. Of all options that set one variable the last one counts, except
that help and a number out of range end the tool as soon as they are met.
-/
namespace BlkdevSnapshot
open Getopt

/-- The options of the restore tool, in the order of its `switch`. -/
inductive RestoreOption where
  | help
  | snapblocksPath
  | devicePath
  | blknum
  | notAll
  | all
  | prompt
  | noPrompt
  deriving DecidableEq, Repr

namespace RestoreOption

/-- The letter of an option. -/
def letter : RestoreOption → UInt8
  | help => 'h'.toUInt8
  | snapblocksPath => 's'.toUInt8
  | devicePath => 'f'.toUInt8
  | blknum => 'n'.toUInt8
  | notAll => 'o'.toUInt8
  | all => 'a'.toUInt8
  | prompt => 'p'.toUInt8
  | noPrompt => 'c'.toUInt8

/-- The cases of the `switch` of `main`. -/
def cases : List RestoreOption :=
  [help, snapblocksPath, devicePath, blknum, notAll, all, prompt, noPrompt]

/-- The case that a result of `getopt` takes, with `optarg`. -/
def ofItem : Item UInt8 → Option (RestoreOption × Bytes) := Item.chosen letter cases

end RestoreOption

/-- The option string of `main`. -/
def restoreOptstring : UInt8 → Option Bool := optstring ':'.toUInt8 (asciiBytes "hs:f:n:oapc")

/-- `to_u64`; `none` is an exit with a failure. -/
def toU64 (arg : Bytes) : Option UInt64 :=
  if (strtoull arg).2 = none then some (strtoull arg).1 else none

/-- The variables that the options set. -/
structure RestoreArgs where
  snapblocksPath : Option Bytes
  devicePath : Option Bytes
  opts : RestoreOpts
  deriving DecidableEq, Repr

namespace RestoreArgs

/-- The variables at the start of the tool. -/
def init : RestoreArgs := ⟨none, none, ⟨true, 0, true⟩⟩

/-- A case of the `switch`: the variables, or the success of an exit. -/
def set (v : RestoreArgs) : RestoreOption × Bytes → Except Bool RestoreArgs
  | (.help, _) => .error true
  | (.snapblocksPath, optarg) => .ok { v with snapblocksPath := some optarg }
  | (.devicePath, optarg) => .ok { v with devicePath := some optarg }
  | (.blknum, optarg) =>
    match toU64 optarg with
    | none => .error false
    | some u => .ok { v with opts := ⟨false, u, v.opts.ask⟩ }
  | (.notAll, _) => .ok { v with opts := ⟨false, v.opts.restoreOnlyBlknum, v.opts.ask⟩ }
  | (.all, _) => .ok { v with opts := ⟨true, v.opts.restoreOnlyBlknum, v.opts.ask⟩ }
  | (.prompt, _) => .ok { v with opts := ⟨v.opts.restoreAll, v.opts.restoreOnlyBlknum, true⟩ }
  | (.noPrompt, _) => .ok { v with opts := ⟨v.opts.restoreAll, v.opts.restoreOnlyBlknum, false⟩ }

/-- The loop over `getopt`. -/
def scan (os : List (RestoreOption × Bytes)) : Except Bool RestoreArgs := os.foldlM set init

end RestoreArgs

/-- The files that the tool opens, by their paths: bytes to read, and a device to write. -/
structure RestoreFiles where
  snapblocks : Bytes → Option Bytes
  device : Bytes → Option (DeviceKind × Bytes)

/-- The part of `main` behind the loop, with the two `open` calls of `do_restore`: whether the
tool succeeds, and the state that the restore has reached. -/
def restoreWith (files : RestoreFiles) (outs : ℕ → IterOutcomes) (fuel : ℕ) (stdin : Bytes)
    (v : RestoreArgs) : Option (Bool × Option RestoreState) :=
  match v.snapblocksPath, v.devicePath with
  | some snapblocksPath, some devicePath =>
    match files.snapblocks snapblocksPath with
    | none => some (false, none)
    | some snaps =>
      match files.device devicePath with
      | none => some (false, none)
      | some (kind, data) =>
        (doRestore v.opts outs fuel snaps (.start kind data stdin)).map fun r => (r.2, some r.1)
  | _, _ => some (false, none)

/-- The options on a command line. -/
def restoreOptions (permute : Bool) (argv : List Bytes) : List (RestoreOption × Bytes) :=
  (getopt '-'.toUInt8 restoreOptstring permute argv).filterMap RestoreOption.ofItem

/-- `main` of the restore tool. -/
def restoreMain (files : RestoreFiles) (outs : ℕ → IterOutcomes) (fuel : ℕ) (stdin : Bytes)
    (permute : Bool) (argv : List Bytes) : Option (Bool × Option RestoreState) :=
  match RestoreArgs.scan (restoreOptions permute argv) with
  | .error status => some (status, none)
  | .ok v => restoreWith files outs fuel stdin v

/-! ## The last option counts -/

namespace RestoreOption

/-- An option that ends the tool, with its success. -/
def exits : RestoreOption × Bytes → Option Bool
  | (help, _) => some true
  | (blknum, optarg) => if toU64 optarg = none then some false else none
  | _ => none

/-- The argument of an option. -/
def optarg (o : RestoreOption) (x : RestoreOption × Bytes) : Option Bytes :=
  if x.1 = o then some x.2 else none

/-- What an option makes of `restore_all`. -/
def setsAll : RestoreOption × Bytes → Option Bool
  | (blknum, _) => some false
  | (notAll, _) => some false
  | (all, _) => some true
  | _ => none

/-- What an option makes of `ask`. -/
def setsAsk : RestoreOption × Bytes → Option Bool
  | (prompt, _) => some true
  | (noPrompt, _) => some false
  | _ => none

end RestoreOption

/-- Each variable as the last option says that sets it. -/
def RestoreArgs.last (os : List (RestoreOption × Bytes)) : RestoreArgs where
  snapblocksPath := lastSome (RestoreOption.optarg .snapblocksPath) os
  devicePath := lastSome (RestoreOption.optarg .devicePath) os
  opts :=
    { restoreAll := (lastSome RestoreOption.setsAll os).getD true
      restoreOnlyBlknum := ((lastSome (RestoreOption.optarg .blknum) os).bind toU64).getD 0
      ask := (lastSome RestoreOption.setsAsk os).getD true }

theorem RestoreArgs.set_last (os : List (RestoreOption × Bytes)) (o : RestoreOption × Bytes) :
    (RestoreArgs.last os).set o =
      (RestoreOption.exits o).elim (.ok (RestoreArgs.last (os ++ [o]))) .error := by
  obtain ⟨o, optarg⟩ := o
  cases o with
  | blknum =>
    cases hu : toU64 optarg with
    | none => simp [RestoreArgs.set, RestoreOption.exits, hu]
    | some u =>
      simp [RestoreArgs.set, RestoreOption.exits, RestoreArgs.last, lastSome_concat,
        RestoreOption.optarg, RestoreOption.setsAll, RestoreOption.setsAsk, hu]
  | _ =>
    simp [RestoreArgs.set, RestoreOption.exits, RestoreArgs.last, lastSome_concat,
      RestoreOption.optarg, RestoreOption.setsAll, RestoreOption.setsAsk]

/-- The loop ends the tool at the first option that does so; without such an option every
variable is as the last option says that sets it. -/
theorem RestoreArgs.scan_eq (os : List (RestoreOption × Bytes)) :
    RestoreArgs.scan os =
      (os.findSome? RestoreOption.exits).elim (.ok (RestoreArgs.last os)) .error :=
  foldlM_last RestoreArgs.set_last os

theorem restoreMain_eq (files : RestoreFiles) (outs : ℕ → IterOutcomes) (fuel : ℕ) (stdin : Bytes)
    (permute : Bool) (argv : List Bytes) :
    restoreMain files outs fuel stdin permute argv =
      match (restoreOptions permute argv).findSome? RestoreOption.exits with
      | some status => some (status, none)
      | none => restoreWith files outs fuel stdin
          (RestoreArgs.last (restoreOptions permute argv)) := by
  rw [restoreMain, RestoreArgs.scan_eq]
  cases (restoreOptions permute argv).findSome? RestoreOption.exits with
  | some status => rfl
  | none => rfl

/-- However the options are written and whatever other words stand between them, the tool exits
at the first help or number out of range; otherwise it restores with each variable as the last
option says that sets it. -/
theorem restoreMain_parts (files : RestoreFiles) (outs : ℕ → IterOutcomes) (fuel : ℕ)
    (stdin : Bytes) {parts : List (ArgvPart UInt8)}
    (hok : ∀ part ∈ parts, part.Ok '-'.toUInt8 restoreOptstring) :
    restoreMain files outs fuel stdin true (parts.flatMap (ArgvPart.words '-'.toUInt8)) =
      match ((parts.flatMap ArgvPart.items).filterMap RestoreOption.ofItem).findSome?
          RestoreOption.exits with
      | some status => some (status, none)
      | none => restoreWith files outs fuel stdin
          (RestoreArgs.last ((parts.flatMap ArgvPart.items).filterMap RestoreOption.ofItem)) := by
  have hdash : restoreOptstring '-'.toUInt8 = none := by decide
  rw [restoreMain_eq, restoreOptions, getopt_parts hdash hok]

/-- Options together in a word, an argument in its own word and a word that is no option. -/
theorem restoreMain_parts_mixed :
    let files : RestoreFiles :=
      ⟨fun _ => some (encodeLog pairRecords), fun _ => some (.block, [0, 0, 0, 0])⟩
    let parts : List (ArgvPart UInt8) :=
      [.flags (asciiBytes "oa"), .operand (asciiBytes "x"),
        .attached (asciiBytes "c") 'n'.toUInt8 (asciiBytes "5"),
        .separate [] 'f'.toUInt8 (asciiBytes "dev"), .separate [] 's'.toUInt8 (asciiBytes "snap")]
    parts.flatMap (ArgvPart.words '-'.toUInt8) = ["-oa", "x", "-cn5", "-f", "dev", "-s", "snap"].map
        asciiBytes ∧
      restoreMain files (fun _ => .allDone) 4 [] true
          (parts.flatMap (ArgvPart.words '-'.toUInt8)) =
        restoreWith files (fun _ => .allDone) 4 []
          ⟨some (asciiBytes "snap"), some (asciiBytes "dev"), ⟨false, 5, false⟩⟩ := by
  intro files parts
  have hok : ∀ part ∈ parts, part.Ok '-'.toUInt8 restoreOptstring := by
    intro part hpart
    simp only [parts, List.mem_cons, List.not_mem_nil, or_false] at hpart
    rcases hpart with rfl | rfl | rfl | rfl | rfl
    · exact ⟨by decide +kernel, by decide +kernel⟩
    · exact .inl (by decide +kernel)
    · exact ⟨by decide +kernel, by decide +kernel, by decide +kernel⟩
    · exact ⟨by decide +kernel, by decide +kernel⟩
    · exact ⟨by decide +kernel, by decide +kernel⟩
  refine ⟨by decide +kernel, ?_⟩
  rw [restoreMain_parts files _ 4 [] hok]
  have hitems : (parts.flatMap ArgvPart.items).filterMap RestoreOption.ofItem =
      [(.notAll, []), (.all, []), (.noPrompt, []), (.blknum, asciiBytes "5"),
        (.devicePath, asciiBytes "dev"), (.snapblocksPath, asciiBytes "snap")] := by decide +kernel
  have hexits : [(RestoreOption.notAll, []), (.all, []), (.noPrompt, []),
      (.blknum, asciiBytes "5"), (.devicePath, asciiBytes "dev"),
      (.snapblocksPath, asciiBytes "snap")].findSome? RestoreOption.exits = none := by decide
  rw [hitems, hexits]
  rfl

/-! ## The block number that is shown -/

/-- `to_u64` takes the text that `" * block number: %ld\n"` shows for the number itself. -/
theorem toU64_ldText (blknr : UInt64) : toU64 (ldText blknr) = some blknr := by
  simp [toU64, strtoull_ldText]

/-- The offset at which the tool writes the payload of a record, in 64 bits. -/
def Record.offset (r : Record) : ℕ := (r.blknr * r.payldsiz).toNat

/-- A raw payload that one call reads, with room on the device at its offset. -/
structure Record.Placed (r : Record) (d : Device) : Prop where
  raw : r.payldType = snapblockPayloadTypeRaw
  count : r.payload.length ≤ maxRwCount
  room : r.offset + r.payload.length ≤ d.capacity

section Single
variable {b : UInt64} {rs : List Record} {r first : Record} {s : RestoreState}

/-- A placed record is written as a whole. -/
theorem Record.Placed.restorePayload (h : r.Placed s.dev) :
    ∃ t, BlkdevSnapshot.restorePayload .allDone r s = (t, .next) ∧
      t.dev.data = overwrite s.dev.data r.offset r.payload := by
  have hmax := s.dev.capacity_le
  have hroom := h.room
  simp only [maxLfsFilesize] at hmax
  have hoff : loff (r.blknr * r.payldsiz) = (r.offset : ℤ) := by
    rw [loff_of_lt (show r.offset < 2 ^ 63 by omega)]
    rfl
  have hin : ¬ (loff (r.blknr * r.payldsiz) < 0 ∨
      (s.dev.kind = .block ∧ (s.dev.data.length : ℤ) < loff (r.blknr * r.payldsiz))) := by
    rw [hoff]
    rintro (hneg | ⟨hk, hpast⟩)
    · omega
    · have := Device.capacity_le_length hk
      omega
  have hseek : s.dev.lseekSet (r.blknr * r.payldsiz) = { s.dev with pos := r.offset } := by
    rw [Device.lseekSet, if_neg hin, hoff, Int.toNat_natCast]
  let d : Device := { s.dev with pos := r.offset }
  have hfree : r.payload.length ≤ d.room := by
    have hcap : s.dev.capacity - r.offset ≤ d.room := d.capacity_sub_le_room
    omega
  have hmin : min r.payload.length (min maxRwCount d.room) = r.payload.length :=
    min_eq_left (le_min h.count hfree)
  have hwrite : d.write .done r.payload =
      ({ d with data := overwrite d.data d.pos r.payload, pos := d.pos + r.payload.length },
        some r.payload.length) := by
    simp [Device.write, IoOutcome.count, hmin]
  simp only [BlkdevSnapshot.restorePayload, hseek, IterOutcomes.allDone]
  rw [hwrite]
  exact ⟨_, Prod.ext rfl (if_pos rfl), rfl⟩

/-- One iteration with `-n` at a record of another block. -/
theorem restoreIter_other {pre post : Bytes} (hb : r.blknr ≠ b) (hpos : s.snapsPos = pre.length)
    (hlen : (pre ++ (r.encode ++ post)).length ≤ maxLfsFilesize) :
    ∃ t, restoreIter ⟨false, b, false⟩ .allDone (pre ++ (r.encode ++ post)) s = (t, .next) ∧
      t.snapsPos = (pre ++ r.encode).length ∧ t.dev = s.dev := by
  have hafter : ({ s with snapsPos := pre.length + sizeofHdr }.emit
      (.header pre.length r.hdr) : RestoreState).snapsPos = pre.length + sizeofHdr := rfl
  have hread : IterOutcomes.allDone.headerRead.count sizeofHdr = some sizeofHdr := rfl
  have hother : (!false && b != r.hdr.blknr) = true := bne_iff_ne.mpr hb.symm
  rw [restoreIter_record _ _ r hpos, if_pos hread, restoreRecord_eq, if_pos hother,
    seekNexthdr_record r hafter hlen, List.length_append]
  exact ⟨_, rfl, rfl, rfl⟩

/-- One iteration with `-n` at a placed record of the block. -/
theorem restoreIter_single {pre post : Bytes} (hb : r.blknr = b) (hplaced : r.Placed s.dev)
    (hpos : s.snapsPos = pre.length)
    (hlen : (pre ++ (r.encode ++ post)).length ≤ maxLfsFilesize) :
    ∃ t, restoreIter ⟨false, b, false⟩ .allDone (pre ++ (r.encode ++ post)) s = (t, .leave) ∧
      t.dev.data = overwrite s.dev.data r.offset r.payload := by
  let s' : RestoreState := { s with snapsPos := pre.length + sizeofHdr }.emit
    (.header pre.length r.hdr)
  have hafter : s'.snapsPos = pre.length + sizeofHdr := rfl
  have hread : IterOutcomes.allDone.headerRead.count sizeofHdr = some sizeofHdr := rfl
  have hcount : IoOutcome.done.count (min r.payload.length maxRwCount) =
      some r.payload.length := by
    rw [min_eq_left hplaced.count]
    rfl
  obtain ⟨t, hrestore, hdata⟩ := Record.Placed.restorePayload
    (s := { s' with snapsPos := pre.length + r.encode.length }) hplaced
  have htype : restoreByType .allDone (pre ++ (r.encode ++ post)) r.hdr s' = (t, .next) := by
    have hraw : r.hdr.payldType = snapblockPayloadTypeRaw := hplaced.raw
    rw [restoreByType, if_pos hraw, doRestoreRawblocks_record .allDone r hafter hlen]
    simp only [IterOutcomes.allDone, hcount, if_true]
    exact hrestore
  have hsame : ¬ (!false && b != r.hdr.blknr) = true := fun h => bne_iff_ne.mp h hb.symm
  rw [restoreIter_record _ _ r hpos, if_pos hread, restoreRecord_eq, if_neg hsame]
  simp only [askUser, Bool.false_and, Bool.false_eq_true, if_false, and_true]
  rw [htype]
  exact ⟨t, rfl, hdata⟩

/-- With `-n` the loop passes the records of other blocks and restores the first of its own. -/
theorem restoreLoop_single (pre : Bytes) (hfirst : rs.find? (·.blknr = b) = some first)
    (hlen : (pre ++ encodeLog rs).length ≤ maxLfsFilesize) (hpos : s.snapsPos = pre.length)
    (hplaced : first.Placed s.dev) {n : ℕ} (hn : rs.length < n) (i : ℕ) :
    ∃ t, restoreLoop ⟨false, b, false⟩ (fun _ => .allDone) (pre ++ encodeLog rs) n i s =
        (t, .leave) ∧
      t.dev.data = overwrite s.dev.data first.offset first.payload := by
  induction rs generalizing pre s n i with
  | nil => cases hfirst
  | cons r rs ih =>
    obtain ⟨n, rfl⟩ := Nat.exists_eq_succ_of_ne_zero (Nat.ne_of_gt (Nat.zero_lt_of_lt hn))
    rw [encodeLog_cons] at hlen ⊢
    by_cases hb : r.blknr = b
    · rw [List.find?_cons_of_pos (by simpa using hb)] at hfirst
      obtain rfl := Option.some.inj hfirst
      obtain ⟨t, hiter, hdata⟩ := restoreIter_single hb hplaced hpos hlen
      exact ⟨t, by rw [restoreLoop, hiter], hdata⟩
    · rw [List.find?_cons_of_neg (by simpa using hb)] at hfirst
      obtain ⟨t, hiter, hpos', hdev⟩ := restoreIter_other hb hpos hlen
      have hturns : rs.length < n := by simpa using hn
      rw [← List.append_assoc] at hlen
      obtain ⟨u, hloop, hdata⟩ := ih _ hfirst hlen hpos' (by rwa [hdev]) hturns (i + 1)
      rw [List.append_assoc] at hloop
      rw [hdev] at hdata
      exact ⟨u, by rw [restoreLoop, hiter]; exact hloop, hdata⟩

end Single

/-- With the number that is shown for a record as the last `-n` the tool restores the first
record of that block, if that is placed, and nothing else. -/
theorem restoreMain_shown (files : RestoreFiles) {snapblocksPath devicePath data : Bytes}
    {kind : DeviceKind} {rs : List Record} (hlen : (encodeLog rs).length ≤ maxLfsFilesize)
    (hsnaps : files.snapblocks snapblocksPath = some (encodeLog rs))
    (hdevice : files.device devicePath = some (kind, data)) (permute : Bool) (argv : List Bytes)
    {b : UInt64} {first : Record} (hfirst : rs.find? (·.blknr = b) = some first)
    (hplaced : first.Placed ⟨kind, data, 0⟩)
    (hexits : (restoreOptions permute argv).findSome? RestoreOption.exits = none)
    (hs : lastSome (RestoreOption.optarg .snapblocksPath) (restoreOptions permute argv) =
      some snapblocksPath)
    (hf : lastSome (RestoreOption.optarg .devicePath) (restoreOptions permute argv) =
      some devicePath)
    (hn : lastSome (RestoreOption.optarg .blknum) (restoreOptions permute argv) =
      some (ldText b))
    (hall : lastSome RestoreOption.setsAll (restoreOptions permute argv) = some false)
    (hask : lastSome RestoreOption.setsAsk (restoreOptions permute argv) = some false)
    (stdin : Bytes) {fuel : ℕ} (hfuel : rs.length < fuel) :
    ∃ t, restoreMain files (fun _ => .allDone) fuel stdin permute argv = some (true, some t) ∧
      t.dev.data = overwrite data first.offset first.payload := by
  obtain ⟨t, hloop, hdata⟩ := restoreLoop_single (s := .start kind data stdin) [] hfirst
    hlen rfl hplaced hfuel 0
  rw [List.nil_append] at hloop
  have hrestore : doRestore ⟨false, b, false⟩ (fun _ => .allDone) fuel (encodeLog rs)
      (.start kind data stdin) = some (t, true) := by
    rw [doRestore, hloop]
  refine ⟨t, ?_, hdata⟩
  rw [restoreMain_eq, hexits]
  simp only [restoreWith, RestoreArgs.last, hs, hf, hn, hall, hask, Option.bind_some,
    toU64_ldText, Option.getD_some, hsnaps, hdevice, hrestore, Option.map_some]

/-- A record of block 2^63 behind one of block 1: its number is shown as a negative one, and in
64 bits its offset is zero. -/
theorem restoreMain_shown_negative :
    let files : RestoreFiles :=
      ⟨fun _ => some (encodeLog [.pair 1 3 4, .pair 0x8000000000000000 7 9]),
        fun _ => some (.block, [0, 0, 0, 0])⟩
    let argv : List Bytes :=
      ["-a", "-s", "snap", "-fdev", "-pc", "-n", "-9223372036854775808"].map asciiBytes
    ∃ t, restoreMain files (fun _ => .allDone) 3 [] true argv = some (true, some t) ∧
      t.dev.data = overwrite [0, 0, 0, 0] 0 [7, 9] := by
  intro files argv
  have hlen : (encodeLog [.pair 1 3 4, .pair 0x8000000000000000 7 9]).length ≤ maxLfsFilesize := by
    decide
  have hfirst : [Record.pair 1 3 4, .pair 0x8000000000000000 7 9].find?
      (·.blknr = 0x8000000000000000) = some (.pair 0x8000000000000000 7 9) := by rfl
  have hplaced : (Record.pair 0x8000000000000000 7 9).Placed ⟨.block, [0, 0, 0, 0], 0⟩ :=
    ⟨rfl, by decide, by decide⟩
  have hsnaps : files.snapblocks (asciiBytes "snap") =
      some (encodeLog [.pair 1 3 4, .pair 0x8000000000000000 7 9]) := rfl
  have hdevice : files.device (asciiBytes "dev") = some (.block, [0, 0, 0, 0]) := rfl
  exact restoreMain_shown files hlen hsnaps hdevice true argv hfirst hplaced (by decide)
    (by decide) (by decide) (by decide) (by decide) (by decide) [] (by decide)

end BlkdevSnapshot

import BlkdevSnapshot.RestoreInPlace

/-!
# The answers in ask mode

Each prompt of the tool reads with `fgets` into a buffer of ten bytes. A line of up to
eight bytes is taken whole, with its newline; what is left of a longer one answers the
prompts behind it. The lines of the input and the selected records are compared with the
prompts that a run leaves in its log.
-/
namespace BlkdevSnapshot

/-- The lines of an input, without their newlines. A rest without one is no line. -/
def inputLines : Bytes → List Bytes
  | [] => []
  | b :: bs =>
    if b = 10 then [] :: inputLines bs
    else
      match inputLines bs with
      | [] => []
      | l :: ls => (b :: l) :: ls

/-- The text `yes`. -/
def yesText : Bytes := [121, 101, 115]

/-- A prompt in the log of the tool, with the bytes that it has read and the writes
that follow it. -/
structure Prompt where
  blknr : UInt64
  ans : Bytes
  writes : List (ℕ × Bytes)
  deriving DecidableEq, Repr

/-- The writes at the start of a log. -/
def firstWrites : List RestoreEvent → List (ℕ × Bytes)
  | .write off bytes :: es => (off, bytes) :: firstWrites es
  | _ => []

/-- The prompts in a log. -/
def promptsIn : List RestoreEvent → List Prompt
  | [] => []
  | .prompt b ans :: es => ⟨b, ans, firstWrites es⟩ :: promptsIn es
  | .header _ _ :: es => promptsIn es
  | .write _ _ :: es => promptsIn es

/-- The records that the options select. -/
def RestoreOpts.selects (opts : RestoreOpts) (r : Record) : Bool :=
  opts.restoreAll || opts.restoreOnlyBlknum == r.blknr

/-- The records that are prompted for among selected ones, with the bytes read: with `-n`
they end at the first yes. -/
def answers (all : Bool) : List Record → Bytes → List (Record × Bytes)
  | [], _ => []
  | r :: rs, stdin =>
    (r, (fgets 10 stdin).1) ::
      if isYes (fgets 10 stdin).1 && !all then [] else answers all rs (fgets 10 stdin).2

/-- The prompt that an answer leaves in the log. -/
def promptOf (a : Record × Bytes) : Prompt :=
  ⟨a.1.blknr, a.2, dueWrite .allDone (a.1, isYes a.2)⟩

/-- The `k`-th prompt is for the `k`-th selected record, reads the `k`-th line of the input,
and is followed by what restores the record exactly if that line is `yes`. -/
structure AnsweredByLines (opts : RestoreOpts) (rs : List Record) (stdin : Bytes)
    (t : RestoreState) : Prop where
  restored : ∀ (k : ℕ) (p : Prompt), (promptsIn t.log)[k]? = some p →
    ∃ r, (rs.filter opts.selects)[k]? = some r ∧ p.blknr = r.blknr ∧
      p.writes = dueWrite .allDone (r, decide ((inputLines stdin)[k]? = some yesText))
  oneLine : ∀ (k : ℕ) (p : Prompt) (line : Bytes), (promptsIn t.log)[k]? = some p →
    (inputLines stdin)[k]? = some line → p.ans = line ++ [10]
  unread : stdin = (promptsIn t.log).flatMap Prompt.ans ++ t.stdin

/-- Every line that a prompt comes to has at most eight bytes. -/
def LinesFit (all : Bool) (selected : List Record) (stdin : Bytes) : Prop :=
  ∀ (k : ℕ) (line : Bytes), k < selected.length → (inputLines stdin)[k]? = some line →
    (all = true ∨ yesText ∉ (inputLines stdin).take k) → line.length ≤ 8

section Lines
variable {line rest : Bytes}

theorem inputLines_of_notMem {input : Bytes} (h : 10 ∉ input) : inputLines input = [] := by
  induction input with
  | nil => rfl
  | cons b bs ih =>
    obtain ⟨hb, hbs⟩ := not_or.mp (mt List.mem_cons.mpr h)
    rw [inputLines, if_neg (Ne.symm hb), ih hbs]

theorem inputLines_append (h : 10 ∉ line) (rest : Bytes) :
    inputLines (line ++ 10 :: rest) = line :: inputLines rest := by
  induction line with
  | nil => rfl
  | cons b bs ih =>
    obtain ⟨hb, hbs⟩ := not_or.mp (mt List.mem_cons.mpr h)
    rw [List.cons_append, inputLines, if_neg (Ne.symm hb), ih hbs]

/-- An input starts with a line, or it has none. -/
theorem startsWithLine (input : Bytes) :
    10 ∉ input ∨ ∃ line rest, input = line ++ 10 :: rest ∧ 10 ∉ line := by
  by_cases h : 10 ∈ input
  · exact .inr (List.eq_append_cons_of_mem h)
  · exact .inl h

theorem fgets_length_le (stdin : Bytes) : (fgets 10 stdin).1.length ≤ 9 := by
  simp only [fgets, List.length_take]
  omega

/-- The bytes read and the rest make up the input. -/
theorem fgets_append (stdin : Bytes) : (fgets 10 stdin).1 ++ (fgets 10 stdin).2 = stdin := by
  have hhead : (fgets 10 stdin).1 <+: stdin := (List.take_prefix _ _).trans (List.take_prefix _ _)
  have hrest : (fgets 10 stdin).2 = stdin.drop (fgets 10 stdin).1.length := rfl
  rw [hrest]
  nth_rewrite 1 [List.prefix_iff_eq_take.mp hhead]
  exact List.take_append_drop _ _

/-- A line of at most eight bytes is read whole. -/
theorem fgets_line (h : 10 ∉ line) (hlen : line.length ≤ 8) (rest : Bytes) :
    fgets 10 (line ++ 10 :: rest) = (line ++ [10], rest) := by
  have hchunk : (line ++ 10 :: rest).take 9 = line ++ 10 :: rest.take (8 - line.length) := by
    rw [List.take_append, List.take_of_length_le (by omega)]
    have hmore : 9 - line.length = 8 - line.length + 1 := by omega
    rw [hmore, List.take_succ_cons]
  have hnone : line.findIdx (· == 10) = line.length := by
    rw [List.findIdx_eq_length]
    intro b hb
    rw [beq_eq_false_iff_ne]
    rintro rfl
    exact h hb
  have hidx : (line ++ 10 :: rest.take (8 - line.length)).findIdx (· == 10) = line.length := by
    rw [List.findIdx_append, hnone, if_neg (lt_irrefl _), List.findIdx_cons]
    simp
  have hfirst : (fgets 10 (line ++ 10 :: rest)).1 = line ++ [10] := by
    simp only [fgets]
    rw [hchunk, hidx, List.take_append, List.take_of_length_le (by omega)]
    simp
  have hsecond := fgets_append (line ++ 10 :: rest)
  rw [hfirst, List.append_assoc, List.append_cancel_left_eq] at hsecond
  exact Prod.ext hfirst (List.cons.inj hsecond).2

theorem mem_of_isYes {ans : Bytes} (h : isYes ans = true) : 10 ∈ ans := by
  rw [isYes, beq_iff_eq] at h
  have hmem : (10 : UInt8) ∈ ans.takeWhile (· ≠ 0) := by
    rw [h]
    decide
  exact (List.takeWhile_sublist _).mem hmem

/-- The answer is yes exactly if the line is. -/
theorem isYes_line (h : 10 ∉ line) : isYes (line ++ [10]) = decide (line = yesText) := by
  rw [Bool.eq_iff_iff, decide_eq_true_iff]
  constructor
  · intro hyes
    rw [isYes, beq_iff_eq] at hyes
    have hhead : yesText ++ [10] <+: line ++ [10] := by
      have hprefix := List.takeWhile_prefix (fun b : UInt8 => decide (b ≠ 0)) (l := line ++ [10])
      rwa [hyes] at hprefix
    obtain ⟨tail, htail⟩ := hhead
    rcases List.eq_nil_or_concat tail with rfl | ⟨tail, x, rfl⟩
    · rw [List.append_nil] at htail
      exact (List.append_cancel_right htail).symm
    · rw [List.concat_eq_append, ← List.append_assoc] at htail
      have hline := (List.append_inj' htail rfl).1
      exact absurd (by simp [← hline]) h
  · rintro rfl
    rfl

end Lines

section Answers
variable {all : Bool} {rs : List Record} {stdin : Bytes}

/-- Without a newline in the input no answer is yes. -/
theorem answers_of_notMem (h : 10 ∉ stdin) (all : Bool) (rs : List Record) :
    ∀ a ∈ answers all rs stdin, 10 ∉ a.2 := by
  induction rs generalizing stdin with
  | nil => simp [answers]
  | cons r rs ih =>
    have happ := fgets_append stdin
    have hfirst : 10 ∉ (fgets 10 stdin).1 := fun hm => h (happ ▸ List.mem_append_left _ hm)
    have hsecond : 10 ∉ (fgets 10 stdin).2 := fun hm => h (happ ▸ List.mem_append_right _ hm)
    intro a ha
    rw [answers, List.mem_cons] at ha
    rcases ha with rfl | ha
    · exact hfirst
    · split at ha
      · simp at ha
      · exact ih hsecond a ha

/-- The `k`-th prompt is for the `k`-th record. -/
theorem answers_record {k : ℕ} {a : Record × Bytes} (ha : (answers all rs stdin)[k]? = some a) :
    rs[k]? = some a.1 := by
  induction rs generalizing stdin k with
  | nil => simp [answers] at ha
  | cons r rs ih =>
    rw [answers] at ha
    cases k with
    | zero =>
      obtain rfl := Option.some.inj ha
      rfl
    | succ k =>
      rw [List.getElem?_cons_succ] at ha ⊢
      split at ha
      · simp at ha
      · exact ih ha

theorem LinesFit.head {r : Record} {line rest : Bytes} (hline : 10 ∉ line)
    (h : LinesFit all (r :: rs) (line ++ 10 :: rest)) : line.length ≤ 8 := by
  apply h 0 line
  · simp
  · rw [inputLines_append hline, List.getElem?_cons_zero]
  · simp

theorem LinesFit.tail {r : Record} {line rest : Bytes} (hline : 10 ∉ line)
    (h : LinesFit all (r :: rs) (line ++ 10 :: rest)) (hgo : ¬ (line = yesText ∧ all = false)) :
    LinesFit all rs rest := by
  intro k l hk hl hno
  apply h (k + 1) l
  · simpa using hk
  · rwa [inputLines_append hline, List.getElem?_cons_succ]
  · rw [inputLines_append hline, List.take_succ_cons, List.mem_cons]
    cases all with
    | true => exact .inl rfl
    | false =>
      have hne : yesText ≠ line := fun he => hgo ⟨he.symm, rfl⟩
      simpa [hne] using hno

theorem linesFit_of_notMem (h : 10 ∉ stdin) : LinesFit all rs stdin := by
  intro k line hk hline
  simp [inputLines_of_notMem h] at hline

theorem linesFit_cons {r : Record} {line rest : Bytes} (hline : 10 ∉ line)
    (hlen : line.length ≤ 8) (h : ¬ (line = yesText ∧ all = false) → LinesFit all rs rest) :
    LinesFit all (r :: rs) (line ++ 10 :: rest) := by
  intro k l hk hl hno
  rw [inputLines_append hline] at hl hno
  cases k with
  | zero =>
    obtain rfl : line = l := by simpa using hl
    exact hlen
  | succ k =>
    rw [List.getElem?_cons_succ] at hl
    rw [List.take_succ_cons, List.mem_cons, not_or] at hno
    apply h ?_ k l
    · simpa using hk
    · exact hl
    · exact hno.imp_right And.right
    · rintro ⟨rfl, rfl⟩
      simp at hno

/-- As long as the lines fit, the answers are the lines. -/
theorem answers_eq_lines (h : LinesFit all rs stdin) (k : ℕ) (a : Record × Bytes)
    (ha : (answers all rs stdin)[k]? = some a) :
    (∀ line ∈ (inputLines stdin)[k]?, a.2 = line ++ [10]) ∧
      isYes a.2 = decide ((inputLines stdin)[k]? = some yesText) := by
  induction rs generalizing stdin k with
  | nil => simp [answers] at ha
  | cons r rs ih =>
    rcases startsWithLine stdin with hnone | ⟨line, rest, rfl, hline⟩
    · have hno := answers_of_notMem hnone all (r :: rs) a (List.mem_of_getElem? ha)
      have hfalse : isYes a.2 = false :=
        Bool.eq_false_of_not_eq_true fun hyes => hno (mem_of_isYes hyes)
      simp [inputLines_of_notMem hnone, hfalse]
    · rw [answers, fgets_line hline (h.head hline), isYes_line hline] at ha
      rw [inputLines_append hline]
      cases k with
      | zero =>
        obtain rfl : (r, line ++ [10]) = a := by simpa using ha
        simp [isYes_line hline]
      | succ k =>
        simp only [List.getElem?_cons_succ] at ha ⊢
        split at ha
        · simp at ha
        · rename_i hgo
          apply ih (h.tail hline ?_) k ha
          rintro ⟨rfl, rfl⟩
          simp at hgo

/-- Answers that are lines come from lines that fit. -/
theorem linesFit_of_answers
    (h : ∀ (k : ℕ) (a : Record × Bytes), (answers all rs stdin)[k]? = some a →
      ∀ line ∈ (inputLines stdin)[k]?, a.2 = line ++ [10]) : LinesFit all rs stdin := by
  induction rs generalizing stdin with
  | nil =>
    intro k line hk
    simp at hk
  | cons r rs ih =>
    rcases startsWithLine stdin with hnone | ⟨line, rest, rfl, hline⟩
    · exact linesFit_of_notMem hnone
    · have hfirst : (fgets 10 (line ++ 10 :: rest)).1 = line ++ [10] :=
        h 0 (r, _) rfl line (by rw [inputLines_append hline]; rfl)
      have hlen : line.length ≤ 8 := by
        have hle := fgets_length_le (line ++ 10 :: rest)
        rw [hfirst, List.length_append, List.length_singleton] at hle
        omega
      apply linesFit_cons hline hlen
      intro hgo
      apply ih
      intro k a ha l hl
      apply h (k + 1) a
      · rw [answers, fgets_line hline hlen, isYes_line hline, if_neg (by simpa using hgo),
          List.getElem?_cons_succ]
        exact ha
      · rwa [inputLines_append hline, List.getElem?_cons_succ]

end Answers

section Log

theorem firstWrites_append_header (es : List RestoreEvent) (off : ℕ) (h : SnapblockFileHdr)
    (fs : List RestoreEvent) : firstWrites (es ++ .header off h :: fs) = firstWrites es := by
  induction es with
  | nil => rfl
  | cons e es ih => cases e <;> simp [firstWrites, ih]

/-- A header separates the prompts in front of it from those behind it. -/
theorem promptsIn_append_header (es : List RestoreEvent) (off : ℕ) (h : SnapblockFileHdr)
    (fs : List RestoreEvent) :
    promptsIn (es ++ .header off h :: fs) = promptsIn es ++ promptsIn fs := by
  induction es with
  | nil => rfl
  | cons e es ih => cases e <;> simp [promptsIn, firstWrites_append_header, ih]

@[simp] theorem firstWrites_writeEvents (ws : List (ℕ × Bytes)) :
    firstWrites (writeEvents ws) = ws := by
  induction ws with
  | nil => rfl
  | cons w ws ih =>
    simp only [writeEvents, List.map_cons, firstWrites] at ih ⊢
    rw [ih]

@[simp] theorem promptsIn_writeEvents (ws : List (ℕ × Bytes)) :
    promptsIn (writeEvents ws) = [] := by
  induction ws with
  | nil => rfl
  | cons w ws ih => simpa [writeEvents, promptsIn] using ih

end Log

section Iter
variable {opts : RestoreOpts} {pre post : Bytes} {r : Record} {s : RestoreState}

/-- An iteration at a record that is not selected. -/
theorem restoreIter_unselected (hsel : opts.selects r = false) (hpos : s.snapsPos = pre.length)
    (hlen : (pre ++ (r.encode ++ post)).length ≤ maxLfsFilesize) :
    restoreIter opts .allDone (pre ++ (r.encode ++ post)) s =
      ({ s with
          snapsPos := pre.length + r.encode.length
          log := s.log ++ [.header pre.length r.hdr] }, .next) := by
  have hread : IterOutcomes.allDone.headerRead.count sizeofHdr = some sizeofHdr := rfl
  have hskip : (!opts.restoreAll && opts.restoreOnlyBlknum != r.hdr.blknr) = true := by
    simpa [RestoreOpts.selects, Record.hdr] using hsel
  rw [restoreIter_record opts .allDone r hpos, if_pos hread, restoreRecord_eq, if_pos hskip,
    seekNexthdr_record r rfl hlen]
  rfl

/-- An iteration at a selected record asks once, and does what the answer says. -/
theorem restoreIter_asks (hask : opts.ask = true) (hsel : opts.selects r = true)
    (hpos : s.snapsPos = pre.length)
    (hlen : (pre ++ (r.encode ++ post)).length ≤ maxLfsFilesize)
    (hfits : r.payldType = snapblockPayloadTypeRaw → r.Fits s.dev) :
    ∃ t, restoreIter opts .allDone (pre ++ (r.encode ++ post)) s =
        (t, if isYes (fgets 10 s.stdin).1 && !opts.restoreAll then .leave else .next) ∧
      t.snapsPos = pre.length + r.encode.length ∧ t.stdin = (fgets 10 s.stdin).2 ∧
      t.log = s.log ++ .header pre.length r.hdr :: .prompt r.blknr (fgets 10 s.stdin).1 ::
        writeEvents (dueWrite .allDone (r, isYes (fgets 10 s.stdin).1)) ∧
      s.dev.SameRoom t.dev := by
  have hread : IterOutcomes.allDone.headerRead.count sizeofHdr = some sizeofHdr := rfl
  have hkeep : ¬ (!opts.restoreAll && opts.restoreOnlyBlknum != r.hdr.blknr) = true := by
    intro hskip
    simp only [RestoreOpts.selects, Bool.or_eq_true, beq_iff_eq] at hsel
    simp only [Bool.and_eq_true, Bool.not_eq_true', bne_iff_ne] at hskip
    rcases hsel with hall | hblk
    · simp [hall] at hskip
    · exact hskip.2 hblk
  let u : RestoreState :=
    { s with snapsPos := pre.length + sizeofHdr }.emit (.header pre.length r.hdr)
  let v : RestoreState :=
    { u with stdin := (fgets 10 s.stdin).2 }.emit (.prompt r.blknr (fgets 10 s.stdin).1)
  have hasked : (askUser opts r.hdr u).2 = v := by
    rw [askUser, if_pos hask]
    rfl
  have hvpos : v.snapsPos = pre.length + sizeofHdr := rfl
  have hvlog : v.log =
      s.log ++ [.header pre.length r.hdr, .prompt r.blknr (fgets 10 s.stdin).1] := by
    simp [v, u, RestoreState.emit]
  have hans : fgets 10 u.stdin = fgets 10 s.stdin := rfl
  rw [restoreIter_record opts .allDone r hpos, if_pos hread, restoreRecord_eq, if_neg hkeep, hasked,
    hans, hask, Bool.true_and]
  by_cases hyes : isYes (fgets 10 s.stdin).1 = true
  · have husual : IterOutcomes.allDone.Usual := ⟨rfl, .inl rfl, rfl⟩
    obtain ⟨t, ht, htpos, htstdin, htlog, htdev⟩ :=
      restoreByType_record (s := v) hvpos hlen husual fun hdue => hfits hdue.1
    rw [hyes, ht]
    refine ⟨t, ?_, htpos, htstdin, ?_, htdev⟩
    · cases opts.restoreAll <;> simp
    · rw [htlog, hvlog, List.append_assoc]
      rfl
  · rw [Bool.eq_false_of_not_eq_true hyes, seekNexthdr_record r hvpos hlen]
    refine ⟨_, rfl, rfl, rfl, ?_, .refl _⟩
    rw [hvlog]
    rfl

end Iter

/-- The loop over a log in ask mode prompts for the selected records, up to a yes with `-n`. -/
theorem restoreLoop_asks {opts : RestoreOpts} (hask : opts.ask = true) {rs : List Record} {n : ℕ}
    (hn : rs.length < n) (pre : Bytes) (i : ℕ) {s : RestoreState} (hpos : s.snapsPos = pre.length)
    (hlen : (pre ++ encodeLog rs).length ≤ maxLfsFilesize)
    (hfits : ∀ r ∈ rs, r.payldType = snapblockPayloadTypeRaw → r.Fits s.dev) :
    ∃ t, restoreLoop opts (fun _ => .allDone) (pre ++ encodeLog rs) n i s = (t, .leave) ∧
      promptsIn t.log = promptsIn s.log ++
        (answers opts.restoreAll (rs.filter opts.selects) s.stdin).map promptOf ∧
      s.stdin = (answers opts.restoreAll (rs.filter opts.selects) s.stdin).flatMap Prod.snd ++
        t.stdin := by
  induction rs generalizing n pre i s with
  | nil =>
    obtain ⟨n, rfl⟩ := Nat.exists_eq_succ_of_ne_zero (Nat.ne_of_gt hn)
    have hshort : (pre ++ encodeLog []).length < s.snapsPos + sizeofHdr := by
      simp [hpos, sizeofHdr]
    obtain ⟨pos, heof⟩ := restoreIter_eof opts .allDone hshort
    refine ⟨{ s with snapsPos := pos }, ?_, by simp [answers], by simp [answers]⟩
    rw [restoreLoop, heof]
  | cons r rs ih =>
    obtain ⟨n, rfl⟩ := Nat.exists_eq_succ_of_ne_zero (Nat.ne_of_gt (Nat.zero_lt_of_lt hn))
    have hassoc : pre ++ (r.encode ++ encodeLog rs) = (pre ++ r.encode) ++ encodeLog rs := by simp
    have hrest (q : Record) (hq : q ∈ rs) := hfits q (List.mem_cons_of_mem _ hq)
    rw [encodeLog_cons] at hlen ⊢
    cases hsel : opts.selects r with
    | false =>
      rw [restoreLoop, restoreIter_unselected hsel hpos hlen]
      rw [hassoc] at hlen ⊢
      obtain ⟨t, ht, hprompts, hunread⟩ := ih (by simpa using hn) (pre ++ r.encode) (i + 1)
        (s := { s with
          snapsPos := pre.length + r.encode.length
          log := s.log ++ [.header pre.length r.hdr] })
        (by rw [List.length_append]) hlen hrest
      rw [List.filter_cons_of_neg (by simp [hsel])]
      refine ⟨t, ht, ?_, hunread⟩
      rw [hprompts, promptsIn_append_header, promptsIn, List.append_nil]
    | true =>
      obtain ⟨u, hu, hupos, hustdin, hulog, hudev⟩ :=
        restoreIter_asks hask hsel hpos hlen (hfits r List.mem_cons_self)
      have hasked : promptsIn u.log = promptsIn s.log ++ [promptOf (r, (fgets 10 s.stdin).1)] := by
        rw [hulog, promptsIn_append_header, promptsIn, firstWrites_writeEvents,
          promptsIn_writeEvents]
        rfl
      rw [List.filter_cons_of_pos hsel, answers, restoreLoop, hu]
      by_cases hlast : (isYes (fgets 10 s.stdin).1 && !opts.restoreAll) = true
      · rw [if_pos hlast, if_pos hlast]
        refine ⟨u, rfl, ?_, ?_⟩
        · rw [hasked, List.map_singleton]
        · rw [hustdin, List.flatMap_singleton]
          exact (fgets_append _).symm
      · rw [if_neg hlast, if_neg hlast]
        rw [hassoc] at hlen ⊢
        obtain ⟨t, ht, hprompts, hunread⟩ := ih (by simpa using hn) (pre ++ r.encode) (i + 1)
          (by rw [hupos, List.length_append]) hlen
          fun q hq hraw => (hrest q hq hraw).of_sameRoom hudev
        rw [hustdin] at hprompts hunread
        refine ⟨t, ht, ?_, ?_⟩
        · rw [hprompts, hasked, List.map_cons, List.append_assoc, List.singleton_append]
        · rw [List.flatMap_cons, List.append_assoc, ← hunread, fgets_append]

/-- On a log of any records, each prompt is answered by one line of the input, and a block
is restored exactly if that line is `yes`, exactly if no line that a prompt comes to has
more than eight bytes. -/
theorem answeredByLines_iff {opts : RestoreOpts} (hask : opts.ask = true) {rs : List Record}
    (hlen : (encodeLog rs).length ≤ maxLfsFilesize) (kind : DeviceKind) (data stdin : Bytes)
    (hfits : ∀ r ∈ rs, r.payldType = snapblockPayloadTypeRaw → r.Fits ⟨kind, data, 0⟩) {fuel : ℕ}
    (hfuel : rs.length < fuel) :
    ∃ t, doRestore opts (fun _ => .allDone) fuel (encodeLog rs) (.start kind data stdin) =
        some (t, true) ∧
      (AnsweredByLines opts rs stdin t ↔
        LinesFit opts.restoreAll (rs.filter opts.selects) stdin) := by
  obtain ⟨t, hloop, hprompts, hunread⟩ := restoreLoop_asks hask hfuel [] 0
    (s := .start kind data stdin) rfl hlen hfits
  rw [List.nil_append] at hloop
  have hstdin : (RestoreState.start kind data stdin).stdin = stdin := rfl
  have hlog : promptsIn (RestoreState.start kind data stdin).log = [] := rfl
  rw [hlog, List.nil_append, hstdin] at hprompts
  rw [hstdin] at hunread
  have hat (k : ℕ) (p : Prompt) : (promptsIn t.log)[k]? = some p ↔
      ∃ a, (answers opts.restoreAll (rs.filter opts.selects) stdin)[k]? = some a ∧
        promptOf a = p := by
    rw [hprompts, List.getElem?_map, Option.map_eq_some_iff]
  refine ⟨t, by rw [doRestore, hloop], ?_⟩
  constructor
  · intro h
    apply linesFit_of_answers
    intro k a ha line hline
    exact h.oneLine k (promptOf a) line ((hat k _).mpr ⟨a, ha, rfl⟩) hline
  · intro h
    refine ⟨?_, ?_, ?_⟩
    · intro k p hp
      obtain ⟨a, ha, rfl⟩ := (hat k p).mp hp
      obtain ⟨-, hyes⟩ := answers_eq_lines h k a ha
      exact ⟨a.1, answers_record ha, rfl, by rw [← hyes]; rfl⟩
    · intro k p line hp hline
      obtain ⟨a, ha, rfl⟩ := (hat k p).mp hp
      exact (answers_eq_lines h k a ha).1 line hline
    · rw [hprompts, List.flatMap_map]
      exact hunread

/-- Two records of two bytes. -/
def pairRecords : List Record := [.pair 0 1 2, .pair 1 3 4]

theorem pairRecords_fit (r : Record) (hr : r ∈ pairRecords)
    (_hraw : r.payldType = snapblockPayloadTypeRaw) : r.Fits ⟨.block, [0, 0, 0, 0], 0⟩ := by
  simp only [pairRecords, List.mem_cons, List.not_mem_nil, or_false] at hr
  rcases hr with rfl | rfl
  · exact ⟨by decide, by unfold Device.HasRoom; decide⟩
  · exact ⟨by decide, by unfold Device.HasRoom; decide⟩

/-- The input `yes`, `no`. -/
theorem answeredByLines_iff_yes :
    ∃ t, doRestore ⟨true, 0, true⟩ (fun _ => .allDone) 3 (encodeLog pairRecords)
        (.start .block [0, 0, 0, 0] [121, 101, 115, 10, 110, 111, 10]) = some (t, true) ∧
      AnsweredByLines ⟨true, 0, true⟩ pairRecords [121, 101, 115, 10, 110, 111, 10] t := by
  have hask : (⟨true, 0, true⟩ : RestoreOpts).ask = true := rfl
  have hlen : (encodeLog pairRecords).length ≤ maxLfsFilesize := by decide
  have hfuel : pairRecords.length < 3 := by decide
  obtain ⟨t, ht, hiff⟩ := answeredByLines_iff hask hlen .block [0, 0, 0, 0]
    [121, 101, 115, 10, 110, 111, 10] pairRecords_fit hfuel
  refine ⟨t, ht, hiff.mpr fun k line _ hline _ => ?_⟩
  have hmem : line ∈ [[121, 101, 115], [110, 111]] := List.mem_of_getElem? hline
  simp only [List.mem_cons, List.not_mem_nil, or_false] at hmem
  rcases hmem with rfl | rfl
  · decide
  · decide

/-- The line `123456789yes`. -/
def longAnswer : Bytes := [49, 50, 51, 52, 53, 54, 55, 56, 57, 121, 101, 115, 10]

/-- One line that is not `yes` answers both prompts, the second one with yes. -/
theorem not_answeredByLines :
    inputLines longAnswer = [[49, 50, 51, 52, 53, 54, 55, 56, 57, 121, 101, 115]] ∧
    ∃ t, doRestore ⟨true, 0, true⟩ (fun _ => .allDone) 3 (encodeLog pairRecords)
        (.start .block [0, 0, 0, 0] longAnswer) = some (t, true) ∧
      t.dev.data = [0, 0, 3, 4] ∧ ¬ AnsweredByLines ⟨true, 0, true⟩ pairRecords longAnswer t := by
  have hrun : (doRestore ⟨true, 0, true⟩ (fun _ => .allDone) 3 (encodeLog pairRecords)
      (.start .block [0, 0, 0, 0] longAnswer)).map
        (fun r => (r.2, r.1.dev.data, promptsIn r.1.log)) =
      some (true, [0, 0, 3, 4], [⟨0, [49, 50, 51, 52, 53, 54, 55, 56, 57], []⟩,
        ⟨1, [121, 101, 115, 10], [(2, [3, 4])]⟩]) := by
    decide +kernel
  obtain ⟨r, hr, hval⟩ := Option.map_eq_some_iff.mp hrun
  obtain ⟨hok, hrest⟩ := Prod.mk.inj hval
  obtain ⟨hdata, hprompts⟩ := Prod.mk.inj hrest
  refine ⟨by decide, r.1, ?_, hdata, fun h => ?_⟩
  · rw [hr, ← hok]
  · have hfirst := h.oneLine 0 ⟨0, [49, 50, 51, 52, 53, 54, 55, 56, 57], []⟩
      [49, 50, 51, 52, 53, 54, 55, 56, 57, 121, 101, 115] (by rw [hprompts]; rfl) (by decide)
    exact absurd hfirst (by decide)

end BlkdevSnapshot

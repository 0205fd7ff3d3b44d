import Mathlib.Data.List.Basic
import Mathlib.Tactic

/-!
# Short options on a command line

`getopt` on the words behind the name of a program. Options may share a word; the argument
of one is the rest of its word, or the next word. A word `--` ends the options, and a word
that is none is passed over or ends them, too. Every way to write a list of options is
scanned as that list.
-/
namespace BlkdevSnapshot.Getopt

/-- A result of `getopt`: an option with the argument that it takes, or `?` for a character
that is no option or an option without its argument. -/
inductive Item (α : Type*) where
  | opt (c : α) (optarg : Option (List α))
  | unknown (c : α)
  | missing (c : α)
  deriving DecidableEq, Repr

variable {α : Type*} (dash : α) (takesArg : α → Option Bool)

/-- Whether an option takes an argument, by the colon behind it in the option string. -/
def optstring [DecidableEq α] (colon : α) : List α → α → Option Bool
  | [], _ => none
  | o :: os, c => if o = c ∧ c ≠ colon then some (os.head? = some colon) else optstring colon os c

/-- The characters of an option word: their results, and the option at the end that takes
its argument from the next word. -/
def cluster : List α → List (Item α) × Option α
  | [] => ([], none)
  | c :: cs =>
    match takesArg c with
    | none => (.unknown c :: (cluster cs).1, (cluster cs).2)
    | some false => (.opt c none :: (cluster cs).1, (cluster cs).2)
    | some true => if cs.isEmpty then ([], some c) else ([.opt c (some cs)], none)

/-- The results of `getopt` up to -1. With `permute` words that are no options are passed
over. -/
def getopt [DecidableEq α] (permute : Bool) : List (List α) → List (Item α)
  | [] => []
  | word :: words =>
    if word.head? = some dash ∧ word ≠ [dash] then
      if word = [dash, dash] then []
      else
        match (cluster takesArg word.tail).2 with
        | none => (cluster takesArg word.tail).1 ++ getopt permute words
        | some c =>
          match words with
          | [] => (cluster takesArg word.tail).1 ++ [.missing c]
          | optarg :: rest =>
            (cluster takesArg word.tail).1 ++ .opt c (some optarg) :: getopt permute rest
    else if permute then getopt permute words
    else []

/-- The case of a `switch` over the letters of options that a result takes, with `optarg`. -/
def Item.chosen [DecidableEq α] {κ : Type*} (letter : κ → α) (cases : List κ) :
    Item α → Option (κ × List α)
  | opt c optarg => (cases.find? fun o => letter o = c).map (·, optarg.getD [])
  | unknown _ => none
  | missing _ => none

/-- A part of a command line: options without arguments in one word, with an option behind
them that has its argument in this word or in the next one, or a word that is no option. -/
inductive ArgvPart (α : Type*) where
  | flags (cs : List α)
  | attached (cs : List α) (c : α) (optarg : List α)
  | separate (cs : List α) (c : α) (optarg : List α)
  | operand (word : List α)
  deriving DecidableEq, Repr

namespace ArgvPart

/-- The words that a part is written as. -/
def words : ArgvPart α → List (List α)
  | flags cs => [dash :: cs]
  | attached cs c optarg => [dash :: (cs ++ c :: optarg)]
  | separate cs c optarg => [dash :: (cs ++ [c]), optarg]
  | operand word => [word]

/-- The options of a part. -/
def items : ArgvPart α → List (Item α)
  | flags cs => cs.map (.opt · none)
  | attached cs c optarg => cs.map (.opt · none) ++ [.opt c (some optarg)]
  | separate cs c optarg => cs.map (.opt · none) ++ [.opt c (some optarg)]
  | operand _ => []

/-- A part that can be written: its options are known, and its words are not taken for
something else. -/
def Ok : ArgvPart α → Prop
  | flags cs => cs ≠ [] ∧ ∀ c ∈ cs, takesArg c = some false
  | attached cs c optarg => (∀ c ∈ cs, takesArg c = some false) ∧ takesArg c = some true ∧
      optarg ≠ []
  | separate cs c _ => (∀ c ∈ cs, takesArg c = some false) ∧ takesArg c = some true
  | operand word => word.head? ≠ some dash ∨ word = [dash]

end ArgvPart

section Scan
variable {takesArg} {cs : List α}

theorem cluster_append (hcs : ∀ c ∈ cs, takesArg c = some false) (rest : List α) :
    cluster takesArg (cs ++ rest) =
      (cs.map (Item.opt · none) ++ (cluster takesArg rest).1, (cluster takesArg rest).2) := by
  induction cs with
  | nil => rfl
  | cons c cs ih =>
    obtain ⟨hc, hrest⟩ := List.forall_mem_cons.mp hcs
    simp only [List.cons_append, cluster, hc, ih hrest, List.map_cons]

theorem cluster_attached {c : α} {optarg : List α} (hc : takesArg c = some true)
    (hne : optarg ≠ []) : cluster takesArg (c :: optarg) = ([.opt c (some optarg)], none) := by
  simp [cluster, hc, hne]

theorem cluster_separate {c : α} (hc : takesArg c = some true) :
    cluster takesArg [c] = ([], some c) := by
  simp [cluster, hc]

variable {dash}

/-- The dash itself is no option, so no option word is taken for `--`. -/
theorem ne_dash_of_known (hunknown : takesArg dash = none) {c : α} (hmem : c ∈ cs)
    (hc : takesArg c ≠ none) : cs ≠ [dash] := by
  rintro rfl
  rw [List.mem_singleton.mp hmem] at hc
  exact hc hunknown

variable [DecidableEq α]

/-- An option word whose last option has what it takes. -/
theorem getopt_word (hword : cs ≠ []) (hdash : cs ≠ [dash])
    (hend : (cluster takesArg cs).2 = none) (permute : Bool) (words : List (List α)) :
    getopt dash takesArg permute ((dash :: cs) :: words) =
      (cluster takesArg cs).1 ++ getopt dash takesArg permute words := by
  rw [getopt, if_pos ⟨rfl, by simpa using hword⟩, if_neg (by simpa using hdash)]
  simp only [List.tail_cons, hend]

/-- An option word whose last option takes its argument from the next word. -/
theorem getopt_word_optarg {c : α} (hword : cs ≠ []) (hdash : cs ≠ [dash])
    (hend : (cluster takesArg cs).2 = some c) (permute : Bool) (optarg : List α)
    (words : List (List α)) :
    getopt dash takesArg permute ((dash :: cs) :: optarg :: words) =
      (cluster takesArg cs).1 ++ .opt c (some optarg) ::
        getopt dash takesArg permute words := by
  rw [getopt, if_pos ⟨rfl, by simpa using hword⟩, if_neg (by simpa using hdash)]
  simp only [List.tail_cons, hend]

/-- A part of a command line is scanned as its options. -/
theorem getopt_part (hunknown : takesArg dash = none) {part : ArgvPart α}
    (hok : part.Ok dash takesArg) (words : List (List α)) :
    getopt dash takesArg true (part.words dash ++ words) =
      part.items ++ getopt dash takesArg true words := by
  cases part with
  | flags cs =>
    obtain ⟨hne, hcs⟩ := hok
    obtain ⟨c, hc⟩ := List.exists_mem_of_ne_nil cs hne
    have hdash : cs ≠ [dash] := ne_dash_of_known hunknown hc (by simp [hcs c hc])
    have hcluster := cluster_append hcs []
    rw [List.append_nil] at hcluster
    have hword := getopt_word hne hdash (by rw [hcluster]; rfl) true words
    rw [hcluster] at hword
    simpa [ArgvPart.words, ArgvPart.items, cluster] using hword
  | attached cs c optarg =>
    obtain ⟨hcs, hc, hne⟩ := hok
    have hdash : cs ++ c :: optarg ≠ [dash] :=
      ne_dash_of_known hunknown (List.mem_append_right _ List.mem_cons_self) (by simp [hc])
    have hcluster := cluster_append hcs (c :: optarg)
    rw [cluster_attached hc hne] at hcluster
    have hword := getopt_word (by simp) hdash (by rw [hcluster]) true words
    rw [hcluster] at hword
    exact hword
  | separate cs c optarg =>
    obtain ⟨hcs, hc⟩ := hok
    have hdash : cs ++ [c] ≠ [dash] :=
      ne_dash_of_known hunknown (List.mem_append_right _ List.mem_cons_self) (by simp [hc])
    have hcluster := cluster_append hcs [c]
    rw [cluster_separate hc, List.append_nil] at hcluster
    have hword := getopt_word_optarg (by simp) hdash (by rw [hcluster]) true optarg words
    rw [hcluster] at hword
    simpa [ArgvPart.words, ArgvPart.items] using hword
  | operand word =>
    have hnone : ¬ (word.head? = some dash ∧ word ≠ [dash]) := by
      rintro ⟨hhead, hne⟩
      exact hok.elim (fun h => h hhead) hne
    show getopt dash takesArg true (word :: words) = _
    rw [getopt, if_neg hnone, if_pos rfl]
    rfl

/-- However the options of a command line are written, they are scanned as these options. -/
theorem getopt_parts (hunknown : takesArg dash = none) {parts : List (ArgvPart α)}
    (hok : ∀ part ∈ parts, part.Ok dash takesArg) :
    getopt dash takesArg true (parts.flatMap (ArgvPart.words dash)) =
      parts.flatMap ArgvPart.items := by
  induction parts with
  | nil => rfl
  | cons part parts ih =>
    obtain ⟨hpart, hrest⟩ := List.forall_mem_cons.mp hok
    rw [List.flatMap_cons, getopt_part hunknown hpart, ih hrest, List.flatMap_cons]

end Scan

section Optarg
variable {dash takesArg} {c : α} {optarg : List α}

theorem optarg_of_cluster {cs : List α}
    (h : .opt c (some optarg) ∈ (cluster takesArg cs).1) : optarg <:+ cs := by
  induction cs with
  | nil => simp [cluster] at h
  | cons a cs ih =>
    rw [cluster] at h
    split at h
    · exact (ih (by simpa using h)).trans (List.suffix_cons a cs)
    · exact (ih (by simpa using h)).trans (List.suffix_cons a cs)
    · split at h
      · simp at h
      · simp only [List.mem_singleton, Item.opt.injEq, Option.some.injEq] at h
        rw [h.2]
        exact List.suffix_cons a cs

/-- The argument of an option is the end of a word. -/
theorem optarg_of_getopt [DecidableEq α] {permute : Bool} {words : List (List α)}
    (h : .opt c (some optarg) ∈ getopt dash takesArg permute words) :
    ∃ word ∈ words, optarg <:+ word := by
  fun_induction getopt dash takesArg permute words with
  | case1 => simp at h
  | case2 => simp at h
  | case3 word words hword hdash hend ih =>
    rcases List.mem_append.mp h with h | h
    · exact ⟨word, List.mem_cons_self, (optarg_of_cluster h).trans (List.tail_suffix word)⟩
    · obtain ⟨w, hw, hsuffix⟩ := ih h
      exact ⟨w, List.mem_cons_of_mem _ hw, hsuffix⟩
  | case4 word hword hdash c' hend =>
    rcases List.mem_append.mp h with h | h
    · exact ⟨word, List.mem_cons_self, (optarg_of_cluster h).trans (List.tail_suffix word)⟩
    · simp at h
  | case5 word hword hdash c' hend next rest ih =>
    rcases List.mem_append.mp h with h | h
    · exact ⟨word, List.mem_cons_self, (optarg_of_cluster h).trans (List.tail_suffix word)⟩
    · rcases List.mem_cons.mp h with h | h
      · simp only [Item.opt.injEq, Option.some.injEq] at h
        rw [h.2]
        exact ⟨next, by simp, List.suffix_rfl⟩
      · obtain ⟨w, hw, hsuffix⟩ := ih h
        exact ⟨w, by simp [hw], hsuffix⟩
  | case6 word words hword hpermute ih =>
    obtain ⟨w, hw, hsuffix⟩ := ih h
    exact ⟨w, List.mem_cons_of_mem _ hw, hsuffix⟩
  | case7 => simp at h

/-- What a `switch` sees of an argument is the end of a word, too. -/
theorem optarg_of_chosen [DecidableEq α] {κ : Type*} {letter : κ → α} {cases : List κ} {o : κ}
    {permute : Bool} {words : List (List α)}
    (h : (o, optarg) ∈ (getopt dash takesArg permute words).filterMap (Item.chosen letter cases))
    (hne : optarg ≠ []) : ∃ word ∈ words, optarg <:+ word := by
  obtain ⟨item, hitem, hchosen⟩ := List.mem_filterMap.mp h
  cases item with
  | opt c arg =>
    obtain ⟨o', -, ho⟩ := Option.map_eq_some_iff.mp hchosen
    obtain ⟨-, harg⟩ := Prod.mk.inj ho
    cases arg with
    | none => exact absurd harg.symm hne
    | some arg =>
      obtain rfl : arg = optarg := harg
      exact optarg_of_getopt hitem
  | unknown c => cases hchosen
  | missing c => cases hchosen

end Optarg

/-! ## The last of some options -/

section Last
variable {β γ : Type*} (f : β → Option γ)

/-- What the last of the items that `f` looks for says. -/
def lastSome (items : List β) : Option γ := (items.filterMap f).getLast?

@[simp] theorem lastSome_nil : lastSome f [] = none := rfl

/-- A later item takes the place of an earlier one. -/
theorem lastSome_concat (items : List β) (item : β) :
    lastSome f (items ++ [item]) = (f item).or (lastSome f items) := by
  unfold lastSome
  rw [List.filterMap_append, List.getLast?_append]
  cases h : f item with
  | none => simp [h]
  | some found => simp [h]

theorem mem_of_lastSome {f : β → Option γ} {items : List β} {found : γ}
    (h : lastSome f items = some found) : ∃ item ∈ items, f item = some found :=
  List.mem_filterMap.mp (List.mem_of_getLast? h)

variable {ε σ : Type*} {set : σ → β → Except ε σ} {exits : β → Option ε} {last : List β → σ}

/-- A loop whose variables depend on the last options only ends at the first item that exits,
or with what the last options say. -/
theorem foldlM_last
    (hset : ∀ items item, set (last items) item =
      (exits item).elim (.ok (last (items ++ [item]))) .error)
    (items : List β) :
    items.foldlM set (last []) = (items.findSome? exits).elim (.ok (last items)) .error := by
  induction items using List.reverseRecOn with
  | nil => rfl
  | append_singleton items item ih =>
    rw [List.foldlM_append, ih, List.findSome?_append]
    cases hitems : items.findSome? exits with
    | some e => rfl
    | none =>
      show [item].foldlM set (last items) = _
      rw [List.foldlM_cons, hset]
      cases hitem : exits item with
      | some e => simp [hitem, bind, Except.bind]
      | none => simp [hitem, bind, Except.bind, pure, Except.pure]

end Last

end BlkdevSnapshot.Getopt

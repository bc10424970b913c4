-- The grammar of directives. Reading goes through a line from left to right,
-- tries the longer verb before the shorter one and then gathers names one
-- character at a time; what it finds is said here without a reader, as the
-- ways in which a line can be split.
import ComponentLint.Proofs.Directives
import Mathlib.Data.List.Sort
import Mathlib.Data.List.TakeWhile

namespace ComponentLint

open ComponentLint.Text

namespace Directive

/-! ## Where a directive starts -/

/-- How the verb is spelled that silences the next line, and the one that silences its own. -/
def verb (forNext : Bool) : String := if forNext then "ignore-next-line" else "ignore"

/-- A text starts with a directive: two slashes, any number of blanks, the mark of directives and a
verb that no word goes on after. -/
def Opens (cs : List Char) (forNext : Bool) (rest : List Char) : Prop :=
  ∃ blanks, (∀ c ∈ blanks, isBlank c) ∧
    cs = "//".toList ++ blanks ++ "viewlint:".toList ++ (verb forNext).toList ++ rest ∧
    ∀ c ∈ rest.head?, isWord c = false

/-- A line has a directive behind the given text. -/
def Splits (line before : List Char) (forNext : Bool) (rest : List Char) : Prop :=
  ∃ cs, line = before ++ cs ∧ Opens cs forNext rest

/-- The directive of a line that counts: nothing stands before it that could be left out, and its
verb is the longer one where both fit. -/
structure Chosen (line before : List Char) (forNext : Bool) (rest : List Char) : Prop where
  splits : Splits line before forNext rest
  first : ∀ before' forNext' rest', Splits line before' forNext' rest' →
    before.length ≤ before'.length
  longer : ∀ rest', Splits line before true rest' → forNext = true

/-- What follows the mark of directives, in a text that starts with two slashes and the mark. -/
def afterMark? (cs : List Char) : Option (List Char) :=
  ("//".toList.isPrefixOf? cs).bind fun body =>
    "viewlint:".toList.isPrefixOf? (body.dropWhile isBlank)

theorem afterMark?_eq_some_iff {cs text : List Char} :
    afterMark? cs = some text ↔ ∃ blanks, (∀ c ∈ blanks, isBlank c) ∧
      cs = "//".toList ++ blanks ++ "viewlint:".toList ++ text := by
  simp only [afterMark?, Option.bind_eq_some_iff, isPrefixOf?_eq_some_iff]
  constructor
  · rintro ⟨body, rfl, hbody⟩
    refine ⟨body.takeWhile isBlank, fun c hc => List.mem_takeWhile_imp hc, ?_⟩
    rw [List.append_assoc, List.append_assoc, ← hbody, List.takeWhile_append_dropWhile]
  · rintro ⟨blanks, hblanks, rfl⟩
    refine ⟨blanks ++ ("viewlint:".toList ++ text), by simp only [List.append_assoc], ?_⟩
    rw [List.dropWhile_append_of_pos hblanks]
    rfl

theorem atBoundary_iff {rest : List Char} :
    atBoundary rest = true ↔ ∀ c ∈ rest.head?, isWord c = false := by
  cases rest with
  | nil => simp [atBoundary]
  | cons c rest => simp [atBoundary]

theorem afterVerb?_eq_some_iff {text rest : List Char} {spelled : String} :
    afterVerb? spelled text = some rest ↔
      text = spelled.toList ++ rest ∧ ∀ c ∈ rest.head?, isWord c = false := by
  rw [afterVerb?, Option.filter_eq_some_iff, isPrefixOf?_eq_some_iff, atBoundary_iff]

theorem opens_iff {cs rest : List Char} {forNext : Bool} :
    Opens cs forNext rest ↔
      ∃ text, afterMark? cs = some text ∧ afterVerb? (verb forNext) text = some rest := by
  simp only [afterMark?_eq_some_iff, afterVerb?_eq_some_iff]
  constructor
  · rintro ⟨blanks, hblanks, rfl, hend⟩
    exact ⟨_, ⟨blanks, hblanks, by simp only [List.append_assoc]⟩, rfl, hend⟩
  · rintro ⟨text, ⟨blanks, hblanks, rfl⟩, rfl, hend⟩
    exact ⟨blanks, hblanks, by simp only [List.append_assoc], hend⟩

/-- What follows a verb is settled by where the directive starts. -/
theorem Opens.unique {cs rest rest' : List Char} {forNext : Bool} (h : Opens cs forNext rest)
    (h' : Opens cs forNext rest') : rest = rest' := by
  obtain ⟨text, htext, hrest⟩ := opens_iff.mp h
  obtain ⟨text', htext', hrest'⟩ := opens_iff.mp h'
  rw [htext, Option.some.injEq] at htext'
  rw [htext', hrest', Option.some.injEq] at hrest
  exact hrest.symm

theorem here?_eq (before cs : List Char) :
    here? before cs = (afterMark? cs).bind fun text =>
      match afterVerb? "ignore-next-line" text with
      | some rest => some ⟨before, true, rest.takeWhile (· ≠ '\n')⟩
      | none =>
        (afterVerb? "ignore" text).map fun rest => ⟨before, false, rest.takeWhile (· ≠ '\n')⟩ := by
  rw [afterMark?, Option.bind_assoc]
  rfl

theorem here?_eq_none_iff {before cs : List Char} :
    here? before cs = none ↔ ∀ forNext rest, ¬ Opens cs forNext rest := by
  simp only [here?_eq, opens_iff]
  cases hmark : afterMark? cs with
  | none => simp
  | some text =>
    cases hnext : afterVerb? "ignore-next-line" text with
    | some rest =>
      simp only [Option.bind_some, hnext, reduceCtorEq, false_iff]
      intro h
      exact h true rest ⟨text, rfl, hnext⟩
    | none =>
      cases hown : afterVerb? "ignore" text with
      | some rest =>
        simp only [Option.bind_some, hnext, hown, Option.map_some, reduceCtorEq, false_iff]
        intro h
        exact h false rest ⟨text, rfl, hown⟩
      | none =>
        simp only [Option.bind_some, hnext, hown, Option.map_none, true_iff]
        rintro forNext rest ⟨text', htext, hrest⟩
        cases htext
        cases forNext with
        | false => simp [verb, hown] at hrest
        | true => simp [verb, hnext] at hrest

theorem opens_of_here? {before cs : List Char} {d : Directive} (h : here? before cs = some d) :
    d.before = before ∧ ∃ rest, Opens cs d.forNext rest ∧ d.rest = rest.takeWhile (· ≠ '\n') ∧
      ∀ rest', Opens cs true rest' → d.forNext = true := by
  rw [here?_eq, Option.bind_eq_some_iff] at h
  obtain ⟨text, hmark, h⟩ := h
  cases hnext : afterVerb? "ignore-next-line" text with
  | some rest =>
    simp only [hnext, Option.some.injEq] at h
    subst h
    exact ⟨rfl, rest, opens_iff.mpr ⟨text, hmark, hnext⟩, rfl, fun _ _ => rfl⟩
  | none =>
    simp only [hnext, Option.map_eq_some_iff] at h
    obtain ⟨rest, hown, rfl⟩ := h
    refine ⟨rfl, rest, opens_iff.mpr ⟨text, hmark, hown⟩, rfl, ?_⟩
    intro rest' hopens
    obtain ⟨text', htext, hrest⟩ := opens_iff.mp hopens
    rw [hmark, Option.some.injEq] at htext
    rw [← htext] at hrest
    exact absurd (hnext.symm.trans hrest) (by simp)

/-! ## The directive of a line -/

/-- A later split of a line is one of what follows its first character. -/
theorem splits_cons_iff {c : Char} {cs before rest : List Char} {forNext : Bool} :
    Splits (c :: cs) before forNext rest ↔
      before = [] ∧ Opens (c :: cs) forNext rest ∨
        ∃ before', before = c :: before' ∧ Splits cs before' forNext rest := by
  constructor
  · rintro ⟨tail, hline, hopens⟩
    cases before with
    | nil =>
      rw [List.nil_append] at hline
      rw [hline]
      exact Or.inl ⟨rfl, hopens⟩
    | cons d before =>
      rw [List.cons_append, List.cons.injEq] at hline
      exact Or.inr ⟨before, by rw [hline.1], tail, hline.2, hopens⟩
  · rintro (⟨rfl, hopens⟩ | ⟨before', rfl, tail, rfl, hopens⟩)
    · exact ⟨c :: cs, rfl, hopens⟩
    · exact ⟨tail, rfl, hopens⟩

theorem not_splits_nil {before rest : List Char} {forNext : Bool} :
    ¬ Splits [] before forNext rest := by
  rintro ⟨cs, hline, blanks, -, rfl, -⟩
  simp at hline

theorem not_splits_of_findFrom {seen cs : List Char} (h : findFrom seen cs = none) :
    ∀ before forNext rest, ¬ Splits cs before forNext rest := by
  induction cs generalizing seen with
  | nil => exact fun _ _ _ => not_splits_nil
  | cons c cs ih =>
    rw [findFrom, Option.or_eq_none_iff] at h
    intro before forNext rest hsplits
    rcases splits_cons_iff.mp hsplits with ⟨-, hopens⟩ | ⟨before', -, hlater⟩
    · exact here?_eq_none_iff.mp h.1 forNext rest hopens
    · exact ih h.2 before' forNext rest hlater

theorem chosen_of_findFrom {seen cs : List Char} {d : Directive} (h : findFrom seen cs = some d) :
    ∃ before rest, d.before = seen.reverse ++ before ∧ Chosen cs before d.forNext rest ∧
      d.rest = rest.takeWhile (· ≠ '\n') := by
  -- The induction is on what is still to be read: a directive here comes before all others, and
  -- without one here the first of the rest is the first of all.
  induction cs generalizing seen with
  | nil => cases h
  | cons c cs ih =>
    rw [findFrom] at h
    cases hhere : here? seen.reverse (c :: cs) with
    | some d' =>
      rw [hhere, Option.some_or, Option.some.injEq] at h
      subst h
      obtain ⟨hbefore, rest, hopens, hrest, hlonger⟩ := opens_of_here? hhere
      refine ⟨[], rest, by rw [hbefore, List.append_nil], ⟨?_, by simp, ?_⟩, hrest⟩
      · exact ⟨c :: cs, rfl, hopens⟩
      · rintro rest' ⟨tail, hline, hopens'⟩
        rw [List.nil_append] at hline
        exact hlonger rest' (hline ▸ hopens')
    | none =>
      rw [hhere, Option.none_or] at h
      obtain ⟨before, rest, hbefore, hchosen, hrest⟩ := ih h
      have hlater : ∀ {before' forNext' rest'}, Splits (c :: cs) before' forNext' rest' →
          ∃ tail, before' = c :: tail ∧ Splits cs tail forNext' rest' := by
        intro before' forNext' rest' hsplits
        rcases splits_cons_iff.mp hsplits with ⟨-, hopens⟩ | hlater
        · exact absurd hopens (here?_eq_none_iff.mp hhere _ _)
        · exact hlater
      refine ⟨c :: before, rest, by simp [hbefore], ⟨?_, ?_, ?_⟩, hrest⟩
      · exact splits_cons_iff.mpr (Or.inr ⟨before, rfl, hchosen.splits⟩)
      · intro before' forNext' rest' hsplits
        obtain ⟨tail, rfl, hsplits'⟩ := hlater hsplits
        exact Nat.succ_le_succ (hchosen.first _ _ _ hsplits')
      · intro rest' hsplits
        obtain ⟨tail, htail, hsplits'⟩ := hlater hsplits
        cases htail
        exact hchosen.longer rest' hsplits'

theorem Chosen.unique {line before before' rest rest' : List Char} {forNext forNext' : Bool}
    (h : Chosen line before forNext rest) (h' : Chosen line before' forNext' rest') :
    before = before' ∧ forNext = forNext' ∧ rest = rest' := by
  obtain ⟨tail, hline, hopens⟩ := h.splits
  obtain ⟨tail', hline', hopens'⟩ := h'.splits
  have hlength := Nat.le_antisymm (h.first _ _ _ h'.splits) (h'.first _ _ _ h.splits)
  obtain ⟨rfl, rfl⟩ := List.append_inj (hline.symm.trans hline') hlength
  have hverb : forNext = forNext' := by
    cases forNext with
    | true => exact (h'.longer rest h.splits).symm
    | false =>
      cases forNext' with
      | true => exact h.longer rest' h'.splits
      | false => rfl
  subst hverb
  exact ⟨rfl, rfl, hopens.unique hopens'⟩

/-- The directive that is found on a line is the one that counts. -/
theorem chosen_of_find? {line : String} {d : Directive} (h : find? line = some d) :
    ∃ rest, Chosen line.toList d.before d.forNext rest ∧ d.rest = rest.takeWhile (· ≠ '\n') := by
  obtain ⟨before, rest, hbefore, hchosen, hrest⟩ := chosen_of_findFrom h
  rw [List.reverse_nil, List.nil_append] at hbefore
  exact ⟨rest, hbefore ▸ hchosen, hrest⟩

/-! ## Names -/

/-- The names in a text, from left to right: a name starts at the first letter outside of names, and
ends where its characters end. -/
inductive Names : List Char → List String → Prop
  | nil : Names [] []
  | skip {c : Char} {rest : List Char} {names : List String} (plain : startsName c = false)
      (onward : Names rest names) : Names (c :: rest) names
  | name {c : Char} {more rest : List Char} {names : List String} (starts : startsName c = true)
      (goes : ∀ d ∈ more, inName d = true) (ends : ∀ d ∈ rest.head?, inName d = false)
      (onward : Names rest names) :
      Names (c :: more ++ rest) (String.ofList (c :: more) :: names)

theorem scanNames_of_names {cs : List Char} {names : List String} (h : Names cs names) :
    scanNames none cs = names := by
  induction h with
  | nil => rfl
  | skip plain _ ih => simp [scanNames, plain, ih]
  | @name c more rest names starts goes ends _ ih =>
    rw [List.cons_append, scanNames, if_pos starts, scanNames_name goes]
    cases rest with
    | nil =>
      simp only [scanNames] at ih ⊢
      simp [← ih]
    | cons d rest =>
      have hend : inName d = false := ends d rfl
      -- A character that cannot go on with a name cannot start one either.
      have hstart : startsName d = false := by
        simp only [inName, Char.isAlphanum, Bool.or_eq_false_iff] at hend
        exact hend.1.1.1
      simp only [scanNames, hstart, Bool.false_eq_true, if_false] at ih
      simp [scanNames, hend, ih]

theorem exists_names (cs : List Char) : ∃ names, Names cs names := by
  induction hn : cs.length using Nat.strongRecOn generalizing cs with
  | _ n ih =>
    cases cs with
    | nil => exact ⟨[], .nil⟩
    | cons c rest =>
      rw [List.length_cons] at hn
      cases hstart : startsName c with
      | false =>
        obtain ⟨names, hnames⟩ := ih rest.length (by omega) rest rfl
        exact ⟨names, .skip hstart hnames⟩
      | true =>
        have hlength : (rest.dropWhile inName).length ≤ rest.length :=
          (List.dropWhile_suffix inName).length_le
        obtain ⟨names, hnames⟩ := ih (rest.dropWhile inName).length (by omega) _ rfl
        have hends : ∀ d ∈ (rest.dropWhile inName).head?, inName d = false := by
          intro d hd
          have := List.head?_dropWhile_not inName rest
          rw [Option.mem_def.mp hd] at this
          simpa using this
        have hgoes : ∀ d ∈ rest.takeWhile inName, inName d = true :=
          fun d hd => List.mem_takeWhile_imp hd
        have hname := Names.name hstart hgoes hends hnames
        rw [List.cons_append, List.takeWhile_append_dropWhile] at hname
        exact ⟨_, hname⟩

theorem names_iff {cs : List Char} {names : List String} :
    Names cs names ↔ scanNames none cs = names := by
  constructor
  · exact scanNames_of_names
  · rintro rfl
    obtain ⟨names, hnames⟩ := exists_names cs
    rwa [scanNames_of_names hnames]

/-! ## First occurrences -/

/-- The same names without repeats, in the order in which they first occur. -/
structure FirstOccurrences (names firsts : List String) : Prop where
  same : ∀ id, id ∈ firsts ↔ id ∈ names
  in_order : firsts.Pairwise fun a b => names.idxOf a < names.idxOf b

theorem FirstOccurrences.step {names firsts : List String} (h : FirstOccurrences names firsts)
    (name : String) :
    FirstOccurrences (names ++ [name])
      (if firsts.contains name then firsts else firsts ++ [name]) := by
  have hkept : firsts.Pairwise fun a b =>
      (names ++ [name]).idxOf a < (names ++ [name]).idxOf b := by
    refine h.in_order.imp_of_mem ?_
    intro a b ha hb hab
    rwa [List.idxOf_append_of_mem ((h.same a).mp ha), List.idxOf_append_of_mem ((h.same b).mp hb)]
  by_cases hmem : name ∈ firsts
  · have hold := (h.same name).mp hmem
    rw [if_pos (by simpa using hmem)]
    refine ⟨?_, hkept⟩
    intro id
    rw [h.same, List.mem_append, List.mem_singleton]
    constructor
    · exact Or.inl
    · rintro (hid | rfl)
      · exact hid
      · exact hold
  · have hnew : name ∉ names := fun hold => hmem ((h.same name).mpr hold)
    rw [if_neg (by simpa using hmem)]
    refine ⟨by simp [h.same], ?_⟩
    rw [List.pairwise_append]
    refine ⟨hkept, List.pairwise_singleton _ _, ?_⟩
    intro a ha b hb
    rw [List.mem_singleton.mp hb, List.idxOf_append_of_mem ((h.same a).mp ha),
      List.idxOf_append_of_notMem hnew]
    have := List.idxOf_lt_length_of_mem ((h.same a).mp ha)
    omega

theorem firstOccurrences_foldl {names firsts : List String} (h : FirstOccurrences names firsts)
    (more : List String) :
    FirstOccurrences (names ++ more)
      (more.foldl (fun seen name => if seen.contains name then seen else seen ++ [name])
        firsts) := by
  induction more generalizing names firsts with
  | nil => simpa using h
  | cons name more ih =>
    rw [List.append_cons, List.foldl_cons]
    exact ih (h.step name)

theorem firstOccurrences_distinct (names : List String) :
    FirstOccurrences names (distinct names) := by
  have hnil : FirstOccurrences [] [] := ⟨fun _ => Iff.rfl, .nil⟩
  exact firstOccurrences_foldl hnil names

theorem FirstOccurrences.unique {names firsts firsts' : List String}
    (h : FirstOccurrences names firsts) (h' : FirstOccurrences names firsts') :
    firsts = firsts' := by
  have hnodup : ∀ {l : List String},
      (l.Pairwise fun a b => names.idxOf a < names.idxOf b) → l.Nodup := by
    intro l hl
    refine hl.imp ?_
    rintro a b hab rfl
    exact absurd hab (Nat.lt_irrefl _)
  have hperm : firsts.Perm firsts' := by
    rw [List.perm_ext_iff_of_nodup (hnodup h.in_order) (hnodup h'.in_order)]
    intro id
    rw [h.same, h'.same]
  refine hperm.eq_of_pairwise ?_ h.in_order h'.in_order
  intro a b _ _ hab hba
  omega

end Directive

/-! ## What a line stands for -/

namespace Suppression

open Directive

/-- The suppressions that a line stands for on its own, when it has a given number. -/
def onLine (file : String) (n : Nat) (line : String) : List Suppression := ofLinesFrom file n [line]

/-- What a line with a given number stands for, said by the splits of the line. -/
inductive Written (file : String) (n : Nat) (line : List Char) : List Suppression → Prop
  /-- A line that cannot be split stands for nothing. -/
  | nothing (plain : ∀ before forNext rest, ¬ Splits line before forNext rest) :
      Written file n line []
  /-- A directive silences the names that follow it on its line, up to a reason, or everything when
  there are none. -/
  | directive {before rest inLine text : List Char} {forNext : Bool} {names ids : List String}
      (chosen : Chosen line before forNext rest) (to_line_end : Leading "\n".toList rest inLine)
      (to_reason : Leading " -- ".toList inLine text) (named : Names text names)
      (firsts : FirstOccurrences names ids) :
      Written file n line <| (if ids.isEmpty then ["all"] else ids).map fun id =>
        ⟨file, id, .int (if forNext || before.all isBlank then n + 1 else n), .int n,
          .int (before.length + 1)⟩

theorem Written.unique {file : String} {n : Nat} {line : List Char}
    {entries entries' : List Suppression} (h : Written file n line entries)
    (h' : Written file n line entries') : entries = entries' := by
  cases h with
  | nothing plain =>
    cases h' with
    | nothing _ => rfl
    | directive chosen' => exact absurd chosen'.splits (plain _ _ _)
  | directive chosen hline hreason hnamed hfirsts =>
    cases h' with
    | nothing plain' => exact absurd chosen.splits (plain' _ _ _)
    | directive chosen' hline' hreason' hnamed' hfirsts' =>
      obtain ⟨rfl, rfl, rfl⟩ := chosen.unique chosen'
      obtain rfl := hline.unique hline'
      obtain rfl := hreason.unique hreason'
      obtain rfl := (names_iff.mp hnamed).symm.trans (names_iff.mp hnamed')
      obtain rfl := hfirsts.unique hfirsts'
      rfl

theorem onLine_eq (file : String) (n : Nat) (line : String) :
    onLine file n line = ((find? line).map (Directive.suppressions file n)).getD [] := by
  simp [onLine, ofLinesFrom]

theorem written_suppressions {file : String} {n : Nat} {line : String} {d : Directive}
    (h : find? line = some d) : Written file n line.toList (d.suppressions file n) := by
  obtain ⟨rest, hchosen, hrest⟩ := chosen_of_find? h
  have hline : Leading "\n".toList rest d.rest := by
    rw [hrest, takeWhile_ne_eq_beforeFirst]
    exact leading_beforeFirst _ rest (by decide)
  have hreason := leading_beforeFirst " -- ".toList d.rest (by decide)
  have hnamed := names_iff.mpr (rfl : scanNames none (beforeFirst " -- ".toList d.rest) = _)
  have hwritten : Written file n line.toList _ :=
    .directive hchosen hline hreason hnamed (firstOccurrences_distinct _)
  have hids : d.ruleIds =
      if (distinct (scanNames none (beforeFirst " -- ".toList d.rest))).isEmpty then ["all"]
      else distinct (scanNames none (beforeFirst " -- ".toList d.rest)) := by
    unfold ruleIds
    cases distinct (scanNames none (beforeFirst " -- ".toList d.rest)) with
    | nil => rfl
    | cons id ids => rfl
  rw [← hids] at hwritten
  exact hwritten

theorem written_onLine (file : String) (n : Nat) (line : String) :
    Written file n line.toList (onLine file n line) := by
  rw [onLine_eq]
  cases h : find? line with
  | none => exact .nothing (not_splits_of_findFrom h)
  | some d => exact written_suppressions h

theorem ofLinesFrom_eq_flatMap (file : String) (first : Nat) (lines : List String) :
    ofLinesFrom file first lines =
      (lines.zipIdx first).flatMap fun l => onLine file l.2 l.1 := by
  induction lines generalizing first with
  | nil => rfl
  | cons line rest ih =>
    rw [ofLinesFrom, ih, List.zipIdx_cons, List.flatMap_cons, onLine_eq]

end Suppression

/-- The suppressions of a text are those of its lines one after the other. A line stands for some
exactly when it can be split around a directive, and it stands for what the grammar makes of it: the
first directive counts, with the longer verb where both fit, and silences the names after it, each
once, up to the end of the line or a reason. -/
theorem lines_stand_for_what_is_written (file : String) (lines : List String) :
    Suppression.ofLines file lines =
      (lines.zipIdx 1).flatMap (fun l => Suppression.onLine file l.2 l.1) ∧
    ∀ (n : Nat) (line : String),
      (Suppression.onLine file n line ≠ [] ↔
        ∃ before forNext rest, Directive.Splits line.toList before forNext rest) ∧
      ∀ entries, Suppression.Written file n line.toList entries ↔
        entries = Suppression.onLine file n line := by
  refine ⟨Suppression.ofLinesFrom_eq_flatMap file 1 lines, ?_⟩
  intro n line
  have hwritten := Suppression.written_onLine file n line
  refine ⟨?_, ?_⟩
  · generalize Suppression.onLine file n line = entries at hwritten
    cases hwritten with
    | nothing plain => simp [plain]
    | @directive before rest inLine text forNext names ids chosen _ _ _ _ =>
      constructor
      · exact fun _ => ⟨before, forNext, rest, chosen.splits⟩
      · intro _ hnil
        rw [List.map_eq_nil_iff] at hnil
        cases ids with
        | nil => cases hnil
        | cons id ids => cases hnil
  · intro entries
    constructor
    · exact fun h => h.unique hwritten
    · rintro rfl
      exact hwritten

-- The longer verb does not end at a word boundary here, so the shorter one counts.
example : Suppression.ofLines "A" ["x /// viewlint:ignore-next-lines, b b -- c"] =
    [⟨"A", "next-lines", .int 1, .int 1, .int 4⟩, ⟨"A", "b", .int 1, .int 1, .int 4⟩] := by
  decide

end ComponentLint

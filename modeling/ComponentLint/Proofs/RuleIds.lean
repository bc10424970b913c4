-- The ids of rules. An id is accepted when it is in kebab case, or is so but
-- for one line feed at its end. The first kind can be written in a directive
-- and is read back; the second kind is read from no directive at all.
import ComponentLint.Proofs.DirectiveGrammar
import ComponentLint.Proofs.EffectiveSettings
import ComponentLint.Proofs.NodeRules
import ComponentLint.Proofs.Resolution

namespace ComponentLint

open ComponentLint.Text

/-! ## Kebab case -/

/-- A small letter or a digit, of ASCII. -/
def IdSign (c : Char) : Prop := ('a' ≤ c ∧ c ≤ 'z') ∨ ('0' ≤ c ∧ c ≤ '9')

/-- Groups of small letters and digits joined by single hyphens, none of them empty, and a letter at
the start of the first. -/
def Kebab (s : String) : Prop :=
  ∃ (first : Char) (more : List Char) (groups : List (List Char)),
    s.toList = ['-'].intercalate ((first :: more) :: groups) ∧ ('a' ≤ first ∧ first ≤ 'z') ∧
    (∀ c ∈ more, IdSign c) ∧ ∀ g ∈ groups, g ≠ [] ∧ ∀ c ∈ g, IdSign c

theorem isLower_iff {c : Char} : c.isLower = true ↔ 'a' ≤ c ∧ c ≤ 'z' := by
  change (decide ('a'.val ≤ c.val) && decide (c.val ≤ 'z'.val)) = true ↔ _
  rw [Bool.and_eq_true, decide_eq_true_iff, decide_eq_true_iff]
  rfl

theorem isIdChar_iff {c : Char} : isIdChar c = true ↔ IdSign c := by
  have hdigit : c.isDigit = true ↔ '0' ≤ c ∧ c ≤ '9' := by
    change (decide ('0'.val ≤ c.val) && decide (c.val ≤ '9'.val)) = true ↔ _
    rw [Bool.and_eq_true, decide_eq_true_iff, decide_eq_true_iff]
    rfl
  rw [isIdChar, Bool.or_eq_true, isLower_iff, hdigit, IdSign]

theorem IdSign.ne_hyphen {c : Char} (h : IdSign c) : c ≠ '-' := by
  rintro rfl
  revert h
  unfold IdSign
  decide

theorem isKebab_iff {s : String} : isKebab s.toList = true ↔ Kebab s := by
  have hgroup : ∀ g : List Char, (!g.isEmpty && g.all isIdChar) = true ↔
      g ≠ [] ∧ ∀ c ∈ g, IdSign c := by
    intro g
    simp [isIdChar_iff]
  simp only [isKebab, Bool.and_eq_true, List.all_eq_true, hgroup]
  constructor
  · rintro ⟨hstart, hgroups⟩
    have hjoined : ['-'].intercalate (s.toList.splitOn '-') = s.toList :=
      List.intercalate_splitOn '-'
    obtain ⟨piece, groups, hpieces⟩ :=
      List.exists_cons_of_ne_nil (List.splitOn_ne_nil '-' s.toList)
    rw [hpieces] at hjoined hgroups
    rw [List.forall_mem_cons] at hgroups
    obtain ⟨first, more, rfl⟩ := List.exists_cons_of_ne_nil hgroups.1.1
    refine ⟨first, more, groups, hjoined.symm, ?_, ?_, hgroups.2⟩
    · have hhead : s.toList.head? = some first := by
        rw [← hjoined]
        cases groups <;> rfl
      rw [hhead] at hstart
      exact isLower_iff.mp hstart
    · exact fun c hc => hgroups.1.2 c (List.mem_cons_of_mem _ hc)
  · rintro ⟨first, more, groups, hs, hfirst, hmore, hgroups⟩
    have hall : ∀ g ∈ (first :: more) :: groups, g ≠ [] ∧ ∀ c ∈ g, IdSign c := by
      rw [List.forall_mem_cons]
      refine ⟨⟨List.cons_ne_nil _ _, ?_⟩, hgroups⟩
      exact List.forall_mem_cons.mpr ⟨Or.inl hfirst, hmore⟩
    have hpieces : s.toList.splitOn '-' = (first :: more) :: groups := by
      rw [hs]
      refine List.splitOn_intercalate '-' (fun g hg hhyphen => ?_) (List.cons_ne_nil _ _)
      exact ((hall g hg).2 '-' hhyphen).ne_hyphen rfl
    have hhead : s.toList.head? = some first := by
      rw [hs]
      cases groups <;> rfl
    rw [hpieces, hhead]
    exact ⟨isLower_iff.mpr hfirst, hall⟩

theorem Kebab.feed_notMem {s : String} (h : Kebab s) : '\n' ∉ s.toList := by
  intro hfeed
  have hname := inName_of_isKebab (isKebab_iff.mpr h) '\n' hfeed
  revert hname
  decide

/-! ## Ids that are accepted -/

/-- A text that is in kebab case but for one line feed at its end. -/
def KebabFeed (id : String) : Prop := ∃ s, Kebab s ∧ id = s ++ "\n"

theorem KebabFeed.feed_mem {id : String} (h : KebabFeed id) : '\n' ∈ id.toList := by
  obtain ⟨s, -, rfl⟩ := h
  simp

theorem isRuleId_iff {id : String} : isRuleId id = true ↔ Kebab id ∨ KebabFeed id := by
  unfold isRuleId withoutFinalFeed
  by_cases hlast : id.toList.getLast? = some '\n'
  · rw [if_pos hlast]
    have hfeed : '\n' ∈ id.toList := List.mem_of_getLast? hlast
    have hsplit : id = String.ofList id.toList.dropLast ++ "\n" := by
      apply String.toList_inj.mp
      rw [String.toList_append, String.toList_ofList]
      exact (List.dropLast_append_getLast? _ hlast).symm
    have hkebab := isKebab_iff (s := String.ofList id.toList.dropLast)
    rw [String.toList_ofList] at hkebab
    rw [hkebab]
    constructor
    · exact fun h => Or.inr ⟨_, h, hsplit⟩
    · rintro (h | ⟨s, hs, hid⟩)
      · exact absurd hfeed h.feed_notMem
      · rw [hsplit] at hid
        have hs' := String.append_left_inj "\n" |>.mp hid
        rwa [hs']
  · rw [if_neg hlast, isKebab_iff]
    constructor
    · exact Or.inl
    · rintro (h | ⟨s, hs, rfl⟩)
      · exact h
      · exact absurd (by simp) hlast

/-- A draft of which only the id is in question. -/
structure RuleDraft.SoundButId (draft : RuleDraft) : Prop where
  category : ∃ category : Category, category.name = draft.category
  severity : ∃ severity : Severity, severity.name = draft.severity
  phase : ∃ phase : Phase, phase.name = draft.phase
  kinds : ∀ word ∈ draft.kinds, ∃ kind : Kind, kind.name = word

theorem Category.ofName?_name (c : Category) : Category.ofName? c.name = some c := by
  cases c <;> decide

theorem Phase.ofName?_name (p : Phase) : Phase.ofName? p.name = some p := by
  cases p <;> decide

namespace Descriptor

theorem of_declare {draft : RuleDraft} {d : Descriptor} (h : declare draft = .ok d) :
    isRuleId d.id = true ∧ d.id = draft.id ∧ d.params = draft.params := by
  unfold declare at h
  dsimp only at h
  split at h
  · rename_i hid
    split at h
    · split at h
      · split at h
        · split at h
          · cases h
            exact ⟨hid, rfl, rfl⟩
          · cases h
        · cases h
      · cases h
    · cases h
  · cases h

/-- An id that cannot be one is refused before anything else of the draft is looked at. -/
theorem declare_of_not_isRuleId {draft : RuleDraft} (h : isRuleId draft.id = false) :
    declare draft = .error (.id draft.id) := by
  unfold declare
  rw [h]
  rfl

/-- A draft that is sound otherwise is declared if its id can be one. -/
theorem exists_declare {draft : RuleDraft} (h : draft.SoundButId)
    (hid : isRuleId draft.id = true) : ∃ d, declare draft = .ok d := by
  obtain ⟨category, hcategory⟩ := h.category
  obtain ⟨severity, hseverity⟩ := h.severity
  obtain ⟨phase, hphase⟩ := h.phase
  have hknown : (draft.kinds.filter fun k => (Kind.ofName? k).isNone) = [] := by
    rw [List.filter_eq_nil_iff]
    intro word hword
    obtain ⟨kind, hkind⟩ := h.kinds word hword
    simp [Kind.ofName?_eq_some_iff.mpr hkind]
  unfold declare
  simp only [hid, ← hcategory, Category.ofName?_name, ← hseverity, Severity.ofName?_name, ← hphase,
    Phase.ofName?_name, hknown]
  exact ⟨_, rfl⟩

/-- A rule that was declared. -/
def Declared (d : Descriptor) : Prop := ∃ draft, declare draft = .ok d

theorem Declared.id {d : Descriptor} (h : d.Declared) : Kebab d.id ∨ KebabFeed d.id := by
  obtain ⟨draft, hdraft⟩ := h
  exact isRuleId_iff.mp (of_declare hdraft).1

end Descriptor

theorem Catalog.descriptors_of_registerAll {c c' : Catalog} {ds : List Descriptor}
    (h : c.registerAll ds = .ok c') : c'.descriptors = c.descriptors ++ ds := by
  induction ds generalizing c with
  | nil =>
    cases h
    rw [List.append_nil]
  | cons d ds ih =>
    obtain ⟨next, hnext, hrest⟩ := bind_eq_ok_iff.mp h
    unfold register at hnext
    split at hnext
    · cases hnext
    · cases hnext
      rw [ih hrest, List.append_assoc, List.singleton_append]

/-! ## Writing ids in directives -/

namespace Directive

/-- A comment with a directive for its own line or for the next one, to go at the end of a line. -/
def comment (forNext : Bool) (ids : List String) : String :=
  " // viewlint:" ++ verb forNext ++ " " ++ ", ".intercalate ids

variable {ids : List String}

theorem toList_comment (forNext : Bool) (hne : ids ≠ []) :
    (comment forNext ids).toList = ' ' :: '/' :: '/' :: ' ' ::
      ("viewlint:".toList ++ ((verb forNext).toList ++ listed ids)) := by
  have hmark : " // viewlint:".toList = ' ' :: '/' :: '/' :: ' ' :: "viewlint:".toList := by decide
  have hblank : " ".toList = [' '] := by decide
  unfold comment
  rw [listed_eq_intercalate hne, String.toList_append, String.toList_append, String.toList_append,
    hmark, hblank]
  simp only [List.cons_append, List.append_assoc, List.nil_append]

theorem here?_comment (before : List Char) (forNext : Bool) (hne : ids ≠ [])
    (hids : ∀ id ∈ ids, isKebab id.toList) :
    here? before ('/' :: '/' :: ' ' ::
        ("viewlint:".toList ++ ((verb forNext).toList ++ listed ids))) =
      some ⟨before, forNext, listed ids⟩ := by
  cases forNext with
  | false => exact here?_ignore before hne hids
  | true =>
    have htake := takeWhile_listed hids
    rw [listed_eq_intercalate hne] at htake ⊢
    generalize (", ".intercalate ids).toList = names at htake ⊢
    have hmark : ∀ text, afterMark? ('/' :: '/' :: ' ' :: ("viewlint:".toList ++ text)) =
        some text := fun _ => rfl
    have hverb : afterVerb? "ignore-next-line" ((verb true).toList ++ ' ' :: names) =
        some (' ' :: names) := rfl
    rw [here?_eq, hmark, Option.bind_some, hverb]
    simp only [htake]

/-- A line without a directive that gets one at its end has that directive. -/
theorem find?_comment {line : String} (hline : find? line = none) (forNext : Bool) (hne : ids ≠ [])
    (hids : ∀ id ∈ ids, isKebab id.toList) :
    find? (line ++ comment forNext ids) = some ⟨line.toList ++ [' '], forNext, listed ids⟩ := by
  have hblank : ∀ before rest, here? before (' ' :: rest) = none := fun _ _ => rfl
  rw [find?, String.toList_append, toList_comment forNext hne, findFrom_append hline, findFrom,
    hblank, Option.none_or, findFrom, here?_comment _ forNext hne hids]
  simp

/-- Every name that a directive is read to have is made of the characters of names. -/
theorem inName_of_mem_ruleIds {d : Directive} {id : String} (h : id ∈ d.ruleIds) :
    ∀ c ∈ id.toList, inName c := by
  have hall : ∀ c ∈ Suppression.allRules.toList, inName c := List.all_eq_true.mp (by decide)
  have hnames : ∀ {cs : List Char} {names : List String}, Names cs names →
      ∀ name ∈ names, ∀ c ∈ name.toList, inName c := by
    intro cs names hread
    induction hread with
    | nil => simp
    | skip _ _ ih => exact ih
    | @name first more rest names starts goes _ _ ih =>
      rw [List.forall_mem_cons, String.toList_ofList, List.forall_mem_cons]
      refine ⟨⟨?_, goes⟩, ih⟩
      have halpha : first.isAlpha = true := starts
      simp [inName, Char.isAlphanum, halpha]
  have hread := names_iff.mpr (rfl : scanNames none (beforeFirst " -- ".toList d.rest) = _)
  have hfirsts := firstOccurrences_distinct (scanNames none (beforeFirst " -- ".toList d.rest))
  unfold ruleIds at h
  split at h
  · rw [List.mem_singleton.mp h]
    exact hall
  · exact hnames hread id ((hfirsts.same id).mp h)

end Directive

namespace Suppression

theorem ofLinesFrom_append (file : String) (first : Nat) (above below : List String) :
    ofLinesFrom file first (above ++ below) =
      ofLinesFrom file first above ++ ofLinesFrom file (first + above.length) below := by
  induction above generalizing first with
  | nil => rfl
  | cons line above ih =>
    rw [List.cons_append, ofLinesFrom, ofLinesFrom, ih, List.append_assoc, List.length_cons]
    congr 3
    omega

/-- A directive with ids in kebab case, at the end of a line that has none, adds one suppression for
each of them in their order. -/
theorem ofLines_comment (file : String) (above below : List String) {line : String}
    (hline : Directive.find? line = none) (forNext : Bool) {ids : List String} (hne : ids ≠ [])
    (hnodup : ids.Nodup) (hids : ∀ id ∈ ids, isKebab id.toList) :
    ofLines file (above ++ (line ++ Directive.comment forNext ids) :: below) =
      ofLines file above ++
      (ids.map fun id => ⟨file, id,
        .int (if forNext || allBlank line.toList then above.length + 2 else above.length + 1),
        .int (above.length + 1), .int (line.length + 2)⟩) ++
      ofLinesFrom file (above.length + 2) below := by
  have hfind := Directive.find?_comment hline forNext hne hids
  have hnames := Directive.ruleIds_listed (line.toList ++ [' ']) hne hnodup hids
  -- What stands before the directive is the line with one blank more.
  have hbefore : allBlank (line.toList ++ [' ']) = allBlank line.toList := by
    unfold allBlank
    rw [List.all_append]
    exact Bool.and_true _
  have hhere : Directive.suppressions file (1 + above.length)
      ⟨line.toList ++ [' '], forNext, Directive.listed ids⟩ = _ :=
    congrArg (List.map _) hnames
  rw [ofLines, ofLinesFrom_append, ofLinesFrom, hfind, Option.map_some, Option.getD_some, hhere,
    List.append_assoc, ofLines]
  congr 2
  · refine List.map_congr_left fun id _ => ?_
    simp only [Directive.targetsNext, hbefore]
    congr 2
    · split
      · push_cast
        omega
      · push_cast
        omega
    · push_cast
      omega
    · rw [List.length_append, String.length_toList, List.length_singleton]
      push_cast
      omega
  · congr 1
    omega

theorem inName_of_mem_ofLines {s : Suppression} {file : String} {lines : List String}
    (h : s ∈ ofLines file lines) : ∀ c ∈ s.ruleId.toList, Directive.inName c := by
  obtain ⟨i, line, d, -, -, hs⟩ := mem_ofLinesFrom.mp h
  obtain ⟨id, hid, rfl⟩ := List.mem_map.mp hs
  exact Directive.inName_of_mem_ruleIds hid

end Suppression

/-! ## The ids of rules, from their declaration to the directives -/

/-- A draft that is otherwise sound is accepted when its id is in kebab case, and also when it is so
but for a line feed at its end; any other id is refused, whatever the draft. Ids of a catalog that
hold no line feed are read back, in their order, from a directive of either spelling at the end of
any line that has none yet, and what the other lines stand for stays. An id with a line feed is read
from no text. -/
theorem rule_ids_are_kebab_case_up_to_a_line_feed (draft : RuleDraft) (ds : List Descriptor)
    (c : Catalog) (hdeclared : ∀ d ∈ ds, d.Declared)
    (hc : ({} : Catalog).registerAll ds = .ok c) :
    (draft.SoundButId →
      ((∃ d, Descriptor.declare draft = .ok d) ↔ Kebab draft.id ∨ KebabFeed draft.id)) ∧
    (¬(Kebab draft.id ∨ KebabFeed draft.id) →
      Descriptor.declare draft = .error (.id draft.id)) ∧
    (∀ (ids : List String), ids ≠ [] → ids.Nodup →
      (∀ id ∈ ids, c.has id = true ∧ '\n' ∉ id.toList) →
      ∀ (file : String) (above below : List String) (line : String) (forNext : Bool),
        Directive.find? line = none →
        Suppression.ofLines file (above ++ (line ++ Directive.comment forNext ids) :: below) =
          Suppression.ofLines file above ++
          (ids.map fun id => ⟨file, id,
            .int (if forNext || allBlank line.toList then above.length + 2
              else above.length + 1),
            .int (above.length + 1), .int (line.length + 2)⟩) ++
          Suppression.ofLinesFrom file (above.length + 2) below) ∧
    ∀ (id : String), c.has id = true → '\n' ∈ id.toList →
      ∀ (file : String) (lines : List String), ∀ s ∈ Suppression.ofLines file lines,
        s.ruleId ≠ id := by
  refine ⟨fun hsound => ?_, fun hid => ?_, ?_, ?_⟩
  · rw [← isRuleId_iff]
    constructor
    · rintro ⟨d, hd⟩
      obtain ⟨hid, heq, -⟩ := Descriptor.of_declare hd
      rwa [← heq]
    · exact Descriptor.exists_declare hsound
  · rw [← isRuleId_iff, Bool.not_eq_true] at hid
    exact Descriptor.declare_of_not_isRuleId hid
  · intro ids hne hnodup hids file above below line forNext hline
    refine Suppression.ofLines_comment file above below hline forNext hne hnodup fun id hid => ?_
    obtain ⟨hhas, hfeed⟩ := hids id hid
    obtain ⟨d, hd, rfl⟩ := Catalog.has_iff.mp hhas
    rw [Catalog.descriptors_of_registerAll hc] at hd
    rcases (hdeclared d (by simpa using hd)).id with hkebab | hkebab
    · exact isKebab_iff.mpr hkebab
    · exact absurd hkebab.feed_mem hfeed
  · rintro id - hfeed file lines s hs rfl
    have hname := Suppression.inName_of_mem_ofLines hs '\n' hfeed
    revert hname
    decide

/-- A draft with a given id and nothing in question but it. -/
def draftOf (id : String) (params : List Parameter := []) : RuleDraft :=
  { id, category := "Style", severity := "info", params }

theorem soundButId_draftOf (id : String) (params : List Parameter) :
    (draftOf id params).SoundButId where
  category := ⟨.style, rfl⟩
  severity := ⟨.info, rfl⟩
  phase := ⟨.enter, rfl⟩
  kinds := by simp [draftOf]

theorem line_limit_is_declared_and_read_back :
    ∃ d c, Descriptor.declare (draftOf "line-limit") = .ok d ∧
      ({} : Catalog).registerAll [d] = .ok c ∧
      Suppression.ofLines "view.tsx" ["let x = 1;" ++ Directive.comment true ["line-limit"]] =
        [⟨"view.tsx", "line-limit", .int 2, .int 1, .int 12⟩] := by
  obtain ⟨d, hd⟩ := Descriptor.exists_declare (soundButId_draftOf "line-limit" []) (by decide)
  have hid : d.id = "line-limit" := (Descriptor.of_declare hd).2.1
  obtain ⟨-, -, hread, -⟩ := rule_ids_are_kebab_case_up_to_a_line_feed (draftOf "line-limit") [d]
    { descriptors := [d] } (by simpa using ⟨_, hd⟩) rfl
  refine ⟨d, { descriptors := [d] }, hd, rfl, ?_⟩
  refine hread ["line-limit"] (by decide) (by decide) ?_ "view.tsx" [] [] "let x = 1;" true
    (by decide)
  simpa [Catalog.has_iff] using hid

/-- Not only ids in kebab case are accepted. -/
theorem id_with_a_line_feed_is_accepted :
    ¬ ∀ draft : RuleDraft, draft.SoundButId →
      ((∃ d, Descriptor.declare draft = .ok d) ↔ Kebab draft.id) := by
  intro h
  have hkebab := (h _ (soundButId_draftOf "a-rule\n" [])).mp
    (Descriptor.exists_declare (soundButId_draftOf _ _) (by decide))
  exact hkebab.feed_notMem (by decide)

end ComponentLint

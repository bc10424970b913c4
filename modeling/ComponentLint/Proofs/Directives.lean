-- Directives written at the end of a line. A line without a directive that
-- gets one appended has that directive and no other, the names come back in
-- the order they were written in, and a line with text before the directive
-- is the line that it targets.
import ComponentLint.Proofs.Texts
import ComponentLint.Rule.Descriptor
import ComponentLint.Source.Suppression

namespace ComponentLint

open ComponentLint.Text

/-! ## Names of rules -/

theorem isAlpha_of_isLower {c : Char} (h : c.isLower) : c.isAlpha := by
  change (c.isUpper || c.isLower) = true
  rw [h, Bool.or_true]

/-- Every character of a rule id can stand in a name. -/
theorem inName_of_isKebab {cs : List Char} (h : isKebab cs) : ∀ c ∈ cs, Directive.inName c := by
  simp only [isKebab, Bool.and_eq_true, List.all_eq_true] at h
  intro c hc
  have hgroups := forall_mem_of_splitOn (p := (isIdChar ·)) fun g hg => (h.2 g hg).2
  rcases hgroups c hc with rfl | hid
  · rfl
  · simp only [isIdChar, Bool.or_eq_true] at hid
    rcases hid with hlower | hdigit
    · simp [Directive.inName, Char.isAlphanum, isAlpha_of_isLower hlower]
    · simp [Directive.inName, Char.isAlphanum, hdigit]

/-- A rule id starts with what a name can start with. -/
theorem startsName_of_isKebab {cs : List Char} (h : isKebab cs) :
    ∃ c more, cs = c :: more ∧ Directive.startsName c := by
  simp only [isKebab, Bool.and_eq_true] at h
  cases cs with
  | nil => simp at h
  | cons c more =>
    refine ⟨c, more, rfl, ?_⟩
    exact isAlpha_of_isLower (by simpa using h.1)

theorem toNat_of_isAlphanum {c : Char} (h : c.isAlphanum) :
    (65 ≤ c.toNat ∧ c.toNat ≤ 90 ∨ 97 ≤ c.toNat ∧ c.toNat ≤ 122) ∨
      48 ≤ c.toNat ∧ c.toNat ≤ 57 := by
  change ((decide ('A'.val ≤ c.val ∧ c.val ≤ 'Z'.val)
    || decide ('a'.val ≤ c.val) && decide (c.val ≤ 'z'.val))
    || decide ('0'.val ≤ c.val) && decide (c.val ≤ '9'.val)) = true at h
  simp only [Bool.or_eq_true, Bool.and_eq_true, decide_eq_true_eq,
    UInt32.le_iff_toNat_le] at h
  exact h

theorem isLineEnd_of_inName {c : Char} (h : Directive.inName c) : isLineEnd c = false := by
  simp only [Directive.inName, Bool.or_eq_true, decide_eq_true_eq] at h
  rcases h with (h | rfl) | rfl
  · have := toNat_of_isAlphanum h
    simp only [isLineEnd, Bool.or_eq_false_iff, Bool.and_eq_false_iff, decide_eq_false_iff_not,
      beq_eq_false_iff_ne]
    omega
  · rfl
  · rfl

namespace Directive

theorem ne_of_inName {c d : Char} (h : inName c) (hd : inName d = false) : c ≠ d := by
  rintro rfl
  rw [hd] at h
  cases h

/-! ## Appending a directive -/

/-- A line comment with a directive that silences rules on its line, to go at the end of it. -/
def atLineEnd (ids : List String) : String := " // viewlint:ignore " ++ ", ".intercalate ids

variable {tail : List Char}

theorem afterVerb?_append {verb : String} (h : ' ' ∉ verb.toList) (cs : List Char) :
    afterVerb? verb (cs ++ ' ' :: tail) = (afterVerb? verb cs).map (· ++ ' ' :: tail) := by
  rw [afterVerb?, afterVerb?, isPrefixOf?_append h]
  cases verb.toList.isPrefixOf? cs with
  | none => rfl
  | some rest =>
    have hbound : atBoundary (rest ++ ' ' :: tail) = atBoundary rest := by
      cases rest with
      | nil => rfl
      | cons c rest => rfl
    simp only [Option.map_some, Option.filter, hbound]
    split
    · rfl
    · rfl

/-- Where no directive starts, none starts once a comment is appended. -/
theorem here?_append {before cs : List Char} (tail : List Char) (h : here? before cs = none) :
    here? before (cs ++ ' ' :: '/' :: tail) = none := by
  simp only [here?] at h ⊢
  rw [isPrefixOf?_append (by decide)]
  cases hbody : "//".toList.isPrefixOf? cs with
  | none => rfl
  | some body =>
    simp only [hbody, Option.map_some, Option.bind_eq_bind, Option.bind_some] at h ⊢
    rw [List.dropWhile_append]
    by_cases hblank : (body.dropWhile isBlank).isEmpty
    -- The blanks at the end of the line lead to the slash of the comment, and no directive goes on
    -- with a slash.
    · rw [if_pos hblank]
      rfl
    · rw [if_neg hblank, isPrefixOf?_append (by decide)]
      cases hverb : "viewlint:".toList.isPrefixOf? (body.dropWhile isBlank) with
      | none => rfl
      | some verb =>
        simp only [hverb, Option.map_some, Option.bind_some] at h ⊢
        rw [afterVerb?_append (by decide), afterVerb?_append (by decide)]
        cases hnext : afterVerb? "ignore-next-line" verb with
        | some rest => simp [hnext] at h
        | none =>
          simp only [hnext, Option.map_eq_none_iff] at h
          simp [h]

theorem findFrom_append {before cs : List Char} (h : findFrom before cs = none) :
    findFrom before (cs ++ ' ' :: '/' :: tail)
      = findFrom (cs.reverse ++ before) (' ' :: '/' :: tail) := by
  induction cs generalizing before with
  | nil => rfl
  | cons c cs ih =>
    simp only [findFrom, Option.or_eq_none_iff] at h
    have hhere := here?_append tail h.1
    rw [List.cons_append] at hhere ⊢
    rw [findFrom, hhere, Option.none_or, ih h.2, List.reverse_cons, List.append_assoc,
      List.singleton_append]

/-! ## Reading the names back -/

/-- Names as they stand after a verb: each behind a blank, with commas between them. -/
def listed : List String → List Char
  | [] => []
  | [id] => ' ' :: id.toList
  | id :: more => ' ' :: id.toList ++ ',' :: listed more

theorem listed_eq_intercalate {ids : List String} (h : ids ≠ []) :
    listed ids = ' ' :: (", ".intercalate ids).toList := by
  induction ids using listed.induct with
  | case1 => exact absurd rfl h
  | case2 id => rfl
  | case3 id more hmore ih =>
    obtain ⟨next, rest, rfl⟩ := List.exists_cons_of_ne_nil hmore
    rw [listed.eq_3 id _ hmore, ih hmore, String.intercalate_cons_cons]
    simp

/-- Names that are rule ids are made of the characters of names, blanks and commas. -/
theorem mem_listed {ids : List String} (h : ∀ id ∈ ids, isKebab id.toList) :
    ∀ c ∈ listed ids, c = ' ' ∨ c = ',' ∨ inName c := by
  induction ids using listed.induct with
  | case1 => simp [listed]
  | case2 id =>
    intro c hc
    rcases List.mem_cons.mp hc with rfl | hc
    · exact Or.inl rfl
    · exact Or.inr (Or.inr (inName_of_isKebab (h id (by simp)) c hc))
  | case3 id more hmore ih =>
    intro c hc
    rw [listed.eq_3 id more hmore, List.mem_append, List.mem_cons, List.mem_cons] at hc
    rcases hc with (rfl | hc) | rfl | hc
    · exact Or.inl rfl
    · exact Or.inr (Or.inr (inName_of_isKebab (h id (by simp)) c hc))
    · exact Or.inr (Or.inl rfl)
    · exact ih (fun d hd => h d (by simp [hd])) c hc

theorem scanNames_name {name : List Char} (h : ∀ c ∈ name, inName c) (acc rest : List Char) :
    scanNames (some acc) (name ++ rest) = scanNames (some (name.reverse ++ acc)) rest := by
  induction name generalizing acc with
  | nil => rfl
  | cons c name ih =>
    rw [List.cons_append, scanNames, if_pos (h c (by simp)), ih fun d hd => h d (by simp [hd])]
    simp

theorem scanNames_blank_name {id : String} (h : isKebab id.toList) (rest : List Char) :
    scanNames none (' ' :: id.toList ++ rest) = scanNames (some id.toList.reverse) rest := by
  obtain ⟨c, more, hid, hstart⟩ := startsName_of_isKebab h
  have hmore : ∀ d ∈ more, inName d := fun d hd => inName_of_isKebab h d (by simp [hid, hd])
  rw [hid, List.cons_append, scanNames, if_neg (by decide), List.cons_append, scanNames,
    if_pos hstart, scanNames_name hmore]
  simp

theorem scanNames_listed {ids : List String} (h : ∀ id ∈ ids, isKebab id.toList) :
    scanNames none (listed ids) = ids := by
  induction ids using listed.induct with
  | case1 => rfl
  | case2 id =>
    have hscan := scanNames_blank_name (h id (by simp)) []
    rw [List.append_nil] at hscan
    rw [listed, hscan, scanNames, List.reverse_reverse, String.ofList_toList]
  | case3 id more hmore ih =>
    rw [listed.eq_3 id more hmore, scanNames_blank_name (h id (by simp)), scanNames,
      if_neg (by decide), ih fun d hd => h d (by simp [hd]), List.reverse_reverse,
      String.ofList_toList]

theorem beforeFirst_append {name : List Char} (h : ∀ c ∈ name, c ≠ ' ') (rest : List Char) :
    beforeFirst " -- ".toList (name ++ rest) = name ++ beforeFirst " -- ".toList rest := by
  induction name with
  | nil => rfl
  | cons c name ih =>
    have hc : ' ' ≠ c := (h c (by simp)).symm
    rw [List.cons_append, beforeFirst, if_neg (by simp [List.isPrefixOf?, hc]),
      ih fun d hd => h d (by simp [hd]), List.cons_append]

theorem beforeFirst_blank_name {id : String} (h : isKebab id.toList) (rest : List Char) :
    beforeFirst " -- ".toList (' ' :: id.toList ++ rest)
      = ' ' :: id.toList ++ beforeFirst " -- ".toList rest := by
  obtain ⟨c, more, hid, hstart⟩ := startsName_of_isKebab h
  have hc : '-' ≠ c := by
    rintro rfl
    cases hstart
  have hname : ∀ d ∈ c :: more, d ≠ ' ' :=
    fun d hd => ne_of_inName (inName_of_isKebab h d (hid ▸ hd)) (by decide)
  have hblank : ¬ (" -- ".toList.isPrefixOf? (' ' :: c :: (more ++ rest))).isSome := by
    simp [List.isPrefixOf?, hc]
  rw [hid, List.cons_append, List.cons_append, beforeFirst, if_neg hblank, ← List.cons_append,
    beforeFirst_append hname]
  rfl

/-- A list of names holds no reason. -/
theorem beforeFirst_listed {ids : List String} (h : ∀ id ∈ ids, isKebab id.toList) :
    beforeFirst " -- ".toList (listed ids) = listed ids := by
  induction ids using listed.induct with
  | case1 => rfl
  | case2 id =>
    have hone := beforeFirst_blank_name (h id (by simp)) []
    rwa [List.append_nil, beforeFirst, List.append_nil] at hone
  | case3 id more hmore ih =>
    rw [listed.eq_3 id more hmore, beforeFirst_blank_name (h id (by simp)), beforeFirst,
      if_neg (by simp [List.isPrefixOf?]), ih fun d hd => h d (by simp [hd])]

/-- Looking for the names that are new finds them all when none occurs twice. -/
theorem foldl_distinct {seen rest : List String} (h : (seen ++ rest).Nodup) :
    rest.foldl (fun seen name => if seen.contains name then seen else seen ++ [name]) seen
      = seen ++ rest := by
  induction rest generalizing seen with
  | nil => simp
  | cons name rest ih =>
    have hfresh : ¬ seen.contains name := by
      intro hmem
      exact (List.nodup_append.mp h).2.2 name (by simpa using hmem) name (by simp) rfl
    rw [List.append_cons] at h ⊢
    rw [List.foldl_cons, if_neg hfresh, ih h]

theorem distinct_of_nodup {names : List String} (h : names.Nodup) : distinct names = names :=
  foldl_distinct (List.nil_append names ▸ h)

/-! ## The appended directive -/

theorem toList_atLineEnd {ids : List String} (hne : ids ≠ []) :
    (atLineEnd ids).toList
      = ' ' :: '/' :: '/' :: ' ' :: ("viewlint:ignore".toList ++ listed ids) := by
  have hverb : " // viewlint:ignore ".toList
      = ' ' :: '/' :: '/' :: ' ' :: ("viewlint:ignore".toList ++ [' ']) := by decide
  unfold atLineEnd
  rw [String.toList_append, listed_eq_intercalate hne, hverb]
  simp only [List.cons_append, List.append_assoc, List.nil_append]

variable {ids : List String}

theorem takeWhile_listed (hids : ∀ id ∈ ids, isKebab id.toList) :
    (listed ids).takeWhile (· ≠ '\n') = listed ids := by
  have hfeed : ∀ c ∈ listed ids, decide (c ≠ '\n') = true := by
    intro c hc
    rcases mem_listed hids c hc with rfl | rfl | hname
    · rfl
    · rfl
    · exact decide_eq_true (ne_of_inName hname (by decide))
  have htake := @List.takeWhile_append_of_pos _ _ _ [] hfeed
  rwa [List.takeWhile_nil, List.append_nil] at htake

theorem here?_ignore (before : List Char) (hne : ids ≠ []) (hids : ∀ id ∈ ids, isKebab id.toList) :
    here? before ('/' :: '/' :: ' ' :: ("viewlint:ignore".toList ++ listed ids))
      = some ⟨before, false, listed ids⟩ := by
  have htake := takeWhile_listed hids
  rw [listed_eq_intercalate hne] at htake ⊢
  generalize (", ".intercalate ids).toList = names at htake ⊢
  have hbody : ∀ rest, "//".toList.isPrefixOf? ('/' :: '/' :: rest) = some rest := fun _ => rfl
  have hskip : (' ' :: ("viewlint:ignore".toList ++ ' ' :: names)).dropWhile isBlank
      = "viewlint:ignore".toList ++ ' ' :: names := rfl
  have hmark : "viewlint:".toList.isPrefixOf? ("viewlint:ignore".toList ++ ' ' :: names)
      = some ("ignore".toList ++ ' ' :: names) := rfl
  have hnext : afterVerb? "ignore-next-line" ("ignore".toList ++ ' ' :: names) = none := rfl
  have hverb : afterVerb? "ignore" ("ignore".toList ++ ' ' :: names) = some (' ' :: names) := rfl
  simp only [here?, hbody, hskip, hmark, hnext, hverb, htake, Option.bind_eq_bind,
    Option.bind_some, Option.map_some]

/-- A line without a directive gets the appended one. -/
theorem find?_append_atLineEnd {line : String} (hline : find? line = none) (hne : ids ≠ [])
    (hids : ∀ id ∈ ids, isKebab id.toList) :
    find? (line ++ atLineEnd ids) = some ⟨line.toList ++ [' '], false, listed ids⟩ := by
  have hblank : ∀ before rest, here? before (' ' :: rest) = none := fun _ _ => rfl
  rw [find?, String.toList_append, toList_atLineEnd hne, findFrom_append hline, findFrom, hblank,
    Option.none_or, findFrom, here?_ignore _ hne hids]
  simp

theorem ruleIds_listed (before : List Char) (hne : ids ≠ []) (hnodup : ids.Nodup)
    (hids : ∀ id ∈ ids, isKebab id.toList) : ruleIds ⟨before, false, listed ids⟩ = ids := by
  rw [ruleIds, beforeFirst_listed hids, scanNames_listed hids, distinct_of_nodup hnodup]
  split
  · exact absurd rfl hne
  · rfl

/-- A directive with text before it silences the named rules on its own line. -/
theorem suppressions_listed {before : List Char} (hbefore : allBlank before = false)
    (hne : ids ≠ []) (hnodup : ids.Nodup) (hids : ∀ id ∈ ids, isKebab id.toList) (file : String)
    (line : Nat) :
    suppressions file line ⟨before, false, listed ids⟩
      = ids.map fun id => ⟨file, id, .int line, .int line, .int (before.length + 1)⟩ := by
  simp only [suppressions, ruleIds_listed before hne hnodup hids, targetsNext, hbefore,
    Bool.or_self, Bool.false_eq_true, if_false]

end Directive

namespace Suppression

/-- A suppression of a text comes from the directive of one of its lines. -/
theorem mem_ofLinesFrom {s : Suppression} {file : String} {first : Nat} {lines : List String} :
    s ∈ ofLinesFrom file first lines ↔
      ∃ i line d, lines[i]? = some line ∧ Directive.find? line = some d ∧
        s ∈ d.suppressions file (first + i) := by
  induction lines generalizing first with
  | nil => simp [ofLinesFrom]
  | cons line rest ih =>
    rw [ofLinesFrom, List.mem_append, ih]
    constructor
    · rintro (hhere | ⟨i, other, d, hother, hd, hs⟩)
      · cases hd : Directive.find? line with
        | none => simp [hd] at hhere
        | some d =>
          simp only [hd, Option.map_some, Option.getD_some] at hhere
          exact ⟨0, line, d, rfl, hd, hhere⟩
      · refine ⟨i + 1, other, d, hother, hd, ?_⟩
        rwa [Nat.add_comm i 1, ← Nat.add_assoc]
    · rintro ⟨i, other, d, hother, hd, hs⟩
      cases i with
      | zero =>
        cases hother
        exact Or.inl (by simpa [hd] using hs)
      | succ i =>
        refine Or.inr ⟨i, other, d, hother, hd, ?_⟩
        rwa [Nat.add_assoc, Nat.add_comm 1 i]

/-- A directive appended to a line adds the suppressions of its names on that line. -/
theorem mem_ofLines_append {s : Suppression} {lines ids : List String} {place : Nat}
    {text : String} (hline : lines[place]? = some text) (hblank : allBlank text.toList = false)
    (hnone : Directive.find? text = none) (hne : ids ≠ []) (hnodup : ids.Nodup)
    (hids : ∀ id ∈ ids, isKebab id.toList) (file : String) :
    s ∈ ofLines file (lines.modify place (· ++ Directive.atLineEnd ids)) ↔
      s ∈ ofLines file lines ∨ ∃ id ∈ ids,
        s = ⟨file, id, .int ((place + 1 : Nat) : Int), .int ((place + 1 : Nat) : Int),
          .int ((text.toList ++ [' ']).length + 1)⟩ := by
  have hfind := Directive.find?_append_atLineEnd hnone hne hids
  have hbefore : allBlank (text.toList ++ [' ']) = false := by
    simp only [allBlank, List.all_append] at hblank ⊢
    rw [hblank, Bool.false_and]
  rw [ofLines, ofLines, mem_ofLinesFrom, mem_ofLinesFrom]
  constructor
  · rintro ⟨i, line, d, hi, hd, hs⟩
    by_cases hplace : place = i
    · subst hplace
      rw [List.getElem?_modify_eq, hline, Option.map_eq_map, Option.map_some,
        Option.some.injEq] at hi
      subst hi
      rw [hfind, Option.some.injEq] at hd
      subst hd
      rw [Directive.suppressions_listed hbefore hne hnodup hids, Nat.add_comm 1 place] at hs
      obtain ⟨id, hid, rfl⟩ := List.mem_map.mp hs
      exact Or.inr ⟨id, hid, rfl⟩
    · rw [List.getElem?_modify_ne _ _ hplace] at hi
      exact Or.inl ⟨i, line, d, hi, hd, hs⟩
  · rintro (⟨i, line, d, hi, hd, hs⟩ | ⟨id, hid, rfl⟩)
    · refine ⟨i, line, d, ?_, hd, hs⟩
      have hplace : place ≠ i := by
        rintro rfl
        rw [hline, Option.some.injEq] at hi
        rw [hi, hd] at hnone
        cases hnone
      rw [List.getElem?_modify_ne _ _ hplace, hi]
    · refine ⟨place, text ++ Directive.atLineEnd ids, _, ?_, hfind, ?_⟩
      · rw [List.getElem?_modify_eq, hline, Option.map_eq_map, Option.map_some]
      · rw [Directive.suppressions_listed hbefore hne hnodup hids, Nat.add_comm 1 place]
        exact List.mem_map.mpr ⟨id, hid, rfl⟩

end Suppression

end ComponentLint

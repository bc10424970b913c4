-- Suppressions written into the source. A directive at the end of a line of
-- code names rules; linting the edited document reports what it reported
-- before, in the same order, but for the findings of the named rules that
-- start on that line, and for what is said about unused suppressions.
import ComponentLint.Proofs.CheckScope
import ComponentLint.Proofs.Comments
import ComponentLint.Proofs.Directives
import ComponentLint.Proofs.Resolution
import ComponentLint.Proofs.SourceEdits

namespace ComponentLint

open ComponentLint.Text

/-! ## The appended text -/

namespace Directive

variable {ids : List String}

/-- What holds of some signs and of every character of a name holds all over the appended text. -/
theorem forall_mem_atLineEnd (hne : ids ≠ []) (hids : ∀ id ∈ ids, isKebab id.toList)
    {p : Char → Prop} (hsigns : p ' ' ∧ p '/' ∧ p ':' ∧ p ',') (hname : ∀ c, inName c → p c) :
    ∀ c ∈ (atLineEnd ids).toList, p c := by
  obtain ⟨hblank, hslash, hcolon, hcomma⟩ := hsigns
  have hverb : ("viewlint:ignore".toList.all fun c => c == ':' || inName c) = true := by decide
  intro c hc
  simp only [toList_atLineEnd hne, List.mem_cons, List.mem_append] at hc
  rcases hc with rfl | rfl | rfl | rfl | hc | hc
  · exact hblank
  · exact hslash
  · exact hslash
  · exact hblank
  · have hc := List.all_eq_true.mp hverb c hc
    rw [Bool.or_eq_true, beq_iff_eq] at hc
    rcases hc with rfl | hc
    · exact hcolon
    · exact hname c hc
  · rcases mem_listed hids c hc with rfl | rfl | hc
    · exact hblank
    · exact hcomma
    · exact hname c hc

theorem trailing_atLineEnd (hne : ids ≠ []) (hids : ∀ id ∈ ids, isKebab id.toList) :
    Source.Trailing (atLineEnd ids).toList := by
  refine ⟨⟨_, toList_atLineEnd hne⟩, forall_mem_atLineEnd hne hids (by decide) ?_⟩
  intro c hc
  exact ⟨ne_of_inName hc (by decide), ne_of_inName hc (by decide), ne_of_inName hc (by decide)⟩

theorem isLineEnd_atLineEnd (hne : ids ≠ []) (hids : ∀ id ∈ ids, isKebab id.toList) :
    ∀ c ∈ (atLineEnd ids).toList, isLineEnd c = false :=
  forall_mem_atLineEnd hne hids (by decide) fun _ => isLineEnd_of_inName

end Directive

/-! ## The edited unit -/

section

variable {ids : List String} (hne : ids ≠ []) (hids : ∀ id ∈ ids, isKebab id.toList)
include hne hids

/-- The edited document gives the unit with the longer line and the suppressions of its lines. -/
theorem Model.ofDocument_appendToLine {origin : String} {v : Value} {m : Model}
    (hm : Model.ofDocument origin v = .ok m) {place : Nat} (hplace : place < m.lines.length) :
    ∃ m' declared,
      Model.ofDocument origin (Document.appendToLine (Directive.atLineEnd ids) place v) = .ok m' ∧
      m'.roots = m.roots ∧ m'.lines = m.lines.modify place (· ++ Directive.atLineEnd ids) ∧
      m.suppressions = Suppression.ofLines m.file m.lines ++ declared ∧
      m'.suppressions = Suppression.ofLines m.file m'.lines ++ declared := by
  obtain ⟨file, lines, drafts, declared, forest, hreads, hcheck, rfl⟩ :=
    Model.ofDocument_eq_ok_iff.mp hm
  have hedited := hreads.appendToLine (Directive.isLineEnd_atLineEnd hne hids)
    (by simp [Directive.toList_atLineEnd hne]) hplace
  exact ⟨_, declared, Model.ofDocument_eq_ok_iff.mpr ⟨_, _, drafts, declared, forest, hedited,
    hcheck, rfl⟩, rfl, rfl, rfl, rfl⟩

/-- The appended directive moves no measure. -/
theorem Source.measure_appended (lines : List String) (place : Nat) (s : Span) :
    Source.measure (lines.modify place (· ++ Directive.atLineEnd ids)) s
      = Source.measure lines s := by
  apply Source.measure_eq_of_sameCode
  exact Source.forall₂_sameCode_modify (Directive.trailing_atLineEnd hne hids).sameCode place lines

/-- The suppressions of the edited unit silence what those of the unit did, and the findings of the
named rules on the line. -/
theorem any_silences_appended {lines : List String} {place : Nat} {text : String}
    (hline : lines[place]? = some text) (hblank : allBlank text.toList = false)
    (hnone : Directive.find? text = none) (hnodup : ids.Nodup) (hall : Suppression.allRules ∉ ids)
    (declared : List Suppression) (f : Finding) :
    let edited := lines.modify place (· ++ Directive.atLineEnd ids)
    (Suppression.ofLines f.span.file edited ++ declared).any (·.silences f)
      = ((Suppression.ofLines f.span.file lines ++ declared).any (·.silences f)
        || decide (f.ruleId ∈ ids ∧ f.span.startLine = place + 1)) := by
  intro edited
  rw [Bool.eq_iff_iff, Bool.or_eq_true, List.any_eq_true, List.any_eq_true, decide_eq_true_eq]
  simp only [edited, List.mem_append,
    Suppression.mem_ofLines_append hline hblank hnone hne hnodup hids]
  constructor
  · rintro ⟨s, (hs | ⟨id, hid, rfl⟩) | hs, hsilences⟩
    · exact Or.inl ⟨s, Or.inl hs, hsilences⟩
    · right
      simp only [Suppression.silences, Suppression.covers, Numeral.value, Bool.and_eq_true,
        Bool.or_eq_true, beq_iff_eq] at hsilences
      obtain ⟨⟨-, hstart⟩, rfl | rfl⟩ := hsilences
      · exact absurd hid hall
      · exact ⟨hid, hstart⟩
    · exact Or.inl ⟨s, Or.inr hs, hsilences⟩
  · rintro (⟨s, hs | hs, hsilences⟩ | ⟨hid, hstart⟩)
    · exact ⟨s, Or.inl (Or.inl hs), hsilences⟩
    · exact ⟨s, Or.inr hs, hsilences⟩
    · refine ⟨_, Or.inl (Or.inr ⟨f.ruleId, hid, rfl⟩), ?_⟩
      simp [Suppression.silences, Suppression.covers, Numeral.value, hstart]

/-- The notes on the suppressions of the edited unit can be written when those on the suppressions
of the unit can: the new ones are about a line whose number can be written. -/
theorem noted_appended {lines : List String} {place : Nat} {text : String}
    (hline : lines[place]? = some text) (hblank : allBlank text.toList = false)
    (hnone : Directive.find? text = none) (hnodup : ids.Nodup)
    (hshort : Number.isShort ((place : Int) + 1) = true) (file : String)
    (declared : List Suppression) (findings : List Finding) (rules : Option ActiveRules) :
    Report.Noted findings (Suppression.ofLines file (lines.modify place
        (· ++ Directive.atLineEnd ids)) ++ declared) rules ↔
      Report.Noted findings (Suppression.ofLines file lines ++ declared) rules := by
  unfold Report.Noted
  simp only [List.mem_append,
    Suppression.mem_ofLines_append hline hblank hnone hne hnodup hids]
  constructor
  · intro h s hs
    exact h s (hs.imp_left Or.inl)
  · rintro h s ((hs | ⟨id, -, rfl⟩) | hs)
    · exact h s (Or.inl hs)
    · intro _ _
      exact Or.inl hshort
    · exact h s (Or.inr hs)

end

/-! ## The round trip -/

/-- Linting a document, and linting it with a directive at the end of a line of code that names
rules: the second report has, in the same order, the findings of the first without those of the
named rules that start on the line, unused suppressions aside, and the same failures of rules. There
is a report on both when what there is to report on the first can be written, and so can the number
of the line. -/
theorem appended_directive_silences_the_named_rules (origin : String) (v : Value) (m : Model)
    (hm : Model.ofDocument origin v = .ok m) (layers : List Layer) (config : Configuration)
    (hconfig : Configuration.ofLayers Catalog.standard layers = .ok config) (rs : ActiveRules)
    (hrs : Catalog.standard.resolve config = .ok rs)
    (place : Nat) (text : String) (hline : m.lines[place]? = some text)
    (hblank : allBlank text.toList = false) (hnone : Directive.find? text = none)
    (ids : List String) (hne : ids ≠ []) (hnodup : ids.Nodup)
    (hids : ∀ id ∈ ids, isKebab id.toList) (hall : Suppression.allRules ∉ ids) :
    ∃ m',
      Model.ofDocument origin (Document.appendToLine (Directive.atLineEnd ids) place v) = .ok m' ∧
      m'.lines = m.lines.modify place (· ++ Directive.atLineEnd ids) ∧
      ((∃ r, Report.ofModel m rs = .ok r) ↔ Report.Writable m rs) ∧
      (Number.isShort ((place : Int) + 1) = true →
        ((∃ r', Report.ofModel m' rs = .ok r') ↔ Report.Writable m rs)) ∧
      ∀ r r', Report.ofModel m rs = .ok r → Report.ofModel m' rs = .ok r' →
        (r'.findings.filter fun f => f.ruleId ≠ unusedSuppression) =
          (r.findings.filter fun f => f.ruleId ≠ unusedSuppression ∧
            ¬ (f.ruleId ∈ ids ∧ f.span.startLine = (place : Int) + 1)) ∧
        r'.errors = r.errors := by
  obtain ⟨hplace, -⟩ := List.getElem?_eq_some_iff.mp hline
  obtain ⟨m', declared, hm', hroots, hlines, hsuppressions, hsuppressions'⟩ :=
    Model.ofDocument_appendToLine hne hids hm hplace
  obtain ⟨hindexed, hrules⟩ := Catalog.of_resolve hrs
  have hstandard : rs.Standard := fun rule hrule => (hrules rule hrule).1
  have hexists := Report.exists_ofModel_iff hindexed
    (Catalog.isSome_severity_of_ranked (Configuration.ranked_ofLayers hconfig) hrs)
  -- The rules see no difference between the two units.
  have hmeasured : ∀ s, m'.measured s = m.measured s := by
    intro s
    rw [Model.measured, hlines]
    exact Source.measure_appended hne hids m.lines place s
  have hsurvey := Survey.ofModel_congr hstandard hroots hmeasured
  refine ⟨m', hm', hlines, hexists m, fun hshort => ?_, fun r r' hr hr' => ?_⟩
  · rw [hexists m', Report.Writable, Report.Writable, hsurvey, hsuppressions, hsuppressions',
      hlines, noted_appended hne hids hline hblank hnone hnodup hshort]
  · obtain ⟨a, ha, hr⟩ := Report.ofModel_eq_ok_iff.mp hr
    obtain ⟨a', ha', hr'⟩ := Report.ofModel_eq_ok_iff.mp hr'
    obtain rfl : a' = a := by
      rw [Analysis.ofModel_eq _ hindexed] at ha ha'
      rw [hsurvey] at ha'
      exact Except.ok.inj (ha'.symm.trans ha)
    have hfindings := ((Analysis.ofModel_eq_ok_iff hindexed).mp ha).1
    refine ⟨?_, (Report.aggregate_eq_ok_iff.mp hr').2.2.trans
      (Report.aggregate_eq_ok_iff.mp hr).2.2.symm⟩
    refine Report.filter_eq_of_aggregate hr' hr (fun f hf => of_decide_eq_true hf)
      (fun f hf => (of_decide_eq_true hf).1) ?_
    intro f hf
    rw [hfindings] at hf
    have hfile := Survey.file_of_mem_findings hstandard (Model.accepted_of_ofDocument hm) hf
    rw [hsuppressions, hsuppressions', hlines, ← hfile,
      any_silences_appended hne hids hline hblank hnone hnodup hall declared f, Bool.not_or,
      ← decide_not, Bool.decide_and]
    ac_rfl

/-- A unit with a list that goes by positions, on a line that ends inside a block comment. -/
def positionalList : Value :=
  .map [(.str "file", .str "Feed"), (.str "source", .str "List(items, id: index) /* the\nfeed */"),
    (.str "nodes", .list [.map [(.str "kind", .str "component"), (.str "name", .str "List"),
      (.str "span", .list [.int 1, .int 1, .int 1, .int 22]),
      (.str "attributes", .map [(.str "id", .str "index")])]])]

theorem appended_directive_silences_stable_identity :
    ∃ config rs m m' r r', Configuration.ofLayers Catalog.standard [] = .ok config ∧
      Catalog.standard.resolve config = .ok rs ∧
      Model.ofDocument "feed" positionalList = .ok m ∧
      Model.ofDocument "feed" (Document.appendToLine (Directive.atLineEnd ["stable-identity"]) 0
        positionalList) = .ok m' ∧
      m'.lines = m.lines.modify 0 (· ++ Directive.atLineEnd ["stable-identity"]) ∧
      Report.ofModel m rs = .ok r ∧ Report.ofModel m' rs = .ok r' ∧
      (r'.findings.filter fun f => f.ruleId ≠ unusedSuppression) =
        (r.findings.filter fun f => f.ruleId ≠ unusedSuppression ∧
          ¬ (f.ruleId ∈ ["stable-identity"] ∧ f.span.startLine = 1)) ∧
      r'.errors = r.errors := by
  let entry : Entry Kind :=
    ⟨.component, some "List", ⟨"Feed", 1, 1, 1, 22⟩, [], [("id", .str "index")]⟩
  let m : Model :=
    .ofForest "Feed" [.node entry []] ["List(items, id: index) /* the", "feed */"] []
  let draft : Draft := .node { entry with kind := "component" } []
  have hm : Model.ofDocument "feed" positionalList = .ok m := by
    refine Model.ofDocument_eq_ok_iff.mpr
      ⟨_, _, [draft], [], _, ⟨⟨_, rfl⟩, rfl, rfl, ⟨_, rfl, ?_⟩, rfl⟩, rfl, rfl⟩
    rw [Document.readRoots, Document.readNode]
    rfl
  obtain ⟨config, rs, hconfig, hrs⟩ := Catalog.exists_resolve_standard
  have hwritable : Report.Writable m rs :=
    ⟨Survey.recordable_of_short (fun r hr => ((Catalog.of_resolve hrs).2 r hr).1)
      (Model.isShort_of_near (by decide)), fun _ hs => absurd hs List.not_mem_nil⟩
  obtain ⟨m', hm', hlines, hexists, hexists', hsilenced⟩ :=
    appended_directive_silences_the_named_rules "feed" positionalList m hm [] config hconfig
      rs hrs 0 "List(items, id: index) /* the" rfl (by decide) (by decide) ["stable-identity"]
      (by simp) (by simp) (by decide) (by decide)
  obtain ⟨r, hr⟩ := hexists.mpr hwritable
  obtain ⟨r', hr'⟩ := (hexists' (Number.isShort_of_natAbs_lt (by decide))).mpr hwritable
  exact ⟨config, rs, m, m', r, r', hconfig, hrs, hm, hm', hlines, hr, hr', hsilenced r r' hr hr'⟩

end ComponentLint

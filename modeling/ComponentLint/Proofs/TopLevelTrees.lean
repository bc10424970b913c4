-- Top-level trees do not see each other. Any run of neighbours among the
-- roots of an accepted unit is accepted on its own, and the analysis of the
-- unit is the analysis of its parts, one after the other: no standard rule
-- looks further than the tree that a node is in and the lines of the unit.
import ComponentLint.Proofs.CheckScope
import ComponentLint.Proofs.Resolution

namespace ComponentLint

/-! ## Checking some of the roots -/

namespace NodeTable

variable {t : NodeTable} {file : String}

/-- Links that can be followed can be followed to the same trees when fewer rows are met before. -/
theorem Follows.of_fewer_met {links met rows : List (Fin t.size)} {forest : List Node}
    (h : Follows t file links met forest rows) {met' : List (Fin t.size)} (hsub : met' ⊆ met) :
    Follows t file links met' forest rows := by
  induction h generalizing met' with
  | nil => exact .nil
  | @cons i rest met rowsBelow rowsAfter e below after fresh passes _ _ ihDown ihAlong =>
    have hmore : ∀ {ks js : List (Fin t.size)} (more : List (Fin t.size)), ks ⊆ js →
        ks ++ more ⊆ js ++ more := fun more h =>
      List.append_subset.mpr
        ⟨List.subset_append_of_subset_left more h, List.subset_append_right _ _⟩
    exact .cons (fun hmem => fresh (hsub hmem)) passes (ihDown (hmore [i] hsub))
      (ihAlong (hmore rowsBelow (hmore [i] hsub)))

end NodeTable

theorem Draft.checkAll_of_append {file : String} {as bs : List Draft} {forest : List Node}
    (h : Draft.checkAll file (as ++ bs) = .ok forest) :
    ∃ fa fb, Draft.checkAll file as = .ok fa ∧ Draft.checkAll file bs = .ok fb ∧
      forest = fa ++ fb := by
  induction as generalizing forest with
  | nil => exact ⟨[], forest, rfl, h, rfl⟩
  | cons a as ih =>
    simp only [List.cons_append, Draft.checkAll, bind_eq_ok_iff] at h
    obtain ⟨n, hn, rest, hrest, hforest⟩ := h
    cases hforest
    obtain ⟨fa, fb, ha, hb, rfl⟩ := ih hrest
    refine ⟨n :: fa, fb, ?_, hb, rfl⟩
    simp only [Draft.checkAll, bind_eq_ok_iff]
    exact ⟨n, hn, fa, ha, rfl⟩

theorem Draft.checkRoots_of_append {file : String} {as bs : List Draft} {forest : List Node}
    (h : Draft.checkRoots file (as ++ bs) = .ok forest) :
    ∃ fa fb, Draft.checkRoots file as = .ok fa ∧ Draft.checkRoots file bs = .ok fb ∧
      forest = fa ++ fb := by
  unfold Draft.checkRoots at h ⊢
  simp only [bind_eq_ok_iff] at h ⊢
  obtain ⟨⟨⟩, hroots, hall⟩ := h
  obtain ⟨fa, fb, ha, hb, hforest⟩ := Draft.checkAll_of_append hall
  rw [checkSiblings_eq_ok_iff, List.map_append] at hroots
  exact ⟨fa, fb, ⟨(), (checkSiblings_eq_ok_iff _ _).mpr hroots.left_of_append, ha⟩,
    ⟨(), (checkSiblings_eq_ok_iff _ _).mpr hroots.right_of_append, hb⟩, hforest⟩

/-! ## Units of some of the roots -/

/-- The ways of making units of a file with given lines: from the rows of a table of linked nodes,
and from submitted trees. -/
inductive MakesUnits (file : String) (lines : List String) :
    {ρ : Type} → (List ρ → List Suppression → Except (Stop Malformed) Model) → Prop
  | ofTable (t : NodeTable) :
      MakesUnits file lines fun roots suppressions => Model.ofTable t file roots lines suppressions
  | ofDrafts :
      MakesUnits file lines fun roots suppressions => Model.ofDrafts file roots lines suppressions

section

variable {file : String} {lines : List String} {ρ : Type}
  {make : List ρ → List Suppression → Except (Stop Malformed) Model}

/-- A unit of two lists of roots falls into a unit of each, whatever is suppressed in them. -/
theorem MakesUnits.of_append (hmake : MakesUnits file lines make) {as bs : List ρ}
    {suppressions : List Suppression} {m : Model} (h : make (as ++ bs) suppressions = .ok m)
    (sa sb : List Suppression) :
    ∃ fa fb, m = Model.ofForest file (fa ++ fb) lines suppressions ∧
      make as sa = .ok (Model.ofForest file fa lines sa) ∧
      make bs sb = .ok (Model.ofForest file fb lines sb) := by
  cases hmake with
  | ofTable t =>
    obtain ⟨hchain, forest, rows, hfollows, rfl⟩ := Model.ofTable_eq_ok_iff.mp h
    obtain ⟨fa, fb, ra, rb, rfl, ha, hb⟩ := hfollows.split
    rw [List.map_append] at hchain
    -- the second part is met after the rows of the first one, and without it before them
    exact ⟨fa, fb, rfl, Model.ofTable_eq_ok_iff.mpr ⟨hchain.left_of_append, fa, ra, ha, rfl⟩,
      Model.ofTable_eq_ok_iff.mpr ⟨hchain.right_of_append, fb, rb,
        hb.of_fewer_met (List.nil_subset _), rfl⟩⟩
  | ofDrafts =>
    obtain ⟨forest, hcheck, rfl⟩ := Model.ofDrafts_eq_ok_iff.mp h
    obtain ⟨fa, fb, ha, hb, rfl⟩ := Draft.checkRoots_of_append hcheck
    exact ⟨fa, fb, rfl, Model.ofDrafts_eq_ok_iff.mpr ⟨fa, ha, rfl⟩,
      Model.ofDrafts_eq_ok_iff.mpr ⟨fb, hb, rfl⟩⟩

end

/-! ## The analysis of some of the roots -/

theorem Evaluation.ofForest_append (rs : ActiveRules) (chain as bs : List Node) :
    ofForest rs chain (as ++ bs) = ofForest rs chain as ++ ofForest rs chain bs := by
  induction as with
  | nil => rfl
  | cons a as ih => rw [List.cons_append, ofForest, ofForest, ih, List.append_assoc]

theorem Model.length_walk_ofForest (file : String) (forest : List Node) (lines : List String)
    (s : List Suppression) :
    (Model.ofForest file forest lines s).walk.length = Tree.forestSize forest := by
  rw [Model.walk, Tree.walk_eq_visitsAmong, Tree.length_visitsAmong]
  rfl

/-- The standard rules find in two lists of roots what they find in each of them. -/
theorem Survey.ofModel_append {rs : ActiveRules} (hstandard : rs.Standard) (file : String)
    (lines : List String) (as bs : List Node) (s sa sb : List Suppression) :
    ofModel (Model.ofForest file (as ++ bs) lines s) rs =
      (ofModel (Model.ofForest file as lines sa) rs).append
        (ofModel (Model.ofForest file bs lines sb) rs) := by
  have hpart : ∀ (part : List Node) (s' : List Suppression),
      ofModel (Model.ofForest file part lines s') rs =
        ofEvaluations (Model.ofForest file (as ++ bs) lines s) (Evaluation.ofForest rs [] part)
          (Tree.forestSize part) := by
    intro part s'
    -- a measure is a matter of the lines alone
    have hmeasured : ∀ span, (Model.ofForest file part lines s').measured span =
        (Model.ofForest file (as ++ bs) lines s).measured span := fun _ => rfl
    rw [ofModel, Model.length_walk_ofForest]
    exact ofEvaluations_congr (fun e he => hstandard _ (Evaluation.of_mem_ofForest he).1)
      hmeasured _
  rw [hpart as sa, hpart bs sb, hpart (as ++ bs) s, append_ofEvaluations,
    Evaluation.ofForest_append, Tree.forestSize_append]

namespace Analysis

/-- One analysis and then another, if there are both. -/
def joined (x y : Except Number.LongInteger Analysis) : Except Number.LongInteger Analysis := do
  return (← x).append (← y)

theorem joined_eq_ok_iff {x y : Except Number.LongInteger Analysis} {whole : Analysis} :
    joined x y = .ok whole ↔ ∃ a b, x = .ok a ∧ y = .ok b ∧ whole = a.append b := by
  cases x <;> cases y <;> simp [joined, bind, Except.bind, pure, Except.pure, eq_comm]

/-- The analysis of two lists of roots is that of the one and then that of the other. -/
theorem ofModel_append {rs : ActiveRules} (hindexed : rs.Indexed) (hstandard : rs.Standard)
    (file : String) (lines : List String) (as bs : List Node) (s sa sb : List Suppression) :
    ofModel (Model.ofForest file (as ++ bs) lines s) rs =
      joined (ofModel (Model.ofForest file as lines sa) rs)
        (ofModel (Model.ofForest file bs lines sb) rs) := by
  rw [ofModel_eq _ hindexed, ofModel_eq _ hindexed, ofModel_eq _ hindexed,
    Survey.ofModel_append hstandard file lines as bs s sa sb]
  exact Survey.recorded_append _ _

end Analysis

theorem Catalog.standard_of_resolve {config : Configuration} {rs : ActiveRules}
    (h : Catalog.standard.resolve config = .ok rs) : rs.Standard :=
  fun r hr => ((Catalog.of_resolve h).2 r hr).1

/-- Two lists of roots that make an accepted unit make one each, with the same lines, and the rules
of a standard run find in the whole what they find in the first and then what they find in the
second; there is an analysis of the whole exactly when there is one of each. So where some of the
roots are exchanged for others, what is found in the rest stays as it was. -/
theorem top_level_trees_do_not_see_each_other {file : String} {lines : List String} {ρ : Type}
    {make : List ρ → List Suppression → Except (Stop Malformed) Model}
    (hmake : MakesUnits file lines make) (config : Configuration) (rs : ActiveRules)
    (hrs : Catalog.standard.resolve config = .ok rs) :
    (∀ as bs s m, make (as ++ bs) s = .ok m → ∀ sa sb, ∃ ma mb,
      make as sa = .ok ma ∧ make bs sb = .ok mb ∧
      ∀ whole, Analysis.ofModel m rs = .ok whole ↔
        ∃ a b, Analysis.ofModel ma rs = .ok a ∧ Analysis.ofModel mb rs = .ok b ∧
          whole.findings = a.findings ++ b.findings ∧ whole.errors = a.errors ++ b.errors ∧
          whole.visited = a.visited + b.visited) ∧
    ∀ before after old new s s' m m',
      make (before ++ old ++ after) s = .ok m → make (before ++ new ++ after) s' = .ok m' →
      ∃ mBefore mAfter mOld mNew, make before s = .ok mBefore ∧ make after s = .ok mAfter ∧
        make old s = .ok mOld ∧ make new s' = .ok mNew ∧
        Analysis.ofModel m rs = Analysis.joined (Analysis.joined (Analysis.ofModel mBefore rs)
          (Analysis.ofModel mOld rs)) (Analysis.ofModel mAfter rs) ∧
        Analysis.ofModel m' rs = Analysis.joined (Analysis.joined (Analysis.ofModel mBefore rs)
          (Analysis.ofModel mNew rs)) (Analysis.ofModel mAfter rs) := by
  have happend := Analysis.ofModel_append (Catalog.of_resolve hrs).1
    (Catalog.standard_of_resolve hrs) file lines
  refine ⟨?_, ?_⟩
  · intro as bs s m hm sa sb
    obtain ⟨fa, fb, rfl, ha, hb⟩ := hmake.of_append hm sa sb
    refine ⟨_, _, ha, hb, fun whole => ?_⟩
    rw [happend fa fb s sa sb, Analysis.joined_eq_ok_iff]
    cases whole
    simp only [Analysis.append, Analysis.mk.injEq]
  · intro before after old new s s' m m' hm hm'
    obtain ⟨fpart, fafter, rfl, hpart, hafter⟩ := hmake.of_append hm s s
    obtain ⟨fbefore, fold, heq, hbefore, hold⟩ := hmake.of_append hpart s s
    obtain ⟨fpart', fafter', rfl, hpart', hafter'⟩ := hmake.of_append hm' s s
    obtain ⟨fbefore', fnew, heq', hbefore', hnew⟩ := hmake.of_append hpart' s s'
    obtain rfl : fpart = fbefore ++ fold := congrArg Model.roots heq
    obtain rfl : fpart' = fbefore' ++ fnew := congrArg Model.roots heq'
    obtain rfl : fbefore = fbefore' :=
      congrArg Model.roots (Except.ok.inj (hbefore.symm.trans hbefore'))
    obtain rfl : fafter = fafter' :=
      congrArg Model.roots (Except.ok.inj (hafter.symm.trans hafter'))
    refine ⟨_, _, _, _, hbefore, hafter, hold, hnew, ?_, ?_⟩
    · rw [happend _ _ s s s, happend _ _ s s s]
    · rw [happend _ _ s' s s, happend _ _ s s s']

theorem filled_trees_do_not_see_each_other :
    ∃ config rs, Configuration.ofLayers .standard [] = .ok config ∧
      Catalog.standard.resolve config = .ok rs ∧
      ∃ m ma mb, Model.ofDrafts "A" filledDrafts [] [] = .ok m ∧
        Model.ofDrafts "A" (filledDrafts.take 1) [] [] = .ok ma ∧
        Model.ofDrafts "A" (filledDrafts.drop 1) [] [] = .ok mb ∧
        ∃ whole a b, Analysis.ofModel m rs = .ok whole ∧ Analysis.ofModel ma rs = .ok a ∧
          Analysis.ofModel mb rs = .ok b ∧ whole.findings = a.findings ++ b.findings := by
  obtain ⟨config, rs, hconfig, hrs⟩ := Catalog.exists_resolve_standard
  have hmade : ∃ m, Model.ofDrafts "A" (filledDrafts.take 1 ++ filledDrafts.drop 1) [] [] = .ok m ∧
      ∀ v ∈ Tree.visitsAmong [] m.roots,
        v.tree.span.startLine.natAbs < 10000 ∧ v.tree.span.startCol.natAbs < 10000 :=
    ⟨_, Model.ofDrafts_eq_ok_iff.mpr ⟨_, rfl, rfl⟩, by decide⟩
  obtain ⟨m, made, hnear⟩ := hmade
  obtain ⟨ma, mb, ha, hb, hwhole⟩ :=
    (top_level_trees_do_not_see_each_other (.ofDrafts) _ rs hrs).1 _ _ _ m made [] []
  obtain ⟨whole, hanalysis⟩ := (Analysis.exists_ofModel_iff (Catalog.of_resolve hrs).1).mpr
    (Survey.recordable_of_short (Catalog.standard_of_resolve hrs)
      (Model.isShort_of_near hnear))
  obtain ⟨a, b, hfirst, hsecond, hfindings, -⟩ := (hwhole whole).mp hanalysis
  exact ⟨config, rs, hconfig, hrs, m, ma, mb, made, ha, hb, whole, a, b, hanalysis, hfirst, hsecond,
    hfindings⟩

end ComponentLint

-- Reports do not depend on the order in which rules and suppressions are
-- gone through. Ties in report order are between findings of one rule and
-- span, of which one is kept, or between notes that say the same.
import ComponentLint.Proofs.ReportContents
import ComponentLint.Proofs.StableSort

namespace ComponentLint

namespace Finding

/-- The same findings, where those of one rule stand in the same order. -/
structure Rearranged (fs gs : List Finding) : Prop where
  perm : fs.Perm gs
  sameOrder : ∀ id, fs.filter (fun f => f.ruleId = id) = gs.filter fun f => f.ruleId = id

/-- A finding with its numbers written as integers, whatever they were written as. -/
def byValue (f : Finding) : Finding := { f with place := Place.ofSpan f.span }

theorem order_byValue (f g : Finding) : f.byValue.order g.byValue = f.order g := rfl

theorem message_eq_of_order_eq {a b : Finding} (h : a.order b = .eq) : a.message = b.message := by
  simp only [order, Ordering.then_eq_eq, Std.LawfulEqOrd.compare_eq_iff_eq] at h
  exact h.2.2.2.2.2.2.2

/-! ## Ties -/

/-- Where ties look the same, any rearrangement of a list shows the same of each class of ties. -/
theorem filter_tie_eq_of_perm {fs gs : List Finding} {look : Finding → Finding}
    (hlook : ∀ a b, (look a).order (look b) = a.order b) (hperm : fs.Perm gs)
    (hties : ∀ a ∈ fs, ∀ b ∈ fs, a.order b = .eq → look a = look b) (x : Finding) :
    (fs.map look).filter (fun a => x.order a == .eq) =
      (gs.map look).filter fun a => x.order a == .eq := by
  have hall : ∀ a ∈ (fs.map look).filter (fun a => x.order a == .eq),
      ∀ b ∈ (fs.map look).filter (fun a => x.order a == .eq), a = b := by
    intro a ha b hb
    obtain ⟨hmapped, hxa⟩ := List.mem_filter.mp ha
    obtain ⟨hmapped', hxb⟩ := List.mem_filter.mp hb
    obtain ⟨f, hf, rfl⟩ := List.mem_map.mp hmapped
    obtain ⟨g, hg, rfl⟩ := List.mem_map.mp hmapped'
    refine hties f hf g hg ?_
    rw [← hlook]
    exact Std.TransCmp.eq_trans (Std.OrientedCmp.eq_symm (beq_iff_eq.mp hxa)) (beq_iff_eq.mp hxb)
  have hfiltered := (hperm.map look).filter fun a => x.order a == .eq
  have hany : ∀ items : List Finding, items.Pairwise fun _ _ => True :=
    fun items => List.pairwise_of_forall fun _ _ => trivial
  refine hfiltered.eq_of_pairwise (fun a b ha hb _ _ => ?_) (hany _) (hany _)
  exact hall a ha b (hfiltered.mem_iff.mpr hb)

end Finding

namespace Report

open Finding

/-- The wording of a note tells why the suppression is idle: at its thirteenth letter. -/
theorem idleWords_unknownRule_ne (s t : Suppression) :
    idleWords s .unknownRule ≠ idleWords t .noMatch := by
  intro h
  have hcut := congrArg (fun text : String => text.toList.take 13) h
  unfold idleWords at hcut
  dsimp only at hcut
  simp only [String.append_assoc, String.toList_append] at hcut
  rw [List.take_append_of_le_length (by decide), List.take_append_of_le_length (by decide)] at hcut
  revert hcut
  decide

theorem why_eq_of_idleWords_eq {s t : Suppression} {why why' : Idle}
    (h : idleWords s why = idleWords t why') : why = why' := by
  cases why with
  | unknownRule =>
    cases why' with
    | unknownRule => rfl
    | noMatch => exact absurd h (idleWords_unknownRule_ne s t)
  | noMatch =>
    cases why' with
    | unknownRule => exact absurd h.symm (idleWords_unknownRule_ne t s)
    | noMatch => rfl

/-- Notes that tie say the same about the same place. -/
theorem byValue_eq_of_mem_idleNotes {rules : Option ActiveRules} {idle : List Suppression}
    {f g : Finding} (hf : f ∈ idleNotes rules idle) (hg : g ∈ idleNotes rules idle)
    (htie : f.order g = .eq) : f.byValue = g.byValue := by
  obtain ⟨severity, s, why, hseverity, -, rfl⟩ := of_mem_idleNotes hf
  obtain ⟨severity', t, why', hseverity', -, rfl⟩ := of_mem_idleNotes hg
  have hmessage : idleWords s why = idleWords t why' := message_eq_of_order_eq htie
  have hspan := (Prod.mk.inj (key_eq_of_order_eq htie)).2
  obtain rfl : severity = severity' := Option.some.inj (hseverity.symm.trans hseverity')
  obtain rfl := why_eq_of_idleWords_eq hmessage
  simp only [byValue, hspan]
  simp only [idleNote, hmessage]

/-! ## The first findings of a rearrangement -/

theorem find?_key_eq_of_rearranged {fs gs : List Finding} (h : Rearranged fs gs)
    (k : String × Span) : fs.find? (fun f => f.key == k) = gs.find? fun f => f.key == k := by
  -- A finding with the key is one of the rule, so the search may be among these alone.
  have hrule : ∀ l : List Finding, l.find? (fun f => f.key == k) =
      (l.filter fun f => f.ruleId = k.1).find? fun f => f.key == k := by
    intro l
    rw [List.find?_filter]
    congr
    funext f
    by_cases hkey : f.key = k
    · simp [← hkey, key]
    · simp [hkey]
  rw [hrule fs, hrule gs, h.sameOrder]

theorem firstOccurrences_perm_of_rearranged {fs gs : List Finding} (h : Rearranged fs gs) :
    (firstOccurrences [] fs).Perm (firstOccurrences [] gs) := by
  refine (firstOccurrences_perm fs).trans (List.Perm.trans ?_ (firstOccurrences_perm gs).symm)
  rw [List.perm_ext_iff_of_nodup (nodup_firsts fs) (nodup_firsts gs)]
  intro f
  rw [mem_firsts_iff, mem_firsts_iff, find?_key_eq_of_rearranged h]

/-! ## The report of a rearrangement -/

section

variable {findings findings' : List Finding} {suppressions suppressions' : List Suppression}
  (rules : Option ActiveRules) (hfindings : Rearranged findings findings')
  (hsuppressions : suppressions.Perm suppressions')
include hfindings hsuppressions

theorem kept_perm : (kept findings suppressions).Perm (kept findings' suppressions') := by
  unfold kept
  simp only [hsuppressions.mem_iff]
  exact (firstOccurrences_perm_of_rearranged hfindings).filter _

theorem notes_perm :
    (idleNotes rules (unmatched findings suppressions)).Perm
      (idleNotes rules (unmatched findings' suppressions')) := by
  have hunmatched : (unmatched findings suppressions).Perm
      (unmatched findings' suppressions') := by
    unfold unmatched
    simp only [hfindings.perm.mem_iff]
    exact hsuppressions.filter _
  unfold idleNotes
  split
  · exact .nil
  · exact (hunmatched.filterMap _).map _

theorem noted_of_rearranged :
    Noted findings suppressions rules ↔ Noted findings' suppressions' rules := by
  unfold Noted
  simp only [hfindings.perm.mem_iff, hsuppressions.mem_iff]

theorem listing_perm :
    (listing findings suppressions rules).Perm (listing findings' suppressions' rules) := by
  rw [listing_eq, listing_eq]
  exact (kept_perm hfindings hsuppressions).append (notes_perm rules hfindings hsuppressions)

/-- What is listed is put in the same order, in the eyes of whoever cannot tell notes that tie
apart. -/
theorem map_mergeSort_listing_eq (look : Finding → Finding)
    (hlook : ∀ a b, (look a).order (look b) = a.order b)
    (hnotes : ∀ a ∈ idleNotes rules (unmatched findings suppressions),
      ∀ b ∈ idleNotes rules (unmatched findings suppressions),
      a.order b = .eq → look a = look b) :
    ((listing findings suppressions rules).mergeSort fun a b => (order a b).isLE).map look =
      ((listing findings' suppressions' rules).mergeSort fun a b => (order a b).isLE).map look := by
  have hkept : ∀ a ∈ kept findings suppressions, ∀ b ∈ kept findings suppressions,
      a.order b = .eq → look a = look b := by
    intro a ha b hb htie
    have hnodup := (firstOccurrences_keys [] findings).2
    rw [List.inj_on_of_nodup_map hnodup (List.mem_filter.mp ha).1 (List.mem_filter.mp hb).1
      (key_eq_of_order_eq htie)]
  have hmap : ∀ l : List Finding, (l.mergeSort fun a b => (order a b).isLE).map look =
      (l.map look).mergeSort fun a b => (order a b).isLE := by
    intro l
    refine List.map_mergeSort fun a _ b _ => ?_
    rw [hlook]
  rw [hmap, hmap]
  refine mergeSort_eq_of_filter_tie_eq order fun x => ?_
  -- A kept finding comes before the notes it ties with on both sides.
  rw [listing_eq, listing_eq, List.map_append, List.map_append, List.filter_append,
    List.filter_append, filter_tie_eq_of_perm hlook (kept_perm hfindings hsuppressions) hkept x,
    filter_tie_eq_of_perm hlook (notes_perm rules hfindings hsuppressions) hnotes x]

end

/-- Reports on the same findings under the same suppressions are the same, in whatever order the
suppressions come and the rules take turns: there is one for both or for neither, and both show the
same sequence. A number is compared by its value here; where all lines and columns of suppressions
are written as integers, the findings are the very same. -/
theorem report_does_not_depend_on_interleaving (findings findings' : List Finding)
    (suppressions suppressions' : List Suppression) (errors errors' : List RuleError)
    (rules : Option ActiveRules) (hfindings : Rearranged findings findings')
    (hsuppressions : suppressions.Perm suppressions') :
    ((∃ r, aggregate findings suppressions errors rules = .ok r) ↔
      ∃ r, aggregate findings' suppressions' errors' rules = .ok r) ∧
    ∀ r r', aggregate findings suppressions errors rules = .ok r →
      aggregate findings' suppressions' errors' rules = .ok r' →
      r.findings.map byValue = r'.findings.map byValue ∧
      ((∀ s ∈ suppressions, s.line = .int s.line.value ∧ s.column = .int s.column.value) →
        r.findings = r'.findings) := by
  have hperm := listing_perm rules hfindings hsuppressions
  have hnoted := noted_of_rearranged rules hfindings hsuppressions
  refine ⟨?_, fun r r' hr hr' => ?_⟩
  · simp only [aggregate_eq_ok_iff, sort_eq_ok_iff, ← noted_iff, hnoted, hperm.mem_iff]
    constructor
    · rintro ⟨r, htold, ⟨hknown, -⟩, -⟩
      exact ⟨⟨_, errors'⟩, htold, ⟨hknown, rfl⟩, rfl⟩
    · rintro ⟨r, htold, ⟨hknown, -⟩, -⟩
      exact ⟨⟨_, errors⟩, htold, ⟨hknown, rfl⟩, rfl⟩
  · obtain ⟨-, hsorted⟩ := sort_eq_ok_iff.mp (aggregate_eq_ok_iff.mp hr).2.1
    obtain ⟨-, hsorted'⟩ := sort_eq_ok_iff.mp (aggregate_eq_ok_iff.mp hr').2.1
    rw [hsorted, hsorted']
    refine ⟨map_mergeSort_listing_eq rules hfindings hsuppressions byValue order_byValue
      fun a ha b hb => byValue_eq_of_mem_idleNotes ha hb, fun hintegers => ?_⟩
    have hself : ∀ a ∈ idleNotes rules (unmatched findings suppressions), a.byValue = a := by
      intro a ha
      obtain ⟨severity, s, why, -, hs, rfl⟩ := of_mem_idleNotes ha
      obtain ⟨hline, hcolumn⟩ := hintegers s (List.mem_filter.mp hs).1
      simp only [byValue, Finding.span, idleNote, Place.point, Place.span, Place.ofSpan, ← hline,
        ← hcolumn]
    have hnotes : ∀ a ∈ idleNotes rules (unmatched findings suppressions),
        ∀ b ∈ idleNotes rules (unmatched findings suppressions), a.order b = .eq → a = b := by
      intro a ha b hb htie
      rw [← hself a ha, ← hself b hb]
      exact byValue_eq_of_mem_idleNotes ha hb htie
    simpa using map_mergeSort_listing_eq rules hfindings hsuppressions id (fun _ _ => rfl) hnotes

/-- Findings of two rules on one line, and the same with the rules in the other order. -/
def twoRules : List Finding × List Finding :=
  let deep : Finding := ⟨"nesting-depth", "info", .ofSpan ⟨"A", 3, 1, 9, 2⟩, "too deep", none⟩
  let deeper : Finding := { deep with message := "far too deep" }
  let unstable : Finding :=
    ⟨"stable-identity", "warning", .ofSpan ⟨"A", 3, 5, 3, 9⟩, "no identity", none⟩
  ([deep, deeper, unstable], [unstable, deep, deeper])

theorem report_does_not_depend_on_twoRules :
    ∃ r r', aggregate twoRules.1 lineSuppressions [] none = .ok r ∧
      aggregate twoRules.2 lineSuppressions.reverse [] none = .ok r' ∧
      r.findings = r'.findings := by
  have hfindings : Rearranged twoRules.1 twoRules.2 := by
    refine ⟨by decide, fun id => ?_⟩
    by_cases hdeep : "nesting-depth" = id
    · subst hdeep
      decide
    · by_cases hunstable : "stable-identity" = id
      · subst hunstable
        decide
      · simp [twoRules, hdeep, hunstable]
  have hsuppressions : lineSuppressions.Perm lineSuppressions.reverse :=
    (List.reverse_perm _).symm
  obtain ⟨hiff, hsame⟩ := report_does_not_depend_on_interleaving twoRules.1 twoRules.2
    lineSuppressions lineSuppressions.reverse [] [] none hfindings hsuppressions
  obtain ⟨r, hr, -⟩ := exists_aggregate twoRules.1 lineSuppressions none [] (by decide) (by simp)
    (noted_lineSuppressions twoRules.1 none)
  obtain ⟨r', hr'⟩ := hiff.mp ⟨r, hr⟩
  exact ⟨r, r', hr, hr', (hsame r r' hr hr').2 (by decide)⟩

end Report

end ComponentLint

-- Submitted trees as tables. A forest of submitted nodes unfolds to a table
-- whose rows stand in pre-order, each tree in a block of its own, so the loop
-- over the agenda of the table is a recursion over the forest: it finds the
-- same first defect, and notes the same nodes when there is none.
import ComponentLint.Proofs.Links

namespace ComponentLint

/-! ## The check of a forest as a recursion -/

namespace Draft

mutual

/-- Checks a submitted tree from the root down. -/
def check (file : String) : Draft → Except Defect Node
  | .node e ts => do
    let e' ← e.check file (ts.map fun t => t.value.heading)
    let ts' ← checkAll file ts
    return .node e' ts'

/-- Checks submitted trees one after the other. -/
def checkAll (file : String) : List Draft → Except Defect (List Node)
  | [] => .ok []
  | t :: ts => do
    let t' ← check file t
    let ts' ← checkAll file ts
    return t' :: ts'

end

/-- Checks the top-level trees of a unit. -/
def checkRoots (file : String) (roots : List Draft) : Except Defect (List Node) := do
  checkSiblings none (roots.map fun t => t.value.heading)
  checkAll file roots

theorem checkAll_cons_eq_ok_iff {file : String} {e : Entry String} {ts us : List Draft}
    {forest : List Node} :
    checkAll file (.node e ts :: us) = .ok forest ↔
      ∃ e' below after, e.check file (ts.map fun t => t.value.heading) = .ok e' ∧
        checkAll file ts = .ok below ∧ checkAll file us = .ok after ∧
        forest = .node e' below :: after := by
  simp only [checkAll, check, bind_eq_ok_iff]
  constructor
  · rintro ⟨n, ⟨e', passes, below, hts, hn⟩, after, hus, hforest⟩
    cases hn
    cases hforest
    exact ⟨e', below, after, passes, hts, hus, rfl⟩
  · rintro ⟨e', below, after, passes, hts, hus, rfl⟩
    exact ⟨_, ⟨e', passes, below, hts, rfl⟩, after, hus, rfl⟩

theorem checkAll_cons_eq_error_iff {file : String} {e : Entry String} {ts us : List Draft}
    {d : Defect} :
    checkAll file (.node e ts :: us) = .error d ↔
      e.check file (ts.map fun t => t.value.heading) = .error d ∨
      ∃ e', e.check file (ts.map fun t => t.value.heading) = .ok e' ∧
        (checkAll file ts = .error d ∨
          ∃ below, checkAll file ts = .ok below ∧ checkAll file us = .error d) := by
  simp only [checkAll, check]
  cases e.check file (ts.map fun t => t.value.heading) <;> cases checkAll file ts <;>
    cases checkAll file us <;> simp [bind, Except.bind, pure, Except.pure]

theorem length_rowsAmong (first : Nat) (ds : List Draft) :
    (rowsAmong first ds).length = Tree.forestSize ds := by
  induction ds using Tree.forest_induction generalizing first with
  | nil => rfl
  | cons e ts us ihBelow ihBeside =>
    rw [rowsAmong, rows, List.length_append, List.length_cons, ihBelow, ihBeside, Tree.forestSize,
      Tree.size]

end Draft

namespace NodeTable

variable {roots : List Draft} {file : String}

/-- The rows of trees whose nodes are numbered from `first` on. -/
def rowsOf (roots : List Draft) (first : Nat) (ds : List Draft) :
    List (Fin (ofDrafts roots).size) :=
  (Draft.numbers first ds).filterMap (numbered? _)

/-- The nodes of the trees make up the rows from `first` on. -/
def Holds (roots : List Draft) (first : Nat) (ds : List Draft) : Prop :=
  ∃ before after, Draft.rowsAmong 0 roots = before ++ Draft.rowsAmong first ds ++ after ∧
    before.length = first

namespace Holds

variable {first : Nat} {e : Entry String} {ts us : List Draft}

theorem below (h : Holds roots first (.node e ts :: us)) : Holds roots (first + 1) ts := by
  obtain ⟨before, after, hrows, rfl⟩ := h
  refine ⟨before ++ [(e, Draft.numbers (before.length + 1) ts)],
    Draft.rowsAmong (before.length + Tree.size (.node e ts)) us ++ after, ?_, by simp⟩
  simpa [Draft.rowsAmong, Draft.rows] using hrows

theorem beside (h : Holds roots first (.node e ts :: us)) :
    Holds roots (first + 1 + Tree.forestSize ts) us := by
  obtain ⟨before, after, hrows, rfl⟩ := h
  have hsize : before.length + Tree.size (.node e ts) =
      before.length + 1 + Tree.forestSize ts := by
    rw [Tree.size]
    omega
  refine ⟨before ++ Draft.rows before.length (.node e ts), after, ?_, ?_⟩
  · rw [← hsize]
    simpa [Draft.rowsAmong] using hrows
  · rw [Draft.rows, List.length_append, List.length_cons, Draft.length_rowsAmong]
    omega

/-- The first tree stands in the row with the first number. -/
theorem head (h : Holds roots first (.node e ts :: us)) :
    ∃ i : Fin (ofDrafts roots).size, i.val = first ∧
      (ofDrafts roots).row i = ⟨e, rowsOf roots (first + 1) ts⟩ ∧
      rowsOf roots first (.node e ts :: us) =
        i :: rowsOf roots (first + 1 + Tree.forestSize ts) us := by
  obtain ⟨before, after, hrows, rfl⟩ := h
  have hat : (Draft.rowsAmong 0 roots)[before.length]? =
      some (e, Draft.numbers (before.length + 1) ts) := by
    rw [hrows]
    simp [Draft.rowsAmong, Draft.rows]
  obtain ⟨hlt, hget⟩ := List.getElem?_eq_some_iff.mp hat
  have hsize : before.length + Tree.size (.node e ts) =
      before.length + 1 + Tree.forestSize ts := by
    rw [Tree.size]
    omega
  refine ⟨⟨before.length, hlt⟩, rfl, ?_, ?_⟩
  · have hentry : (Draft.rowsAmong 0 roots).get ⟨before.length, hlt⟩ =
        (e, Draft.numbers (before.length + 1) ts) := hget
    unfold ofDrafts rowsOf
    dsimp only
    rw [hentry]
    rfl
  · have hnumber : numbered? (ofDrafts roots).size before.length = some ⟨before.length, hlt⟩ :=
      dif_pos hlt
    rw [rowsOf, Draft.numbers, List.filterMap_cons_some hnumber, hsize, rowsOf]

theorem headings (h : Holds roots first us) :
    (rowsOf roots first us).map (ofDrafts roots).heading = us.map fun t => t.value.heading := by
  induction us generalizing first with
  | nil => rfl
  | cons u us ih =>
    obtain ⟨e, ts⟩ := u
    obtain ⟨i, -, hrow, hrows⟩ := h.head
    rw [hrows, List.map_cons, List.map_cons, ih h.beside, heading, hrow]
    rfl

end Holds

/-! ## The loop and the recursion agree -/

theorem follows_of_checkAll {ds : List Draft} {first : Nat}
    {met : List (Fin (ofDrafts roots).size)} {forest : List Node} (holds : Holds roots first ds)
    (hmet : ∀ i ∈ met, i.val < first) (h : Draft.checkAll file ds = .ok forest) :
    ∃ rows, (ofDrafts roots).Follows file (rowsOf roots first ds) met forest rows ∧
      ∀ i ∈ rows, i.val < first + Tree.forestSize ds := by
  induction ds using Tree.forest_induction generalizing first met forest with
  | nil =>
    cases h
    exact ⟨[], .nil, by simp⟩
  | cons e ts us ihBelow ihBeside =>
    obtain ⟨e', below, after, passes, hts, hus, rfl⟩ := Draft.checkAll_cons_eq_ok_iff.mp h
    obtain ⟨i, rfl, hrow, hrows⟩ := holds.head
    have hmetBelow : ∀ j ∈ met ++ [i], j.val < i.val + 1 := by
      intro j hj
      rcases List.mem_append.mp hj with hj | hj
      · exact Nat.lt_succ_of_lt (hmet j hj)
      · rw [List.mem_singleton.mp hj]
        exact Nat.lt_succ_self _
    obtain ⟨rowsBelow, down, hbelow⟩ := ihBelow holds.below hmetBelow hts
    have hmetBeside : ∀ j ∈ met ++ [i] ++ rowsBelow, j.val < i.val + 1 + Tree.forestSize ts := by
      intro j hj
      rcases List.mem_append.mp hj with hj | hj
      · exact Nat.lt_add_right _ (hmetBelow j hj)
      · exact hbelow j hj
    obtain ⟨rowsAfter, along, hafter⟩ := ihBeside holds.beside hmetBeside hus
    have hchecked : ((ofDrafts roots).row i).entry.check file ((ofDrafts roots).headingsBelow i) =
        .ok e' := by
      rw [headingsBelow, hrow, holds.below.headings]
      exact passes
    refine ⟨i :: rowsBelow ++ rowsAfter, ?_, ?_⟩
    · rw [hrows]
      refine .cons (fun hi => Nat.lt_irrefl _ (hmet i hi)) hchecked ?_ along
      rw [hrow]
      exact down
    · intro j hj
      have hsize : i.val + Tree.forestSize (.node e ts :: us) =
          i.val + 1 + Tree.forestSize ts + Tree.forestSize us := by
        rw [Tree.forestSize, Tree.size]
        omega
      rw [hsize]
      rcases List.mem_append.mp hj with hj | hj
      · rcases List.mem_cons.mp hj with rfl | hj
        · omega
        · exact Nat.lt_add_right _ (hbelow j hj)
      · exact hafter j hj

theorem checkAgenda_of_checkAll_error {ds : List Draft} {first : Nat}
    {reg : Register (ofDrafts roots).size} {d : Defect} (holds : Holds roots first ds)
    (hmet : ∀ i ∈ reg.rows, i.val < first) (h : Draft.checkAll file ds = .error d)
    (parent : Option Nat) (rest : List (Fin (ofDrafts roots).size × Option Nat)) :
    (ofDrafts roots).checkAgenda file
      ((ofDrafts roots).agendaFor parent (rowsOf roots first ds) ++ rest) reg = .error d := by
  induction ds using Tree.forest_induction generalizing first reg parent rest with
  | nil => cases h
  | cons e ts us ihBelow ihBeside =>
    obtain ⟨i, rfl, hrow, hrows⟩ := holds.head
    have hnew : ¬ reg.has i = true := by
      rw [Register.has_eq_true_iff]
      exact fun hi => Nat.lt_irrefl _ (hmet i hi)
    have hheadings : (ofDrafts roots).headingsBelow i = ts.map fun t => t.value.heading := by
      rw [headingsBelow, hrow, holds.below.headings]
    have hentry : ((ofDrafts roots).row i).entry = e := by rw [hrow]
    have hchildren : ((ofDrafts roots).row i).children = rowsOf roots (i.val + 1) ts := by rw [hrow]
    rw [hrows, agendaFor, List.map_cons, List.cons_append, ← agendaFor, checkAgenda, dif_neg hnew,
      hheadings, hentry]
    rcases Draft.checkAll_cons_eq_error_iff.mp h with hcheck | ⟨e', hcheck, hbelow⟩
    · rw [hcheck]
    rw [hcheck]
    dsimp only
    rw [hchildren]
    have hmetBelow : ∀ j ∈ (reg.add i parent e' (rowsOf roots (i.val + 1) ts).length).rows,
        j.val < i.val + 1 := by
      intro j hj
      rw [Register.rows_add] at hj
      rcases List.mem_append.mp hj with hj | hj
      · exact Nat.lt_succ_of_lt (hmet j hj)
      · rw [List.mem_singleton.mp hj]
        exact Nat.lt_succ_self _
    rcases hbelow with hts | ⟨below, hts, hus⟩
    · exact ihBelow holds.below hmetBelow hts _ _
    · obtain ⟨rowsBelow, down, hlt⟩ := follows_of_checkAll holds.below hmetBelow hts
      rw [down.checkAgenda_eq rfl]
      refine ihBeside holds.beside ?_ hus _ _
      intro j hj
      rw [Register.rows_extend down.length_rows] at hj
      rcases List.mem_append.mp hj with hj | hj
      · exact Nat.lt_add_right _ (hmetBelow j hj)
      · exact hlt j hj

theorem holds_roots (roots : List Draft) : Holds roots 0 roots :=
  ⟨[], [], by rw [List.nil_append, List.append_nil], rfl⟩

theorem headings_rootsOf (roots : List Draft) :
    (rootsOf roots).map (ofDrafts roots).heading = roots.map fun t => t.value.heading :=
  (holds_roots roots).headings

/-- The loop finds the defect that the recursion finds. -/
theorem check_ofDrafts_of_error {d : Defect} (h : Draft.checkRoots file roots = .error d) :
    (ofDrafts roots).check file (rootsOf roots) = .error d := by
  unfold check
  rw [headings_rootsOf]
  rcases bind_eq_error_iff.mp h with hsiblings | ⟨⟨⟩, hsiblings, hall⟩
  · rw [hsiblings]
    rfl
  · have hmet : ∀ i ∈ ({} : Register (ofDrafts roots).size).rows, i.val < 0 :=
      fun _ hi => absurd hi List.not_mem_nil
    have hagenda := checkAgenda_of_checkAll_error (holds_roots roots) hmet hall none []
    rw [List.append_nil] at hagenda
    rw [hsiblings]
    exact hagenda

/-- When the recursion makes a forest, following the roots goes well and makes the same one. -/
theorem follows_of_checkRoots {forest : List Node}
    (h : Draft.checkRoots file roots = .ok forest) :
    (((rootsOf roots).map (ofDrafts roots).heading).IsChain fun a b => Apart a.span b.span) ∧
      ∃ rows, (ofDrafts roots).Follows file (rootsOf roots) [] forest rows := by
  obtain ⟨⟨⟩, hsiblings, hall⟩ := bind_eq_ok_iff.mp h
  obtain ⟨rows, hfollows, -⟩ :=
    follows_of_checkAll (holds_roots roots) (fun _ hi => absurd hi List.not_mem_nil) hall
  rw [headings_rootsOf]
  exact ⟨(checkSiblings_eq_ok_iff _ _).mp hsiblings, rows, hfollows⟩

end NodeTable

namespace Model

variable {file : String} {roots : List Draft} {lines : List String}
  {suppressions : List Suppression} {m : Model}

/-- The unit of submitted trees is that of the forest which the recursion over them makes. -/
theorem ofDrafts_eq (file : String) (roots : List Draft) (lines : List String)
    (suppressions : List Suppression) :
    ofDrafts file roots lines suppressions =
      ((Draft.checkRoots file roots).mapError Defect.raised).map
        fun forest => ofForest file forest lines suppressions := by
  cases h : Draft.checkRoots file roots with
  | error d => exact ofTable_eq_error_iff.mpr ⟨d, NodeTable.check_ofDrafts_of_error h, rfl⟩
  | ok forest =>
    obtain ⟨hchain, rows, hfollows⟩ := NodeTable.follows_of_checkRoots h
    exact ofTable_eq_ok_iff.mpr ⟨hchain, forest, rows, hfollows, rfl⟩

theorem ofDrafts_eq_ok_iff :
    ofDrafts file roots lines suppressions = .ok m ↔
      ∃ forest, Draft.checkRoots file roots = .ok forest ∧
        m = ofForest file forest lines suppressions := by
  rw [ofDrafts_eq]
  cases Draft.checkRoots file roots <;> simp [Except.map, eq_comm]

theorem ofDrafts_eq_error_iff {stop : Stop Malformed} :
    ofDrafts file roots lines suppressions = .error stop ↔
      ∃ d, Draft.checkRoots file roots = .error d ∧ stop = d.raised := by
  rw [ofDrafts_eq]
  cases Draft.checkRoots file roots <;> simp [Except.map, eq_comm]

end Model

end ComponentLint

-- The spellings of a list of names. A list of texts and one text in which they
-- are joined by commas mean the same names, with blanks around the commas or
-- without. Once a value is in the domain of its parameter, putting it there
-- again changes nothing.
import ComponentLint.Proofs.ParameterDomains
import Mathlib.Data.List.Forall2

namespace ComponentLint

open ComponentLint.Text

/-! ## Blanks around a text -/

theorem dropWhile_isBlank_eq_nil_iff (cs : List Char) :
    cs.dropWhile isBlank = [] ↔ allBlank cs = true := by
  simp [List.dropWhile_eq_nil_iff, allBlank]

theorem trimEnd_append_blank {after : List Char} (h : allBlank after = true) (cs : List Char) :
    trimEnd (cs ++ after) = trimEnd cs := by
  have hreverse : allBlank after.reverse = true := by rwa [allBlank, List.all_reverse]
  unfold trimEnd
  rw [List.reverse_append, List.dropWhile_append, (dropWhile_isBlank_eq_nil_iff _).mpr hreverse]
  rfl

theorem trim_append_blank {after : List Char} (h : allBlank after = true) (cs : List Char) :
    trim (cs ++ after) = trim cs := by
  unfold trim
  rw [List.dropWhile_append]
  cases hcs : cs.dropWhile isBlank with
  | nil =>
    rw [(dropWhile_isBlank_eq_nil_iff _).mpr h]
    rfl
  | cons c rest => exact trimEnd_append_blank h (c :: rest)

theorem trim_blank_append {before : List Char} (h : allBlank before = true) (cs : List Char) :
    trim (before ++ cs) = trim cs := by
  unfold trim
  rw [List.dropWhile_append, (dropWhile_isBlank_eq_nil_iff _).mpr h]
  rfl

/-- Nothing is left exactly of what is blank. -/
theorem trim_eq_nil_iff (cs : List Char) : trim cs = [] ↔ allBlank cs = true := by
  constructor
  · intro h
    unfold trim at h
    rw [trimEnd_eq_rdropWhile, List.rdropWhile_eq_nil_iff] at h
    cases hcs : cs.dropWhile isBlank with
    | nil => exact (dropWhile_isBlank_eq_nil_iff cs).mp hcs
    | cons c rest =>
      -- What is left after the first blanks does not start with one.
      have hstart := List.head?_dropWhile_not isBlank cs
      rw [hcs] at h hstart
      exact absurd (h c List.mem_cons_self) (Bool.eq_false_iff.mp hstart)
  · intro h
    exact trim_append_blank h []

theorem isEmpty_trimText (s : String) : (trimText s).isEmpty = allBlank s.toList := by
  rw [Bool.eq_iff_iff, ← trim_eq_nil_iff, String.isEmpty_iff, trimText, ← String.toList_inj,
    String.toList_ofList]
  rfl

/-- The names among some texts are those which are not blank, without the blanks around them. -/
theorem cleanNames_eq (texts : List String) :
    cleanNames texts = (texts.filter fun text => !allBlank text.toList).map trimText := by
  have hkept : (fun name => !name.isEmpty) ∘ trimText = fun text => !allBlank text.toList := by
    funext text
    rw [Function.comp_apply, isEmpty_trimText]
  rw [cleanNames, List.filter_map, hkept]

/-! ## Texts joined by commas -/

/-- A text with blanks around it, or with none. -/
def Padded (text piece : String) : Prop :=
  ∃ before after : String, allBlank before.toList = true ∧ allBlank after.toList = true ∧
    piece = before ++ text ++ after

theorem padded_self (text : String) : Padded text text :=
  ⟨"", "", rfl, rfl, by simp⟩

theorem Padded.trimText_eq {text piece : String} (h : Padded text piece) :
    trimText piece = trimText text := by
  obtain ⟨before, after, hbefore, hafter, rfl⟩ := h
  unfold trimText
  rw [String.toList_append, String.toList_append, trim_append_blank hafter,
    trim_blank_append hbefore]

/-- A comma is no blank, so there is none around a text. -/
theorem Padded.comma_notMem {text piece : String} (h : Padded text piece)
    (htext : ',' ∉ text.toList) : ',' ∉ piece.toList := by
  obtain ⟨before, after, hbefore, hafter, rfl⟩ := h
  have hblank : ∀ blanks : List Char, allBlank blanks = true → ',' ∉ blanks := by
    intro blanks hblanks hmem
    exact absurd (List.all_eq_true.mp hblanks ',' hmem) (by decide)
  simp only [String.toList_append, List.mem_append, not_or]
  exact ⟨⟨hblank _ hbefore, htext⟩, hblank _ hafter⟩

/-- Some texts joined by commas, with blanks around each of them or with none. -/
def JoinedByCommas (texts : List String) (joined : String) : Prop :=
  ∃ pieces, List.Forall₂ Padded texts pieces ∧ joined = ",".intercalate pieces

theorem joinedByCommas_intercalate (texts : List String) :
    JoinedByCommas texts (",".intercalate texts) :=
  ⟨texts, List.forall₂_same.mpr fun text _ => padded_self text, rfl⟩

theorem splitNames_intercalate {pieces : List String}
    (h : ∀ piece ∈ pieces, ',' ∉ piece.toList) :
    splitNames (",".intercalate pieces) = cleanNames pieces := by
  cases pieces with
  | nil => decide
  | cons piece pieces =>
    have hcomma : ",".toList = [','] := rfl
    unfold splitNames
    rw [String.toList_intercalate, hcomma, List.splitOn_intercalate]
    · simp [Function.comp_def]
    · simpa using h
    · simp

/-- Texts without commas are found again as names in any text that joins them by commas. -/
theorem JoinedByCommas.splitNames_eq {texts : List String} {joined : String}
    (h : JoinedByCommas texts joined) (hcomma : ∀ text ∈ texts, ',' ∉ text.toList) :
    splitNames joined = cleanNames texts := by
  obtain ⟨pieces, hpadded, rfl⟩ := h
  have hpieces : (∀ piece ∈ pieces, ',' ∉ piece.toList) ∧
      pieces.map trimText = texts.map trimText := by
    induction hpadded with
    | nil => simp
    | cons hpad _ ih =>
      obtain ⟨hcomma, hrest⟩ := List.forall_mem_cons.mp hcomma
      obtain ⟨ihComma, ihTrim⟩ := ih hrest
      refine ⟨List.forall_mem_cons.mpr ⟨hpad.comma_notMem hcomma, ihComma⟩, ?_⟩
      rw [List.map_cons, List.map_cons, hpad.trimText_eq, ihTrim]
  rw [splitNames_intercalate hpieces.1, cleanNames, hpieces.2, cleanNames]

/-- What a value becomes in the domain of a parameter lies there, and stays as it is when it is put
there again, like all that lies there. For a list of names, texts without commas mean those of them
that are not blank, without the blanks around them, whether they are listed or joined by commas,
with blanks around the commas or without. -/
theorem coerced_values_stay_as_they_are (p : Parameter) :
    (∀ v w, p.coerce v = .ok w → p.Holds w ∧ p.coerce w = .ok w) ∧
    (∀ w, p.Holds w → p.coerce w = .ok w) ∧
    (p.domain = .names → ∀ texts : List String, (∀ text ∈ texts, ',' ∉ text.toList) →
      let names := (texts.filter fun text => !allBlank text.toList).map trimText
      p.coerce (.list (texts.map .str)) = .ok (namesValue names) ∧
      p.coerce (.tuple (texts.map .str)) = .ok (namesValue names) ∧
      p.coerce (.str (",".intercalate texts)) = .ok (namesValue names) ∧
      ∀ joined, JoinedByCommas texts joined → p.coerce (.str joined) = .ok (namesValue names)) := by
  refine ⟨?_, fun w => Parameter.coerce_eq_self_iff.mpr, ?_⟩
  · intro v w h
    have hholds := Parameter.holds_of_coerce h
    exact ⟨hholds, Parameter.coerce_eq_self_iff.mpr hholds⟩
  · intro hp texts hcomma names
    have hnames : cleanNames texts = names := cleanNames_eq texts
    have hlisted : (allTexts? (texts.map Value.str)).map cleanNames = some names := by
      rw [allTexts?_map_str, Option.map_some, hnames]
    have hjoined : ∀ joined, JoinedByCommas texts joined →
        p.coerce (.str joined) = .ok (namesValue names) := by
      intro joined h
      refine Parameter.coerce_of_namesOf? hp ?_
      exact congrArg some ((h.splitNames_eq hcomma).trans hnames)
    refine ⟨Parameter.coerce_of_namesOf? hp hlisted, Parameter.coerce_of_namesOf? hp hlisted, ?_,
      hjoined⟩
    exact hjoined _ (joinedByCommas_intercalate texts)

/-- A parameter that lists the names of repeating components. -/
def repeaters : Parameter := .ofNames "repeaters" ["ForEach"]

/-- One of the texts is empty, and there are blanks around another. -/
theorem repeaters_mean_the_same_names :
    repeaters.coerce (.list [.str "Grid", .str "", .str " List"]) =
      .ok (namesValue ["Grid", "List"]) ∧
    repeaters.coerce (.str "Grid,, List") = .ok (namesValue ["Grid", "List"]) ∧
    repeaters.coerce (.str "Grid\t, ,\u3000 List ") = .ok (namesValue ["Grid", "List"]) ∧
    repeaters.coerce (namesValue ["Grid", "List"]) = .ok (namesValue ["Grid", "List"]) := by
  obtain ⟨hagain, -, hnames⟩ := coerced_values_stay_as_they_are repeaters
  have hcomma : ∀ text ∈ ["Grid", "", " List"], ',' ∉ text.toList := by
    simp only [List.forall_mem_cons]
    decide
  obtain ⟨hlisted, -, hplain, hjoined⟩ := hnames rfl ["Grid", "", " List"] hcomma
  have hspaced : JoinedByCommas ["Grid", "", " List"] "Grid\t, ,\u3000 List " :=
    ⟨["Grid\t", " ", "\u3000 List "], .cons ⟨"", "\t", rfl, rfl, rfl⟩
      (.cons ⟨" ", "", rfl, rfl, rfl⟩ (.cons ⟨"\u3000", " ", rfl, rfl, rfl⟩ .nil)), rfl⟩
  exact ⟨hlisted, hplain, hjoined _ hspaced, (hagain _ _ hlisted).2⟩

end ComponentLint

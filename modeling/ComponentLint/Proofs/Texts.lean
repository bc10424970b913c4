-- Texts as lists of characters: pieces that are joined and come apart again,
-- what stands before a marker, and numbers that are read from their digits.
import ComponentLint.Proofs.WrittenIntegers
import ComponentLint.Text.Basic
import Mathlib.Data.List.Basic

namespace ComponentLint

namespace Text

/-! ## Pieces -/

theorem mem_intercalate {sep d : Char} {pieces : List (List Char)}
    (h : d ∈ [sep].intercalate pieces) : d = sep ∨ ∃ piece ∈ pieces, d ∈ piece := by
  induction pieces with
  | nil => simp at h
  | cons piece pieces ih =>
    cases pieces with
    | nil => exact Or.inr ⟨piece, by simp, by simpa using h⟩
    | cons next pieces =>
      rw [List.intercalate_cons_cons, List.append_assoc, List.mem_append,
        List.singleton_append, List.mem_cons] at h
      rcases h with h | h | h
      · exact Or.inr ⟨piece, by simp, h⟩
      · exact Or.inl h
      · refine (ih h).imp_right ?_
        rintro ⟨found, hfound, hd⟩
        exact ⟨found, List.mem_cons_of_mem _ hfound, hd⟩

/-- What holds of the characters of all pieces holds of all characters but the separators. -/
theorem forall_mem_of_splitOn {sep : Char} {p : Char → Prop} {cs : List Char}
    (h : ∀ piece ∈ cs.splitOn sep, ∀ c ∈ piece, p c) : ∀ c ∈ cs, c = sep ∨ p c := by
  intro c hc
  have hjoined : [sep].intercalate (cs.splitOn sep) = cs := List.intercalate_splitOn sep
  rw [← hjoined] at hc
  rcases mem_intercalate hc with hsep | ⟨piece, hpiece, hmem⟩
  · exact Or.inl hsep
  · exact Or.inr (h piece hpiece c hmem)

theorem length_splitOn (sep : Char) (cs : List Char) :
    (cs.splitOn sep).length = cs.count sep + 1 := by
  induction cs with
  | nil => rfl
  | cons c cs ih =>
    unfold List.splitOn at ih ⊢
    rw [List.splitOnP_cons_eq_if_modifyHead]
    by_cases hc : c = sep
    · rw [if_pos (beq_iff_eq.mpr hc), List.length_cons, ih, hc, List.count_cons_self]
    · rw [if_neg (mt beq_iff_eq.mp hc), List.length_modifyHead, ih, List.count_cons_of_ne hc]

/-- A text that is joined from pieces has the separators of the pieces, and one between any two. -/
theorem count_intercalate (sep : Char) (pieces : List (List Char)) (hne : pieces ≠ []) :
    ([sep].intercalate pieces).count sep + 1 =
      pieces.flatten.count sep + pieces.length := by
  induction pieces with
  | nil => exact absurd rfl hne
  | cons piece pieces ih =>
    cases pieces with
    | nil => simp
    | cons next pieces =>
      have hrest := ih (List.cons_ne_nil _ _)
      rw [List.intercalate_cons_cons, List.append_assoc, List.count_append, List.singleton_append,
        List.count_cons_self, List.flatten_cons, List.count_append, List.length_cons]
      omega

/-! ## The beginning of a text -/

theorem isPrefixOf?_eq_some_iff {start cs rest : List Char} :
    start.isPrefixOf? cs = some rest ↔ cs = start ++ rest := by
  rw [List.isPrefixOf?_eq_some_iff_append_eq, eq_comm]

/-- A beginning without a blank ends before the first blank. -/
theorem isPrefixOf?_append {start : List Char} (h : ' ' ∉ start) (cs tail : List Char) :
    start.isPrefixOf? (cs ++ ' ' :: tail) = (start.isPrefixOf? cs).map (· ++ ' ' :: tail) := by
  induction start generalizing cs with
  | nil => rfl
  | cons p start ih =>
    obtain ⟨hp, hstart⟩ := not_or.mp (mt List.mem_cons.mpr h)
    cases cs with
    | nil => simp [List.isPrefixOf?, Ne.symm hp]
    | cons c cs =>
      rw [List.cons_append, List.isPrefixOf?, List.isPrefixOf?]
      by_cases hc : p = c
      · rw [if_pos (beq_iff_eq.mpr hc), if_pos (beq_iff_eq.mpr hc), ih hstart]
      · rw [if_neg (mt beq_iff_eq.mp hc), if_neg (mt beq_iff_eq.mp hc)]
        rfl

/-- What stands before the first place where a marker starts, all of it when it starts nowhere. -/
def Leading (marker cs head : List Char) : Prop :=
  (head = cs ∧ ∀ before after, cs ≠ before ++ marker ++ after) ∨
    (∃ tail, cs = head ++ marker ++ tail) ∧
      ∀ before after, cs = before ++ marker ++ after → head.length ≤ before.length

theorem Leading.unique {marker cs head head' : List Char} (h : Leading marker cs head)
    (h' : Leading marker cs head') : head = head' := by
  rcases h with ⟨rfl, hnone⟩ | ⟨⟨tail, htail⟩, hfirst⟩
  · rcases h' with ⟨rfl, -⟩ | ⟨⟨tail', htail'⟩, -⟩
    · rfl
    · exact absurd htail' (hnone _ _)
  · rcases h' with ⟨rfl, hnone'⟩ | ⟨⟨tail', htail'⟩, hfirst'⟩
    · exact absurd htail (hnone' _ _)
    · have hlength := Nat.le_antisymm (hfirst _ _ htail') (hfirst' _ _ htail)
      rw [List.append_assoc] at htail htail'
      exact (List.append_inj (htail.symm.trans htail') hlength).1

theorem leading_beforeFirst (marker cs : List Char) (hmarker : marker ≠ []) :
    Leading marker cs (beforeFirst marker cs) := by
  induction cs with
  | nil =>
    refine Or.inl ⟨rfl, ?_⟩
    intro before after h
    simp [hmarker] at h
  | cons c cs ih =>
    rw [beforeFirst]
    by_cases hhere : (marker.isPrefixOf? (c :: cs)).isSome
    · obtain ⟨tail, htail⟩ := Option.isSome_iff_exists.mp hhere
      rw [if_pos hhere]
      exact Or.inr ⟨⟨tail, isPrefixOf?_eq_some_iff.mp htail⟩, by simp⟩
    · rw [if_neg hhere]
      -- The marker does not start here, so it starts where it does in the rest.
      have hlater : ∀ before after, c :: cs = before ++ marker ++ after →
          ∃ before', before = c :: before' ∧ cs = before' ++ marker ++ after := by
        intro before after h
        cases before with
        | nil =>
          rw [List.nil_append] at h
          simp [isPrefixOf?_eq_some_iff.mpr h] at hhere
        | cons d before =>
          simp only [List.cons_append, List.cons.injEq] at h
          exact ⟨before, by rw [h.1], h.2⟩
      rcases ih with ⟨hall, hnone⟩ | ⟨⟨tail, htail⟩, hfirst⟩
      · refine Or.inl ⟨by rw [hall], ?_⟩
        intro before after h
        obtain ⟨before', -, hcs⟩ := hlater before after h
        exact hnone before' after hcs
      · refine Or.inr ⟨⟨tail, ?_⟩, ?_⟩
        · rw [List.cons_append, List.cons_append, ← htail]
        · intro before after h
          obtain ⟨before', rfl, hcs⟩ := hlater before after h
          exact Nat.succ_le_succ (hfirst before' after hcs)

theorem takeWhile_ne_eq_beforeFirst (c : Char) (cs : List Char) :
    cs.takeWhile (· ≠ c) = beforeFirst [c] cs := by
  induction cs with
  | nil => rfl
  | cons d cs ih =>
    rw [beforeFirst, List.takeWhile_cons]
    by_cases hd : d = c
    · simp [hd, List.isPrefixOf?]
    · simp [hd, List.isPrefixOf?, Ne.symm hd, ← ih]

end Text

/-! ## Numbers -/

namespace Numeral

/-- The natural number that digits stand for. -/
def readDigits? (cs : List Char) : Option Nat :=
  if cs ≠ [] ∧ cs.all Char.isDigit then some (Nat.ofDigitChars 10 cs 0) else none

/-- The number that a text stands for. -/
def read? (s : String) : Option Numeral :=
  if s = Value.boolText true then some (.flag true)
  else if s = Value.boolText false then some (.flag false)
  else if s.toList.head? = some '-' then
    (readDigits? (s.toList.drop 1)).map fun n : Nat => .int (-n)
  else (readDigits? s.toList).map fun n : Nat => .int n

theorem isDigit_of_mem_repr {n : Nat} {c : Char} (h : c ∈ n.repr.toList) : c.isDigit := by
  rw [Nat.repr_eq_ofList_toDigits, String.toList_ofList] at h
  exact Nat.isDigit_of_mem_toDigits (by decide) (by decide) h

theorem readDigits?_repr (n : Nat) : readDigits? n.repr.toList = some n := by
  have hdigits : n.repr.toList.all Char.isDigit := by
    rw [List.all_eq_true]
    exact fun c hc => isDigit_of_mem_repr hc
  rw [readDigits?, if_pos ⟨by simp [Nat.repr_eq_ofList_toDigits], hdigits⟩,
    Nat.repr_eq_ofList_toDigits, String.toList_ofList, Nat.ofDigitChars_ten_toDigits]

/-- An integer is written in digits, after a sign when it is negative. -/
theorem digits_int (n : Int) : (n.natAbs.repr = (int n).digits ∧ 0 ≤ n) ∨
    ("-" ++ n.natAbs.repr = (int n).digits ∧ n < 0) := by
  cases n with
  | ofNat m => exact Or.inl ⟨rfl, Int.natCast_nonneg m⟩
  | negSucc m => exact Or.inr ⟨rfl, Int.negSucc_lt_zero m⟩

theorem mem_digits_int {n : Int} {c : Char} (h : c ∈ (int n).digits.toList) :
    c.isDigit ∨ c = '-' := by
  rcases digits_int n with ⟨htext, -⟩ | ⟨htext, -⟩
  · rw [← htext] at h
    exact Or.inl (isDigit_of_mem_repr h)
  · rw [← htext, String.toList_append, List.mem_append] at h
    rcases h with h | h
    · exact Or.inr (by simpa using h)
    · exact Or.inl (isDigit_of_mem_repr h)

/-- A number can be read from its text. -/
theorem read?_digits (n : Numeral) : read? n.digits = some n := by
  cases n with
  | flag b =>
    cases b with
    | false => rfl
    | true => rfl
  | int n =>
    -- The words have letters in them, integers have not.
    have hne : ∀ b, (int n).digits ≠ Value.boolText b := by
      intro b hb
      have he : 'e' ∈ (int n).digits.toList := by
        rw [hb]
        cases b <;> decide
      rcases mem_digits_int he with hdigit | hminus
      · cases hdigit
      · cases hminus
    unfold read?
    rw [if_neg (hne true), if_neg (hne false)]
    rcases digits_int n with ⟨htext, hn⟩ | ⟨htext, hn⟩
    · have hsign : (int n).digits.toList.head? ≠ some '-' := by
        intro hhead
        rw [← htext] at hhead
        cases isDigit_of_mem_repr (List.mem_of_mem_head? hhead)
      rw [if_neg hsign, ← htext, readDigits?_repr, Option.map_some, Int.natAbs_of_nonneg hn]
    · have hchars : (int n).digits.toList = '-' :: n.natAbs.repr.toList := by
        rw [← htext, String.toList_append]
        rfl
      rw [if_pos (by rw [hchars]; rfl), hchars, List.drop_one, List.tail_cons, readDigits?_repr,
        Option.map_some]
      congr 2
      omega

end Numeral

end ComponentLint

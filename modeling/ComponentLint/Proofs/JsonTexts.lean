-- JSON texts are unambiguous. A quoted text can be read back past whatever
-- follows it, a number or a word ends where a comma or a line does, and the
-- lines of a block tell its items apart. So two trees that have one text have
-- the same members and items, and their doubles are spelled alike.
import ComponentLint.Json.Reader
import ComponentLint.Proofs.Texts
import ComponentLint.Proofs.WrittenIntegers
import Mathlib.Data.List.Forall2

namespace ComponentLint.Json

open ComponentLint.Number ComponentLint.Text

/-! ## Quoted texts -/

theorem hexValue?_digitChar : ∀ d < 16, hexValue? (Nat.digitChar d) = some d := by decide

/-- The four digits of a unit are read back. -/
theorem readHex_unit {unit : Nat} (h : unit < 0x10000) (rest : List Char) :
    readHex 0 4 (hexDigits 4 unit ++ rest) = some (unit, rest) := by
  have hdigit : ∀ n, hexValue? (Nat.digitChar (n % 16)) = some (n % 16) :=
    fun n => hexValue?_digitChar _ (Nat.mod_lt _ (by decide))
  simp only [hexDigits, List.nil_append, List.cons_append, readHex, hdigit, Option.bind_some]
  congr 2
  omega

/-- No character is a surrogate. -/
theorem toNat_valid (c : Char) : c.toNat < 0xd800 ∨ 0xdfff < c.toNat ∧ c.toNat < 0x110000 := c.valid

theorem readUnits_single {c : Char} (h : c.toNat < 0x10000) (rest : List Char) :
    readUnits (hexDigits 4 c.toNat ++ rest) = some (c, rest) := by
  have hsurrogate : ¬ (0xd800 ≤ c.toNat ∧ c.toNat < 0xdc00) := by
    have hvalid := toNat_valid c
    omega
  rw [readUnits, readHex_unit h, Option.bind_some]
  dsimp only
  rw [if_neg hsurrogate, Char.ofNat_toNat]

theorem readUnits_pair {c : Char} (h : 0x10000 ≤ c.toNat) (rest : List Char) :
    readUnits (hexDigits 4 (0xd800 + (c.toNat - 0x10000) / 0x400) ++
      (unitEscape (0xdc00 + (c.toNat - 0x10000) % 0x400) ++ rest)) = some (c, rest) := by
  have hmax : c.toNat < 0x110000 := by
    have hvalid := toNat_valid c
    omega
  have hhigh : 0xd800 ≤ 0xd800 + (c.toNat - 0x10000) / 0x400 ∧
      0xd800 + (c.toNat - 0x10000) / 0x400 < 0xdc00 := by omega
  have hmark : ∀ more, List.isPrefixOf? ['\\', 'u'] ('\\' :: 'u' :: more) = some more :=
    fun _ => rfl
  have hjoined : 0x10000 + (0xd800 + (c.toNat - 0x10000) / 0x400 - 0xd800) * 0x400 +
      (0xdc00 + (c.toNat - 0x10000) % 0x400 - 0xdc00) = c.toNat := by omega
  rw [readUnits, readHex_unit (by omega), Option.bind_some]
  dsimp only
  rw [if_pos hhigh, unitEscape, List.cons_append, List.cons_append, hmark, Option.bind_some,
    readHex_unit (by omega), Option.bind_some]
  dsimp only
  rw [hjoined, Char.ofNat_toNat]

theorem readText_short {acc rest : List Char} {fuel : Nat} {e c : Char}
    (h : shortEscape? e = some c) :
    readText acc (fuel + 1) ('\\' :: e :: rest) = readText (c :: acc) fuel rest := by
  have he : e ≠ 'u' := by
    rintro rfl
    cases h
  simp [readText, h]

theorem readText_units {acc rest more : List Char} {fuel : Nat} {c : Char}
    (h : readUnits rest = some (c, more)) :
    readText acc (fuel + 1) ('\\' :: 'u' :: rest) = readText (c :: acc) fuel more := by
  simp [readText, h]

/-- Reading an escaped character adds the character. -/
theorem readText_escapeChar (acc : List Char) (fuel : Nat) (c : Char) (rest : List Char) :
    readText acc (fuel + 1) (escapeChar c ++ rest) = readText (c :: acc) fuel rest := by
  have hshort : ∀ {e d}, shortEscape? e = some d → c = d →
      readText acc (fuel + 1) (['\\', e] ++ rest) = readText (c :: acc) fuel rest := by
    rintro e d he rfl
    exact readText_short he
  unfold escapeChar
  split
  · rename_i hc
    exact hshort rfl hc
  split
  · rename_i hc
    exact hshort rfl hc
  split
  · rename_i hc
    exact hshort rfl hc
  split
  · rename_i hc
    exact hshort rfl hc
  split
  · rename_i hc
    exact hshort rfl hc
  split
  · rename_i hc
    exact hshort rfl (by rw [← Char.ofNat_toNat c, hc])
  split
  · rename_i hc
    exact hshort rfl (by rw [← Char.ofNat_toNat c, hc])
  split
  · rename_i hquote hslash _ _ _ _ _ _
    rw [List.singleton_append]
    simp [readText, hquote, hslash]
  split
  · rename_i hunit
    exact readText_units (readUnits_single hunit rest)
  · rename_i hpair
    rw [List.append_assoc]
    exact readText_units (readUnits_pair (Nat.le_of_not_lt hpair) rest)

/-- A quoted text is read up to its closing quote, whatever follows. -/
theorem readText_escaped (acc cs rest : List Char) (fuel : Nat) :
    readText acc (cs.length + fuel + 1) (cs.flatMap escapeChar ++ '"' :: rest) =
      some (String.ofList (acc.reverse ++ cs), rest) := by
  induction cs generalizing acc with
  | nil => simp [readText]
  | cons c cs ih =>
    have hfuel : (c :: cs).length + fuel + 1 = (cs.length + fuel + 1) + 1 := by
      rw [List.length_cons]
      omega
    rw [List.flatMap_cons, List.append_assoc, hfuel, readText_escapeChar, ih, List.reverse_cons,
      List.append_assoc, List.singleton_append]

theorem toList_quote (s : String) :
    (quote s).toList = '"' :: (s.toList.flatMap escapeChar ++ ['"']) := by
  rw [quote, String.toList_ofList, List.cons_append]

/-- Where quoted texts end is told by the texts. -/
theorem quote_cancel {s s' : String} {rest rest' : List Char}
    (h : (quote s).toList ++ rest = (quote s').toList ++ rest') : s = s' ∧ rest = rest' := by
  rw [toList_quote, toList_quote] at h
  simp only [List.cons_append, List.append_assoc, List.nil_append, List.cons.injEq,
    true_and] at h
  have hread := readText_escaped [] s.toList rest s'.toList.length
  have hread' := readText_escaped [] s'.toList rest' s.toList.length
  rw [h, Nat.add_comm s.toList.length, hread'] at hread
  simpa [eq_comm] using hread

/-! ## Words and numbers -/

/-- What can follow a tree within a text: nothing, a comma or the end of the line. -/
def Ends (rest : List Char) : Prop := ∀ c, rest.head? = some c → c = ',' ∨ c = '\n'

/-- Texts without commas and ends of lines are told from what follows them. -/
theorem token_cancel {t t' rest rest' : List Char} (ht : ∀ c ∈ t, c ≠ ',' ∧ c ≠ '\n')
    (ht' : ∀ c ∈ t', c ≠ ',' ∧ c ≠ '\n') (hrest : Ends rest) (hrest' : Ends rest')
    (h : t ++ rest = t' ++ rest') : t = t' ∧ rest = rest' := by
  induction t generalizing t' with
  | nil =>
    cases t' with
    | nil => exact ⟨rfl, h⟩
    | cons c t' =>
      obtain ⟨hc, -⟩ := List.forall_mem_cons.mp ht'
      rcases hrest c (by rw [show rest = _ from h]; rfl) with rfl | rfl
      · exact absurd rfl hc.1
      · exact absurd rfl hc.2
  | cons c t ih =>
    obtain ⟨hc, ht⟩ := List.forall_mem_cons.mp ht
    cases t' with
    | nil =>
      rcases hrest' c (by rw [← show _ = rest' from h]; rfl) with rfl | rfl
      · exact absurd rfl hc.1
      · exact absurd rfl hc.2
    | cons c' t' =>
      obtain ⟨rfl, htail⟩ := List.cons.inj h
      obtain ⟨rfl, hcut⟩ := ih ht (List.forall_mem_cons.mp ht').2 htail
      exact ⟨rfl, hcut⟩

/-- Whether a double can be written with a character. -/
def inNumber (c : Char) : Bool := c.isDigit || "+-.eInfityNa".toList.contains c

theorem inNumber_of_mem_decimalDigits {n : Nat} {c : Char} (h : c ∈ decimalDigits n) :
    inNumber c := by
  have hdigit : c.isDigit = true := Nat.isDigit_of_mem_toDigits (by decide) (by decide) h
  rw [inNumber, hdigit, Bool.true_or]

theorem inNumber_of_mem_zeros {n : Nat} {c : Char} (h : c ∈ List.replicate n '0') :
    inNumber c := by
  rw [List.eq_of_mem_replicate h]
  decide

section

open Binary64

variable {digits : List Char} (hdigits : ∀ c ∈ digits, inNumber c) (power : Int)
include hdigits

theorem inNumber_of_mem_positional {c : Char} (h : c ∈ positional digits power) : inNumber c := by
  have hpadded : ∀ n, ∀ c ∈ digits ++ List.replicate n '0', inNumber c := by
    intro n c hc
    rcases List.mem_append.mp hc with hc | hc
    · exact hdigits c hc
    · exact inNumber_of_mem_zeros hc
  unfold positional at h
  split at h
  · simp only [List.mem_cons, List.mem_append] at h
    rcases h with rfl | rfl | h | h
    · decide
    · decide
    · exact inNumber_of_mem_zeros h
    · exact hdigits c h
  · dsimp only at h
    rw [List.mem_append, List.mem_cons] at h
    rcases h with h | rfl | h
    · exact hpadded _ c (List.mem_of_mem_take h)
    · decide
    · split at h
      · rw [List.mem_singleton.mp h]
        decide
      · exact hpadded _ c (List.mem_of_mem_drop h)

theorem inNumber_of_mem_scientific {c : Char} (h : c ∈ scientific digits power) : inNumber c := by
  unfold scientific at h
  simp only [List.mem_append, List.mem_cons] at h
  rcases h with h | rfl | rfl | h
  · split at h
    · cases h
    · exact hdigits c h
    · rename_i d more _
      simp only [List.mem_cons] at h
      rcases h with rfl | rfl | h
      · exact hdigits c (by simp)
      · decide
      · exact hdigits c (List.mem_cons_of_mem _ h)
  · decide
  · split <;> decide
  · split at h
    · rcases List.mem_cons.mp h with rfl | h
      · decide
      · exact inNumber_of_mem_decimalDigits h
    · exact inNumber_of_mem_decimalDigits h

end

theorem inNumber_of_mem_magnitudeText {significand : Nat} {exponent : Int} {c : Char}
    (h : c ∈ Binary64.magnitudeText significand exponent) : inNumber c := by
  have hdigits : ∀ c ∈ (Binary64.shortest significand exponent).1, inNumber c := by
    intro c hc
    unfold Binary64.shortest at hc
    dsimp only at hc
    rw [List.mem_reverse] at hc
    exact inNumber_of_mem_decimalDigits (List.mem_reverse.mp (List.dropWhile_subset _ hc))
  unfold Binary64.magnitudeText at h
  split at h
  · have hzero : ['0', '.', '0'].all inNumber = true := by decide
    exact List.all_eq_true.mp hzero c h
  · dsimp only at h
    split at h
    · exact inNumber_of_mem_positional hdigits _ h
    · exact inNumber_of_mem_scientific hdigits _ h

theorem exists_mark_magnitudeText (significand : Nat) (exponent : Int) :
    ∃ c ∈ Binary64.magnitudeText significand exponent, c = '.' ∨ c = 'e' := by
  unfold Binary64.magnitudeText
  split
  · exact ⟨'.', by decide, Or.inl rfl⟩
  · dsimp only
    split
    · refine ⟨'.', ?_, Or.inl rfl⟩
      unfold Binary64.positional
      split
      · simp
      · simp
    · exact ⟨'e', by simp [Binary64.scientific], Or.inr rfl⟩

theorem inNumber_of_mem_floatText {x : Binary64} {c : Char} (h : c ∈ (floatText x).toList) :
    inNumber c := by
  cases x with
  | finite negative significand exponent =>
    change c ∈ (String.ofList _).toList at h
    rw [String.toList_ofList, List.mem_append] at h
    rcases h with h | h
    · split at h
      · rw [List.mem_singleton.mp h]
        decide
      · cases h
    · exact inNumber_of_mem_magnitudeText h
  | infinite negative =>
    have hword : (floatText (.infinite negative)).toList.all inNumber = true := by
      cases negative <;> decide
    exact List.all_eq_true.mp hword c h
  | nan =>
    have hword : (floatText .nan).toList.all inNumber = true := by decide
    exact List.all_eq_true.mp hword c h

/-- No double is written like an integer: it has a point, an exponent or a word. -/
theorem exists_mark_floatText (x : Binary64) :
    ∃ c ∈ (floatText x).toList, c ∈ ".eIN".toList := by
  cases x with
  | finite negative significand exponent =>
    obtain ⟨c, hc, hmark⟩ := exists_mark_magnitudeText significand exponent
    refine ⟨c, ?_, ?_⟩
    · change c ∈ (String.ofList _).toList
      rw [String.toList_ofList, List.mem_append]
      exact Or.inr hc
    · rcases hmark with rfl | rfl <;> decide
  | infinite negative => exact ⟨'I', by cases negative <;> decide, by decide⟩
  | nan => exact ⟨'N', by decide, by decide⟩

theorem inNumber_of_mem_int {n : Int} {c : Char} (h : c ∈ (toString n).toList) : inNumber c := by
  rcases Numeral.mem_digits_int h with hdigit | rfl
  · rw [inNumber, hdigit, Bool.true_or]
  · decide

theorem toString_inj {n m : Int} : toString n = toString m ↔ n = m := by
  refine ⟨fun h => ?_, fun h => h ▸ rfl⟩
  have hread := Numeral.read?_digits (.int n)
  have htext : (Numeral.int n).digits = (Numeral.int m).digits := h
  rw [htext, Numeral.read?_digits] at hread
  cases hread
  rfl

theorem toString_ne_floatText (n : Int) (x : Binary64) : toString n ≠ floatText x := by
  intro h
  obtain ⟨c, hc, hmark⟩ := exists_mark_floatText x
  have hother : ".eIN".toList.all (fun c => !c.isDigit && c != '-') = true := by decide
  have hc' := List.all_eq_true.mp hother c hmark
  rw [← h] at hc
  rcases Numeral.mem_digits_int hc with hdigit | rfl
  · simp [hdigit] at hc'
  · cases hc'

/-- No number is written like one of the words. -/
theorem not_word_of_inNumber {t : String} (h : ∀ c ∈ t.toList, inNumber c) :
    t ≠ "null" ∧ t ≠ "true" ∧ t ≠ "false" := by
  refine ⟨?_, ?_, ?_⟩
  · rintro rfl
    exact absurd (h 'u' (by decide)) (by decide)
  · rintro rfl
    exact absurd (h 'u' (by decide)) (by decide)
  · rintro rfl
    exact absurd (h 'l' (by decide)) (by decide)

/-! ## Trees -/

mutual

/-- Two trees that are the same but for doubles, which are only spelled alike. -/
def Alike : Json → Json → Prop
  | null, null => True
  | bool b, bool b' => b = b'
  | int n, int n' => n = n'
  | float x, float x' => floatText x = floatText x'
  | str s, str s' => s = s'
  | arr items, arr items' => ItemsAlike items items'
  | obj members, obj members' => MembersAlike members members'
  | _, _ => False

/-- Items that are alike one by one. -/
def ItemsAlike : List Json → List Json → Prop
  | [], [] => True
  | j :: rest, j' :: rest' => Alike j j' ∧ ItemsAlike rest rest'
  | _, _ => False

/-- Members that have the same names and are alike one by one. -/
def MembersAlike : List (String × Json) → List (String × Json) → Prop
  | [], [] => True
  | (k, j) :: rest, (k', j') :: rest' => k = k' ∧ Alike j j' ∧ MembersAlike rest rest'
  | _, _ => False

end

mutual

/-- The text of a tree, were there no limit on the digits of an integer. -/
def rendered (depth : Nat) : Json → String
  | null => "null"
  | bool b => if b then "true" else "false"
  | int n => toString n
  | float x => floatText x
  | str s => quote s
  | arr items => block "[" "]" depth (renderedItems (depth + 1) items)
  | obj members => block "\x7b" "\x7d" depth (renderedMembers (depth + 1) members)

def renderedItems (depth : Nat) : List Json → List String
  | [] => []
  | j :: rest => rendered depth j :: renderedItems depth rest

def renderedMembers (depth : Nat) : List (String × Json) → List String
  | [] => []
  | (k, j) :: rest => (quote k ++ ": " ++ rendered depth j) :: renderedMembers depth rest

end

mutual

/-- Whether all integers in a tree are short enough to be written. -/
def writable : Json → Bool
  | int n => isShort n
  | arr items => writableItems items
  | obj members => writableMembers members
  | _ => true

def writableItems : List Json → Bool
  | [] => true
  | j :: rest => writable j && writableItems rest

def writableMembers : List (String × Json) → Bool
  | [] => true
  | (_, j) :: rest => writable j && writableMembers rest

end

mutual

/-- A tree has a text exactly when its integers are short. -/
theorem pretty_eq (depth : Nat) (j : Json) :
    pretty depth j = unlessLong (writable j) (rendered depth j) := by
  cases j with
  | int n => exact writeInt_eq n
  | arr items =>
    rw [pretty, prettyItems_eq, unlessLong_bind_pure, writable, rendered]
  | obj members =>
    rw [pretty, prettyMembers_eq, unlessLong_bind_pure, writable, rendered]
  | _ => rfl

theorem prettyItems_eq (depth : Nat) (items : List Json) :
    prettyItems depth items = unlessLong (writableItems items) (renderedItems depth items) := by
  cases items with
  | nil => rfl
  | cons j rest =>
    rw [prettyItems, pretty_eq depth j, prettyItems_eq depth rest, writableItems, renderedItems]
    simp only [unlessLong_bind_pure, unlessLong_bind_unlessLong]

theorem prettyMembers_eq (depth : Nat) (members : List (String × Json)) :
    prettyMembers depth members =
      unlessLong (writableMembers members) (renderedMembers depth members) := by
  cases members with
  | nil => rfl
  | cons m rest =>
    rw [prettyMembers, pretty_eq depth m.2, prettyMembers_eq depth rest, writableMembers,
      renderedMembers]
    simp only [unlessLong_bind_pure, unlessLong_bind_unlessLong]

end

/-- The text of a word or a number. -/
def token? : Json → Option String
  | null => some "null"
  | bool b => some (if b then "true" else "false")
  | int n => some (toString n)
  | float x => some (floatText x)
  | _ => none

theorem rendered_of_token? {j : Json} {t : String} (h : token? j = some t) (depth : Nat) :
    rendered depth j = t := by
  cases j with
  | str s => cases h
  | arr items => cases h
  | obj members => cases h
  | _ => exact Option.some.inj h

/-- One text stands for one word or number only. -/
theorem alike_of_token? {j j' : Json} {t : String} (h : token? j = some t)
    (h' : token? j' = some t) : Alike j j' := by
  have hint := fun n : Int => not_word_of_inNumber fun c => inNumber_of_mem_int (n := n) (c := c)
  have hfloat := fun x => not_word_of_inNumber fun c => inNumber_of_mem_floatText (x := x) (c := c)
  have hwords : "null" ≠ "true" ∧ "null" ≠ "false" ∧ "true" ≠ "false" := by decide
  rw [← h'] at h
  -- Letters tell words from numbers, and the mark of a double tells it from an integer.
  cases j <;> cases j' <;> simp only [token?, Option.some.injEq, reduceCtorEq, Alike] at h h' ⊢
  all_goals grind [toString_inj, toString_ne_floatText]

/-- The characters that part a text. -/
def marks : List Char := [',', '\n', '"', '[', '{']

/-- Words and numbers hold none of the characters that part a text. -/
theorem notMem_marks_of_token? {j : Json} {t : String} (h : token? j = some t) {c : Char}
    (hc : c ∈ t.toList) : c ∉ marks := by
  have hword : ∀ {w : String}, (w.toList.all fun c => !marks.contains c) = true →
      c ∈ w.toList → c ∉ marks := by
    intro w hw hc
    simpa using List.all_eq_true.mp hw c hc
  have hnumber : (marks.all fun c => !inNumber c) = true := by decide
  have hout : inNumber c = true → c ∉ marks := by
    intro hin hmem
    have hnot := List.all_eq_true.mp hnumber c hmem
    rw [hin] at hnot
    cases hnot
  cases j with
  | null =>
    cases h
    exact hword (by decide) hc
  | bool b =>
    cases h
    exact hword (by cases b <;> decide) hc
  | int n =>
    cases h
    exact hout (inNumber_of_mem_int hc)
  | float x =>
    cases h
    exact hout (inNumber_of_mem_floatText hc)
  | str s => cases h
  | arr items => cases h
  | obj members => cases h

/-- The character that a text, an array or an object opens with. -/
def opening? : Json → Option Char
  | str _ => some '"'
  | arr _ => some '['
  | obj _ => some '{'
  | _ => none

/-! ## Blocks -/

/-- The start of a line. -/
def newline (depth : Nat) : List Char := '\n' :: List.replicate (2 * depth) ' '

/-- What follows an item of a block: the other items, each after a comma on a line of its own, and
the closing bracket. -/
def followers (closing : String) (depth : Nat) : List String → List Char
  | [] => newline depth ++ closing.toList
  | item :: rest =>
    ',' :: (newline (depth + 1) ++ (item.toList ++ followers closing depth rest))

theorem ends_followers (closing : String) (depth : Nat) (items : List String) (rest : List Char) :
    Ends (followers closing depth items ++ rest) := by
  cases items with
  | nil =>
    rintro c ⟨⟩
    exact Or.inr rfl
  | cons item items =>
    rintro c ⟨⟩
    exact Or.inl rfl

theorem toList_block_nil (opening closing : String) (depth : Nat) :
    (block opening closing depth []).toList = opening.toList ++ closing.toList := by
  rw [block, if_pos (by rfl), String.toList_append]

theorem toList_block_cons (opening closing : String) (depth : Nat) (item : String)
    (items : List String) :
    (block opening closing depth (item :: items)).toList =
      opening.toList ++
        (newline (depth + 1) ++ (item.toList ++ followers closing depth items)) := by
  have hline : ∀ n, ("\n" ++ String.ofList (List.replicate (2 * n) ' ')).toList = newline n := by
    intro n
    simp [newline]
  rw [block, if_neg (by simp)]
  dsimp only
  rw [String.toList_append, String.toList_append, String.toList_append, hline, List.append_assoc,
    List.append_assoc]
  congr 1
  induction items generalizing item with
  | nil =>
    rw [List.map_singleton, String.intercalate_singleton, String.toList_append, hline, followers,
      List.append_assoc]
  | cons next items ih =>
    have hnext := ih next
    rw [List.map_cons] at hnext
    rw [List.map_cons, List.map_cons, String.intercalate_cons_cons, String.toList_append,
      String.toList_append, String.toList_append, hline, followers, List.append_assoc,
      List.append_assoc, List.append_assoc, hnext]
    simp

/-- The text of something tells what it is, up to a relation, and where it ends. -/
def Tells {α : Type} (text : α → String) (same : α → α → Prop) (a : α) : Prop :=
  ∀ b rest rest', Ends rest → Ends rest' →
    (text a).toList ++ rest = (text b).toList ++ rest' → same a b ∧ rest = rest'

section

variable {α : Type} {text : α → String} {same : α → α → Prop} {items items' : List α}
  (htells : ∀ a ∈ items, Tells text same a) {opening closing : String} {depth : Nat}
  {rest rest' : List Char}
include htells

theorem followers_cancel (h : followers closing depth (items.map text) ++ rest =
      followers closing depth (items'.map text) ++ rest') :
    List.Forall₂ same items items' ∧ rest = rest' := by
  induction items generalizing items' with
  | nil =>
    cases items' with
    | nil => exact ⟨.nil, List.append_cancel_left h⟩
    | cons b items' => cases congrArg List.head? h
  | cons a items ih =>
    obtain ⟨ha, hitems⟩ := List.forall_mem_cons.mp htells
    cases items' with
    | nil => cases congrArg List.head? h
    | cons b items' =>
      rw [List.map_cons, List.map_cons, followers, followers] at h
      simp only [List.cons_append, List.append_assoc, List.cons.injEq, true_and,
        List.append_cancel_left_eq] at h
      obtain ⟨hab, hmore⟩ := ha b _ _ (ends_followers _ _ _ _) (ends_followers _ _ _ _) h
      obtain ⟨hrest, htail⟩ := ih hitems hmore
      exact ⟨.cons hab hrest, htail⟩

/-- The items of a block are told apart, and so is its end. -/
theorem block_cancel (hclosing : ∃ c more, closing.toList = c :: more ∧ c ≠ '\n')
    (h : (block opening closing depth (items.map text)).toList ++ rest =
      (block opening closing depth (items'.map text)).toList ++ rest') :
    List.Forall₂ same items items' ∧ rest = rest' := by
  obtain ⟨c, more, hc, hne⟩ := hclosing
  cases items with
  | nil =>
    cases items' with
    | nil => exact ⟨.nil, List.append_cancel_left h⟩
    | cons b items' =>
      simp only [List.map_nil, List.map_cons, toList_block_nil, toList_block_cons,
        List.append_assoc, List.append_cancel_left_eq, hc] at h
      exact absurd (List.cons.inj h).1 hne
  | cons a items =>
    obtain ⟨ha, hitems⟩ := List.forall_mem_cons.mp htells
    cases items' with
    | nil =>
      simp only [List.map_nil, List.map_cons, toList_block_nil, toList_block_cons,
        List.append_assoc, List.append_cancel_left_eq, hc] at h
      exact absurd (List.cons.inj h).1.symm hne
    | cons b items' =>
      simp only [List.map_cons, toList_block_cons, List.append_assoc,
        List.append_cancel_left_eq] at h
      obtain ⟨hab, hmore⟩ := ha b _ _ (ends_followers _ _ _ _) (ends_followers _ _ _ _) h
      obtain ⟨hrest, htail⟩ := followers_cancel hitems hmore
      exact ⟨.cons hab hrest, htail⟩

end

/-! ## One text, one tree -/

/-- The text of a member of an object. -/
def memberText (depth : Nat) (m : String × Json) : String := quote m.1 ++ ": " ++ rendered depth m.2

theorem renderedItems_eq_map (depth : Nat) (items : List Json) :
    renderedItems depth items = items.map (rendered depth) := by
  induction items with
  | nil => rfl
  | cons j items ih => rw [renderedItems, ih, List.map_cons]

theorem renderedMembers_eq_map (depth : Nat) (members : List (String × Json)) :
    renderedMembers depth members = members.map (memberText depth) := by
  induction members with
  | nil => rfl
  | cons m members ih =>
    rw [renderedMembers, ih, List.map_cons]
    rfl

theorem itemsAlike_iff {items items' : List Json} :
    ItemsAlike items items' ↔ List.Forall₂ Alike items items' := by
  induction items generalizing items' with
  | nil => cases items' <;> simp [ItemsAlike]
  | cons j items ih => cases items' <;> simp [ItemsAlike, ih]

theorem membersAlike_iff {members members' : List (String × Json)} :
    MembersAlike members members' ↔
      List.Forall₂ (fun m m' => m.1 = m'.1 ∧ Alike m.2 m'.2) members members' := by
  induction members generalizing members' with
  | nil => cases members' <;> simp [MembersAlike]
  | cons m members ih => cases members' <;> simp [MembersAlike, ih, and_assoc]

/-- The trees right below a tree. -/
def children : Json → List Json
  | arr items => items
  | obj members => members.map Prod.snd
  | _ => []

theorem sizeOf_lt_of_mem_children {j k : Json} (h : k ∈ children j) : sizeOf k < sizeOf j := by
  cases j with
  | arr items =>
    have hmem := List.sizeOf_lt_of_mem (show k ∈ items from h)
    simp only [arr.sizeOf_spec]
    omega
  | obj members =>
    obtain ⟨⟨name, k⟩, hm, rfl⟩ := List.mem_map.mp h
    have hmem := List.sizeOf_lt_of_mem hm
    simp only [obj.sizeOf_spec, Prod.mk.sizeOf_spec] at hmem ⊢
    omega
  | _ => cases h

/-- Induction on trees: what holds of all trees right below a tree holds of the tree. -/
@[elab_as_elim]
theorem tree_induction {motive : Json → Prop}
    (step : ∀ j, (∀ k ∈ children j, motive k) → motive j) (j : Json) : motive j := by
  induction hn : sizeOf j using Nat.strongRecOn generalizing j with
  | _ n ih =>
    exact step j fun k hk => ih (sizeOf k) (hn ▸ sizeOf_lt_of_mem_children hk) k rfl

theorem token?_or_opening? (j : Json) :
    (∃ t, token? j = some t) ∨ ∃ c, opening? j = some c := by
  cases j <;> simp [token?, opening?]

theorem exists_block (opening closing : String) (depth : Nat) (items : List String) :
    ∃ more, (block opening closing depth items).toList = opening.toList ++ more := by
  cases items with
  | nil => exact ⟨_, toList_block_nil opening closing depth⟩
  | cons item items => exact ⟨_, toList_block_cons opening closing depth item items⟩

theorem exists_rendered_of_opening? {j : Json} {c : Char} (h : opening? j = some c) (depth : Nat) :
    ∃ more, (rendered depth j).toList = c :: more := by
  cases j with
  | str s =>
    cases h
    exact ⟨_, toList_quote s⟩
  | arr items =>
    cases h
    exact exists_block "[" "]" depth _
  | obj members =>
    cases h
    exact exists_block "\x7b" "\x7d" depth _
  | _ => cases h

section

variable {j j' : Json} {depth : Nat} {rest rest' : List Char}

/-- No word or number looks like the start of a text, an array or an object. -/
theorem token_ne_opening {t : String} {c : Char} (h : token? j = some t) (h' : opening? j' = some c)
    (hrest : Ends rest) : t.toList ++ rest ≠ (rendered depth j').toList ++ rest' := by
  obtain ⟨more, hmore⟩ := exists_rendered_of_opening? h' depth
  have hmark : c ∈ marks ∧ c ≠ ',' ∧ c ≠ '\n' := by
    cases j' <;> cases h' <;> decide
  rw [hmore]
  intro heq
  cases ht : t.toList with
  | nil =>
    rw [ht, List.nil_append] at heq
    rcases hrest c (by rw [heq]; rfl) with hc | hc
    · exact hmark.2.1 hc
    · exact hmark.2.2 hc
  | cons d ds =>
    rw [ht] at heq
    have hd : d = c := (List.cons.inj heq).1
    refine notMem_marks_of_token? h (c := d) (by rw [ht]; exact List.mem_cons_self) ?_
    rw [hd]
    exact hmark.1

/-- A word or a number is told from every other tree. -/
theorem tells_of_token? {t : String} (h : token? j = some t) :
    Tells (rendered depth) Alike j := by
  intro j' rest rest' hrest hrest' heq
  rw [rendered_of_token? h] at heq
  rcases token?_or_opening? j' with ⟨t', h'⟩ | ⟨c, h'⟩
  · rw [rendered_of_token? h'] at heq
    have hplain : ∀ {j t}, token? j = some t → ∀ c ∈ t.toList, c ≠ ',' ∧ c ≠ '\n' := by
      intro j t ht c hc
      have hmark := notMem_marks_of_token? ht hc
      constructor
      · rintro rfl
        exact hmark (by decide)
      · rintro rfl
        exact hmark (by decide)
    obtain ⟨htext, htail⟩ := token_cancel (hplain h) (hplain h') hrest hrest' heq
    rw [← String.toList_inj.mp htext] at h'
    exact ⟨alike_of_token? h h', htail⟩
  · exact absurd heq (token_ne_opening h h' hrest)

/-- A text, an array or an object is told by its first character. -/
theorem opening?_eq_of_text {c : Char} (h : opening? j = some c) (hrest' : Ends rest')
    (heq : (rendered depth j).toList ++ rest = (rendered depth j').toList ++ rest') :
    opening? j' = some c := by
  rcases token?_or_opening? j' with ⟨t, h'⟩ | ⟨c', h'⟩
  · rw [rendered_of_token? h'] at heq
    exact absurd heq.symm (token_ne_opening h' h hrest')
  · obtain ⟨more, hmore⟩ := exists_rendered_of_opening? h depth
    obtain ⟨more', hmore'⟩ := exists_rendered_of_opening? h' depth
    rw [hmore, hmore'] at heq
    rw [h', (List.cons.inj heq).1]

end

theorem tells_memberText {m : String × Json} {depth : Nat} (h : Tells (rendered depth) Alike m.2) :
    Tells (memberText depth) (fun m m' => m.1 = m'.1 ∧ Alike m.2 m'.2) m := by
  intro m' rest rest' hrest hrest' heq
  simp only [memberText, String.toList_append, List.append_assoc] at heq
  obtain ⟨hname, heq⟩ := quote_cancel heq
  obtain ⟨halike, htail⟩ := h m'.2 rest rest' hrest hrest' (List.append_cancel_left heq)
  exact ⟨⟨hname, halike⟩, htail⟩

/-- The text of a tree tells the tree, but for how doubles are spelled. -/
theorem tells_rendered (j : Json) (depth : Nat) : Tells (rendered depth) Alike j := by
  induction j using tree_induction generalizing depth with
  | step j ih =>
    cases j with
    | str s =>
      intro j' rest rest' _ hrest' heq
      have hopening := opening?_eq_of_text rfl hrest' heq
      cases j' with
      | str s' => exact quote_cancel heq
      | _ => simp [opening?] at hopening
    | arr items =>
      intro j' rest rest' _ hrest' heq
      have hopening := opening?_eq_of_text rfl hrest' heq
      cases j' with
      | arr items' =>
        rw [rendered, rendered, renderedItems_eq_map, renderedItems_eq_map] at heq
        rw [Alike, itemsAlike_iff]
        exact block_cancel (fun k hk => ih k hk (depth + 1)) ⟨']', [], rfl, by decide⟩ heq
      | _ => simp [opening?] at hopening
    | obj members =>
      intro j' rest rest' _ hrest' heq
      have hopening := opening?_eq_of_text rfl hrest' heq
      cases j' with
      | obj members' =>
        rw [rendered, rendered, renderedMembers_eq_map, renderedMembers_eq_map] at heq
        rw [Alike, membersAlike_iff]
        refine block_cancel (fun m hm => tells_memberText ?_) ⟨'}', [], rfl, by decide⟩ heq
        exact ih m.2 (List.mem_map_of_mem hm) (depth + 1)
      | _ => simp [opening?] at hopening
    | _ => exact tells_of_token? rfl

/-- Two trees that are written alike are alike. -/
theorem alike_of_pretty {j j' : Json} {depth : Nat} {text : String} (h : pretty depth j = .ok text)
    (h' : pretty depth j' = .ok text) : Alike j j' := by
  have hends : Ends [] := by simp [Ends]
  rw [pretty_eq, unlessLong_eq_ok_iff] at h h'
  exact (tells_rendered j depth j' [] [] hends hends (by rw [h.2, h'.2])).1

end ComponentLint.Json

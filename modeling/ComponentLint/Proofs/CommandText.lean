-- The text of commands: a name, properties with their values, and a text that
-- is free. Escapes keep values and texts from ending early, so a command can
-- be read from its line, and so can the numbers in it.
import ComponentLint.Output.Lines
import ComponentLint.Proofs.Texts

namespace ComponentLint

open ComponentLint.Text

/-! ## Cutting text -/

namespace Text

/-- What stands before the first of a character, and what follows it. -/
def cutAtChar (sep : Char) (cs : List Char) : List Char × List Char :=
  (cs.takeWhile (· != sep), (cs.dropWhile (· != sep)).drop 1)

theorem cutAtChar_append {sep : Char} {cs : List Char} (h : sep ∉ cs) (rest : List Char) :
    cutAtChar sep (cs ++ sep :: rest) = (cs, rest) := by
  have hne : ∀ c ∈ cs, (c != sep) = true := by
    intro c hc
    simp only [bne_iff_ne]
    rintro rfl
    exact h hc
  unfold cutAtChar
  rw [List.takeWhile_append_of_pos hne, List.dropWhile_append_of_pos hne]
  simp

/-- What stands before the first double colon, and what follows it. -/
def cutAtColons : List Char → Option (List Char × List Char)
  | [] => none
  | c :: rest =>
    if c = ':' ∧ rest.head? = some ':' then some ([], rest.drop 1)
    else (cutAtColons rest).map fun e => (c :: e.1, e.2)

theorem cutAtColons_append {cs : List Char} (h : ':' ∉ cs) (rest : List Char) :
    cutAtColons (cs ++ ':' :: ':' :: rest) = some (cs, rest) := by
  induction cs with
  | nil => simp [cutAtColons]
  | cons c cs ih =>
    rw [List.mem_cons, not_or] at h
    simp [cutAtColons, Ne.symm h.1, ih h.2]

end Text

/-! ## Escapes -/

namespace Output

/-- The character that a percent escape stands for. -/
def escaped? (a b : Char) : Option Char :=
  [("25", '%'), ("0D", '\r'), ("0A", '\n'), ("3A", ':'), ("2C", ',')].lookup (String.ofList [a, b])

/-- A text without its percent escapes. -/
def unescape : List Char → List Char
  | [] => []
  | [c] => [c]
  | [c, d] => [c, d]
  | c :: a :: b :: rest =>
    match (if c = '%' then escaped? a b else none) with
    | some d => d :: unescape rest
    | none => c :: unescape (a :: b :: rest)

theorem unescape_cons {c : Char} (h : c ≠ '%') (rest : List Char) :
    unescape (c :: rest) = c :: unescape rest := by
  rcases rest with _ | ⟨a, _ | ⟨b, rest⟩⟩
  · rfl
  · rfl
  · simp [unescape, h]

theorem unescape_escapeDataChar (c : Char) (rest : List Char) :
    unescape (escapeDataChar c ++ rest) = c :: unescape rest := by
  unfold escapeDataChar
  split
  · subst c
    rfl
  · split
    · subst c
      rfl
    · split
      · subst c
        rfl
      · rename_i hpercent _ _
        exact unescape_cons hpercent rest

theorem unescape_escapePropertyChar (c : Char) (rest : List Char) :
    unescape (escapePropertyChar c ++ rest) = c :: unescape rest := by
  unfold escapePropertyChar
  split
  · subst c
    rfl
  · split
    · subst c
      rfl
    · exact unescape_escapeDataChar c rest

theorem unescape_flatMap {escape : Char → List Char}
    (h : ∀ c rest, unescape (escape c ++ rest) = c :: unescape rest) (cs : List Char) :
    unescape (cs.flatMap escape) = cs := by
  induction cs with
  | nil => rfl
  | cons c cs ih => rw [List.flatMap_cons, h, ih]

theorem unescape_escapeData (s : String) : String.ofList (unescape (escapeData s).toList) = s := by
  rw [escapeData, String.toList_ofList, unescape_flatMap unescape_escapeDataChar,
    String.ofList_toList]

theorem unescape_escapeProperty (s : String) :
    String.ofList (unescape (escapeProperty s).toList) = s := by
  rw [escapeProperty, String.toList_ofList, unescape_flatMap unescape_escapePropertyChar,
    String.ofList_toList]

theorem ne_of_mem_escapeDataChar {c d : Char} (h : d ∈ escapeDataChar c) :
    (d ≠ '\r' ∧ d ≠ '\n') ∧ (c ≠ ':' → d ≠ ':') ∧ (c ≠ ',' → d ≠ ',') := by
  unfold escapeDataChar at h
  split at h
  · obtain rfl | rfl | rfl : d = '%' ∨ d = '2' ∨ d = '5' := by simpa using h
    · simp
    · simp
    · simp
  · split at h
    · obtain rfl | rfl | rfl : d = '%' ∨ d = '0' ∨ d = 'D' := by simpa using h
      · simp
      · simp
      · simp
    · split at h
      · obtain rfl | rfl | rfl : d = '%' ∨ d = '0' ∨ d = 'A' := by simpa using h
        · simp
        · simp
        · simp
      · obtain rfl := List.mem_singleton.mp h
        exact ⟨⟨by assumption, by assumption⟩, id, id⟩

/-- An escaped text stays on its line. -/
theorem ne_of_mem_escapeData {s : String} {d : Char} (h : d ∈ (escapeData s).toList) :
    d ≠ '\r' ∧ d ≠ '\n' := by
  rw [escapeData, String.toList_ofList] at h
  obtain ⟨c, -, hd⟩ := List.mem_flatMap.mp h
  exact (ne_of_mem_escapeDataChar hd).1

/-- An escaped property stays in its place. -/
theorem ne_of_mem_escapeProperty {s : String} {d : Char} (h : d ∈ (escapeProperty s).toList) :
    (d ≠ '\r' ∧ d ≠ '\n') ∧ d ≠ ':' ∧ d ≠ ',' := by
  rw [escapeProperty, String.toList_ofList] at h
  obtain ⟨c, -, hd⟩ := List.mem_flatMap.mp h
  unfold escapePropertyChar at hd
  split at hd
  · obtain rfl | rfl | rfl : d = '%' ∨ d = '3' ∨ d = 'A' := by simpa using hd
    · simp
    · simp
    · simp
  · rename_i hcolon
    split at hd
    · obtain rfl | rfl | rfl : d = '%' ∨ d = '2' ∨ d = 'C' := by simpa using hd
      · simp
      · simp
      · simp
    · rename_i hcomma
      obtain ⟨hline, hcolons, hcommas⟩ := ne_of_mem_escapeDataChar hd
      exact ⟨hline, hcolons hcolon, hcommas hcomma⟩

theorem escapeProperty_of_plain {s : String}
    (h : ∀ c ∈ s.toList, c ≠ '%' ∧ c ≠ '\r' ∧ c ≠ '\n' ∧ c ≠ ':' ∧ c ≠ ',') :
    escapeProperty s = s := by
  have hplain : s.toList.flatMap escapePropertyChar = s.toList.flatMap fun c => [c] := by
    refine List.flatMap_congr ?_
    intro c hc
    obtain ⟨hpercent, hreturn, hnewline, hcolon, hcomma⟩ := h c hc
    simp [escapePropertyChar, escapeDataChar, hpercent, hreturn, hnewline, hcolon, hcomma]
  rw [escapeProperty, hplain, List.flatMap_singleton', String.ofList_toList]

/-! ## Commands -/

/-- A command with its properties and its text. -/
structure Command where
  name : String
  properties : List (String × String)
  text : String
  deriving DecidableEq

namespace Command

/-- The name of a command and those of its properties are made of letters, and there is a
property. -/
structure WellFormed (c : Command) : Prop where
  name : ∀ d ∈ c.name.toList, d.isAlpha
  properties : c.properties ≠ []
  names : ∀ e ∈ c.properties, ∀ d ∈ e.1.toList, d.isAlpha

def writeProperty (e : String × String) : String := e.1 ++ "=" ++ escapeProperty e.2

/-- The line of a command. -/
def write (c : Command) : String :=
  "::" ++ c.name ++ " " ++ ",".intercalate (c.properties.map writeProperty) ++ "::"
    ++ escapeData c.text

def readProperty (cs : List Char) : String × String :=
  let e := cutAtChar '=' cs
  (String.ofList e.1, String.ofList (unescape e.2))

/-- The command on a line. It starts with two colons, and the next two end its properties. -/
def read? (line : String) : Option Command :=
  match cutAtColons line.toList with
  | some ([], rest) => (cutAtColons rest).map fun e =>
    let head := cutAtChar ' ' e.1
    { name := String.ofList head.1
      properties := (head.2.splitOn ',').map readProperty
      text := String.ofList (unescape e.2) }
  | _ => none

theorem ne_of_isAlpha {c d : Char} (hc : c.isAlpha) (hd : d.isAlpha = false) : c ≠ d := by
  rintro rfl
  rw [hc] at hd
  cases hd

theorem readProperty_writeProperty {e : String × String} (h : ∀ d ∈ e.1.toList, d.isAlpha) :
    readProperty (writeProperty e).toList = e := by
  have hname : '=' ∉ e.1.toList := fun hmem => ne_of_isAlpha (h '=' hmem) rfl rfl
  have hchars : (writeProperty e).toList = e.1.toList ++ '=' :: (escapeProperty e.2).toList := by
    simp [writeProperty]
  unfold readProperty
  rw [hchars, cutAtChar_append hname]
  dsimp only
  rw [unescape_escapeProperty, String.ofList_toList]

theorem ne_of_mem_writeProperty {e : String × String} (h : ∀ d ∈ e.1.toList, d.isAlpha) {d : Char}
    (hd : d ∈ (writeProperty e).toList) : (d ≠ '\r' ∧ d ≠ '\n') ∧ d ≠ ':' ∧ d ≠ ',' := by
  simp only [writeProperty, String.toList_append, List.mem_append] at hd
  rcases hd with (hd | hd) | hd
  · have halpha := h d hd
    exact ⟨⟨ne_of_isAlpha halpha rfl, ne_of_isAlpha halpha rfl⟩, ne_of_isAlpha halpha rfl,
      ne_of_isAlpha halpha rfl⟩
  · obtain rfl : d = '=' := by simpa using hd
    simp
  · exact ne_of_mem_escapeProperty hd

/-- What stands between the colons of a command. -/
def head (c : Command) : List Char :=
  c.name.toList ++ ' ' :: [','].intercalate (c.properties.map fun e => (writeProperty e).toList)

theorem toList_write (c : Command) :
    c.write.toList = ':' :: ':' :: (c.head ++ ':' :: ':' :: (escapeData c.text).toList) := by
  simp [write, head, String.toList_intercalate, Function.comp_def]

section

variable {c : Command} (h : c.WellFormed)
include h

theorem ne_of_mem_head {d : Char} (hd : d ∈ c.head) : (d ≠ '\r' ∧ d ≠ '\n') ∧ d ≠ ':' := by
  rw [head, List.mem_append, List.mem_cons] at hd
  rcases hd with hd | rfl | hd
  · have halpha := h.name d hd
    exact ⟨⟨ne_of_isAlpha halpha rfl, ne_of_isAlpha halpha rfl⟩, ne_of_isAlpha halpha rfl⟩
  · simp
  · rcases mem_intercalate hd with rfl | ⟨piece, hpiece, hd⟩
    · simp
    · obtain ⟨e, he, rfl⟩ := List.mem_map.mp hpiece
      obtain ⟨hline, hcolon, -⟩ := ne_of_mem_writeProperty (h.names e he) hd
      exact ⟨hline, hcolon⟩

/-- A command is one line. -/
theorem ne_of_mem_write {d : Char} (hd : d ∈ c.write.toList) : d ≠ '\r' ∧ d ≠ '\n' := by
  rw [toList_write] at hd
  simp only [List.mem_cons, List.mem_append] at hd
  rcases hd with rfl | rfl | hd | rfl | rfl | hd
  · simp
  · simp
  · exact (ne_of_mem_head h hd).1
  · simp
  · simp
  · exact ne_of_mem_escapeData hd

/-- The properties of a command come apart where they were put together. -/
theorem read_properties :
    (([','].intercalate (c.properties.map fun e => (writeProperty e).toList)).splitOn ',').map
      readProperty = c.properties := by
  rw [List.splitOn_intercalate]
  · rw [List.map_map]
    refine (List.map_congr_left ?_).trans (List.map_id _)
    intro e he
    exact readProperty_writeProperty (h.names e he)
  · intro piece hpiece hcomma
    obtain ⟨e, he, rfl⟩ := List.mem_map.mp hpiece
    exact (ne_of_mem_writeProperty (h.names e he) hcomma).2.2 rfl
  · simp [h.properties]

/-- A command can be read from its line. -/
theorem read?_write : read? c.write = some c := by
  -- The first colons are right at the start, and the head holds none, so the next ones end it.
  have hstart : cutAtColons c.write.toList =
      some ([], c.head ++ ':' :: ':' :: (escapeData c.text).toList) := by
    rw [toList_write]
    exact cutAtColons_append List.not_mem_nil _
  have hhead : ':' ∉ c.head := fun hmem => (ne_of_mem_head h hmem).2 rfl
  have hname : ' ' ∉ c.name.toList := fun hmem => ne_of_isAlpha (h.name ' ' hmem) rfl rfl
  unfold read?
  rw [hstart]
  dsimp only
  rw [cutAtColons_append hhead, Option.map_some, head, cutAtChar_append hname]
  dsimp only
  rw [read_properties h, unescape_escapeData, String.ofList_toList]

end

end Command

end Output

/-! ## Numbers -/

/-- No character of a number has to be escaped. -/
theorem Numeral.escapeProperty_digits (n : Numeral) :
    Output.escapeProperty n.digits = n.digits := by
  cases n with
  | flag b => cases b <;> rfl
  | int n =>
    apply Output.escapeProperty_of_plain
    intro c hc
    have hne : ∀ d : Char, d.isDigit = false → d ≠ '-' → c ≠ d := by
      rintro d hdigit hminus rfl
      rcases mem_digits_int hc with h | h
      · rw [h] at hdigit
        cases hdigit
      · exact hminus h
    exact ⟨hne _ rfl (by decide), hne _ rfl (by decide), hne _ rfl (by decide),
      hne _ rfl (by decide), hne _ rfl (by decide)⟩

end ComponentLint

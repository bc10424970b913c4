-- Characters and the texts they make. A class of characters is given as a
-- table of code point ranges. Blank is the Unicode class: the ASCII blanks,
-- the information separators, the no-break and ideographic spaces and the
-- line and paragraph separators. Each script writes its ten digits as ten
-- consecutive code points, so a table of the zeros is enough.
namespace ComponentLint.Text

/-! ## Classes of characters -/

/-- Whether a character lies in one of the closed ranges of a table. -/
def inRanges (table : List (Nat × Nat)) (c : Char) : Bool :=
  table.any fun r => r.1 ≤ c.toNat && c.toNat ≤ r.2

/-- The blank code points. -/
def blankTable : List (Nat × Nat) :=
  [(0x9, 0xd), (0x1c, 0x20), (0x85, 0x85), (0xa0, 0xa0), (0x1680, 0x1680), (0x2000, 0x200a),
   (0x2028, 0x2029), (0x202f, 0x202f), (0x205f, 0x205f), (0x3000, 0x3000)]

/-- A blank character. -/
def isBlank (c : Char) : Bool := inRanges blankTable c

/-- The code points of the digit zero in each script. -/
def zeroTable : List Nat :=
  0x30 ::
  [0x660, 0x6f0, 0x7c0, 0x966, 0x9e6, 0xa66, 0xae6, 0xb66, 0xbe6, 0xc66, 0xce6, 0xd66, 0xde6,
   0xe50, 0xed0, 0xf20, 0x1040, 0x1090, 0x17e0, 0x1810, 0x1946, 0x19d0, 0x1a80, 0x1a90, 0x1b50,
   0x1bb0, 0x1c40, 0x1c50, 0xa620, 0xa8d0, 0xa900, 0xa9d0, 0xa9f0, 0xaa50, 0xabf0, 0xff10,
   0x104a0, 0x10d30, 0x11066, 0x110f0, 0x11136, 0x111d0, 0x112f0, 0x11450, 0x114d0, 0x11650,
   0x116c0, 0x11730, 0x118e0, 0x11950, 0x11c50, 0x11d50, 0x11da0, 0x16a60, 0x16ac0, 0x16b50,
   0x1d7ce, 0x1d7d8, 0x1d7e2, 0x1d7ec, 0x1d7f6, 0x1e140, 0x1e2f0, 0x1e950, 0x1fbf0]

/-- The value of a decimal digit of any script. -/
def digitValue? (c : Char) : Option Nat :=
  (zeroTable.find? fun z => z ≤ c.toNat && c.toNat < z + 10).map (c.toNat - ·)

/-! ## Blanks around a text -/

/-- The characters without the blanks at their end. -/
def trimEnd (cs : List Char) : List Char := (cs.reverse.dropWhile isBlank).reverse

/-- The characters without the blanks around them. -/
def trim (cs : List Char) : List Char := trimEnd (cs.dropWhile isBlank)

/-- A text without the blanks around it. -/
def trimText (s : String) : String := String.ofList (trim s.toList)

/-- Whether nothing but blanks is there. -/
def allBlank (cs : List Char) : Bool := cs.all isBlank

/-! ## Pieces of a text -/

/-- The characters before the first occurrence of a marker, all of them without one. -/
def beforeFirst (marker : List Char) : List Char → List Char
  | [] => []
  | c :: rest =>
    if (List.isPrefixOf? marker (c :: rest)).isSome then [] else c :: beforeFirst marker rest

/-- Every occurrence of a character replaced by a text. -/
def replaceChar (c : Char) (replacement : String) (s : String) : String :=
  String.ofList (s.toList.flatMap fun d => if d = c then replacement.toList else [d])

/-- ASCII letters made small; all else stays. -/
def lowerText (s : String) : String := String.ofList (s.toList.map Char.toLower)

/-! ## Lines

A line ends at a line feed, a carriage return, the two together, a vertical tab, a form feed, a
file, group or record separator, a next-line mark, or a line or paragraph separator. The text after
the last end counts as a line only when it is not empty. -/

/-- A character that ends a line. -/
def isLineEnd (c : Char) : Bool :=
  (10 ≤ c.toNat && c.toNat ≤ 13) || (0x1c ≤ c.toNat && c.toNat ≤ 0x1e) || c.toNat == 0x85
    || c.toNat == 0x2028 || c.toNat == 0x2029

/-- Puts a character in front of the first line. -/
def consLine (c : Char) : List (List Char) → List (List Char)
  | [] => [[c]]
  | line :: more => (c :: line) :: more

/-- The lines of a text, without their ends. -/
def splitLines : List Char → List (List Char)
  | [] => []
  | '\r' :: '\n' :: rest => [] :: splitLines rest
  | c :: rest => if isLineEnd c then [] :: splitLines rest else consLine c (splitLines rest)

/-- The lines of a text, without their ends. -/
def linesOf (s : String) : List String := (splitLines s.toList).map String.ofList

/-- The characters without one line feed at their end. -/
def withoutFinalFeed (cs : List Char) : List Char :=
  if cs.getLast? = some '\n' then cs.dropLast else cs

end ComponentLint.Text

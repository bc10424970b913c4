-- Binary data as text: four characters of an alphabet of 64 for three bytes.
-- Characters outside of the alphabet are skipped. Padding after two or three
-- characters of a group ends the data.
namespace ComponentLint.Yaml

/-- The six bits that a character stands for. -/
def sextet? (c : Char) : Option Nat :=
  if 'A' ≤ c && c ≤ 'Z' then some (c.toNat - 'A'.toNat)
  else if 'a' ≤ c && c ≤ 'z' then some (c.toNat - 'a'.toNat + 26)
  else if '0' ≤ c && c ≤ '9' then some (c.toNat - '0'.toNat + 52)
  else if c = '+' then some 62
  else if c = '/' then some 63
  else none

/-- A group of characters that is not complete: how many it has, the bits that are left over from
the last one, and the padding right before here. -/
structure Group where
  count : Nat := 0
  left : Nat := 0
  pads : Nat := 0

/-- A group with six more bits, and the byte that they complete. -/
def Group.push (g : Group) (bits : Nat) : Group × Option UInt8 :=
  match g.count with
  | 0 => (⟨1, bits, 0⟩, none)
  | 1 => (⟨2, bits % 16, 0⟩, some (UInt8.ofNat (g.left * 4 + bits / 16)))
  | 2 => (⟨3, bits % 4, 0⟩, some (UInt8.ofNat (g.left * 16 + bits / 4)))
  | _ => (⟨0, 0, 0⟩, some (UInt8.ofNat (g.left * 64 + bits)))

/-- The bytes from a group on; there are none when the last group stays incomplete. -/
def bytesFrom (g : Group) : List Char → Option (List UInt8)
  | [] => if g.count = 0 then some [] else none
  | c :: rest =>
    if c = '=' then
      if 2 ≤ g.count && 4 ≤ g.count + g.pads + 1 then some []
      else bytesFrom (if 2 ≤ g.count then { g with pads := g.pads + 1 } else g) rest
    else
      match sextet? c with
      | none => bytesFrom g rest
      | some bits =>
        let (g, byte) := g.push bits
        (bytesFrom g rest).map (byte.toList ++ ·)

/-- The bytes of binary data, which is written in ASCII. -/
def readBinary? (cs : List Char) : Option (List UInt8) :=
  if cs.all fun c => c.toNat < 128 then bytesFrom {} cs else none

end ComponentLint.Yaml

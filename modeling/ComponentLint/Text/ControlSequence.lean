-- Control sequences of terminals, and texts without them. A sequence is an
-- escape character and an opening bracket, then parameters, then
-- intermediate characters, and one character that ends it.
namespace ComponentLint.Text

/-- A character among the parameters of a sequence. -/
def isParameter (c : Char) : Bool := '0' ≤ c && c ≤ '?'

/-- A character between the parameters and the end of a sequence. -/
def isIntermediate (c : Char) : Bool := ' ' ≤ c && c ≤ '/'

/-- A character that ends a sequence. -/
def isFinal (c : Char) : Bool := '@' ≤ c && c ≤ '~'

/-- What follows a sequence, given the characters after its opening bracket. -/
def afterSequence? (cs : List Char) : Option (List Char) :=
  match (cs.dropWhile isParameter).dropWhile isIntermediate with
  | c :: rest => if isFinal c then some rest else none
  | [] => none

/-- What follows a sequence is shorter than the sequence. -/
theorem afterSequence?_length {cs rest : List Char} (h : afterSequence? cs = some rest) :
    rest.length < cs.length := by
  have hle {p : Char → Bool} (l : List Char) : (l.dropWhile p).length ≤ l.length :=
    (List.dropWhile_sublist p).length_le
  have h1 := hle (p := isParameter) cs
  have h2 := hle (p := isIntermediate) (cs.dropWhile isParameter)
  simp only [afterSequence?] at h
  split at h
  · next heq =>
    rw [heq] at h2
    split at h
    · simp only [Option.some.injEq] at h
      subst h
      simp only [List.length_cons] at h2
      omega
    · simp at h
  · simp at h

/-- The characters outside every control sequence. -/
def withoutSequences (cs : List Char) : List Char :=
  match cs with
  | [] => []
  | c :: rest =>
    if c = '\x1b' then
      match rest with
      | '[' :: more =>
        match _h : afterSequence? more with
        | some after => withoutSequences after
        | none => c :: '[' :: withoutSequences more
      | rest => c :: withoutSequences rest
    else c :: withoutSequences rest
termination_by cs.length
decreasing_by
  all_goals simp_all only [List.length_cons]
  all_goals first
    | (have h' := afterSequence?_length ‹_›
       omega)
    | omega

/-- A text without its control sequences. -/
def plainText (s : String) : String := String.ofList (withoutSequences s.toList)

end ComponentLint.Text

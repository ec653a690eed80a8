import EntityGraph.Text.ClusterTable

/-!
# Characters as readers see them

A reader sees a letter with its marks as one character, and likewise a syllable that is written with
several letters, a flag, or a picture that is joined from several. `clusters` cuts a text into these
characters; `joins` is the rule for a single boundary.
-/

namespace EntityGraph.Text

/-- Whether a character is in a table. -/
def isIn (table : List CodeRange) (c : Char) : Bool :=
  128 ≤ c.toNat && inTable table c.toNat

/-- The character that joins pictures. -/
def joiner : Char := '\u200D'

/-- The character that keeps letters from being tied. -/
def nonJoiner : Char := '\u200C'

/-- Whether a character stands alone. -/
def isControl (c : Char) : Bool :=
  inTable controls c.toNat

/-- Whether a character extends the character before it. -/
def isExtender (c : Char) : Bool :=
  isIn extenders c

/-- Whether a character is a mark that belongs to the character before it. -/
def isMark (c : Char) : Bool :=
  isExtender c || c == joiner || isIn spacingMarks c

/-- Whether a code point is in some range. -/
def between (ranges : List (Nat × Nat)) (n : Nat) : Bool :=
  ranges.any fun (first, last) => first ≤ n && n ≤ last

/-- A letter of a Korean syllable: initial, medial or final, or a whole syllable with or without a
final. -/
inductive Jamo where
  | initial
  | medial
  | final
  | open
  | closed
  deriving DecidableEq

/-- The part of a syllable that a character is. -/
def jamo? (c : Char) : Option Jamo :=
  let n := c.toNat
  if between [(0x1100, 0x115F), (0xA960, 0xA97C)] n then some .initial
  else if between [(0x1160, 0x11A7), (0xD7B0, 0xD7C6)] n then some .medial
  else if between [(0x16D63, 0x16D63), (0x16D67, 0x16D6A)] n then some .medial
  else if between [(0x11A8, 0x11FF), (0xD7CB, 0xD7FB)] n then some .final
  else if between [(0xAC00, 0xD7A3)] n then
    some (if (n - 0xAC00) % 28 = 0 then .open else .closed)
  else none

/-- Whether a syllable goes on after a part of it with another part. -/
def Jamo.continues : Jamo → Jamo → Bool
  | .initial, next => next != .final
  | .medial, next => next == .medial || next == .final
  | .open, next => next == .medial || next == .final
  | .final, next => next == .final
  | .closed, next => next == .final

/-- Whether two characters are parts of one syllable. -/
def isSyllable (before c : Char) : Bool :=
  match jamo? before, jamo? c with
  | some p, some q => p.continues q
  | _, _ => false

/-- Whether the marks at the end of a cluster (its last character first) tie the consonant before
them to the next one. -/
def endsTied (cluster : List Char) : Bool :=
  let marks := cluster.takeWhile fun c => (isExtender c && c != nonJoiner) || c == joiner
  let base := (cluster.drop marks.length).head?
  marks.any (isIn conjunctLinkers) && base.any (isIn conjunctConsonants)

/-- Whether a cluster (its last character first) ends with a picture, its marks and a joiner. -/
def endsJoined : List Char → Bool
  | [] => false
  | c :: rest => c == joiner && (rest.dropWhile isExtender).head?.any (isIn pictographs)

/-- Whether a character is half of a flag. -/
def isFlagHalf (c : Char) : Bool :=
  between [(0x1F1E6, 0x1F1FF)] c.toNat

/-- Whether a cluster (its last character first) goes on with a character. -/
def joins (cluster : List Char) (c : Char) : Bool :=
  match cluster with
  | [] => false
  | last :: _ =>
    if last = '\r' then c == '\n'
    else if isControl last || isControl c then false
    else isMark c || isIn prependers last || isSyllable last c
      || (isIn conjunctConsonants c && endsTied cluster)
      || (isIn pictographs c && endsJoined cluster)
      || (isFlagHalf c && (cluster.takeWhile isFlagHalf).length % 2 == 1)

/-- The clusters of a text that goes on after the start of a cluster (its last character first). -/
def clustersAfter (cluster : List Char) : List Char → List (List Char)
  | [] => [cluster.reverse]
  | c :: rest =>
    if joins cluster c then clustersAfter (c :: cluster) rest
    else cluster.reverse :: clustersAfter [c] rest

/-- The characters of a text as readers see them. -/
def clusters : List Char → List (List Char)
  | [] => []
  | c :: rest => clustersAfter [c] rest

end EntityGraph.Text

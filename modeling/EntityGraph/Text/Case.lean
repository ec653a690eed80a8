import EntityGraph.Text.CaseTable

/-!
# Small and capital letters

The case mappings of Unicode on character lists, with the two rules that look beyond a letter: a
capital form may take several letters, and the last sigma of a word has a small form of its own.

* `lower` and `upper` map a whole text;
* `capitalize` and `decapitalize` map its first letter only;
* `isCapital` is the property Uppercase.
-/

namespace EntityGraph.Text

/-- The small form of a letter, wherever it stands. -/
def smallForm (c : Char) : List Char :=
  if c.toNat < 128 then [c.toLower]
  else if c = 'İ' then ['i', '\u0307']
  else [((image? smallForms c.toNat).map Char.ofNat).getD c]

/-- The capital form of a letter. -/
def capitalForm (c : Char) : List Char :=
  if c.toNat < 128 then [c.toUpper]
  else match longCapitalForms.lookup c.toNat with
    | some letters => letters.map Char.ofNat
    | none => [((image? capitalForms c.toNat).map Char.ofNat).getD c]

/-- Whether a letter is a capital. -/
def isCapital (c : Char) : Bool :=
  if c.toNat < 128 then c.isUpper else inTable capitals c.toNat

/-- Whether a text reaches a cased letter after what the rule for a final sigma skips. -/
def reachesCased (s : List Char) : Bool :=
  match s.dropWhile fun c => inTable caseIgnorables c.toNat with
  | [] => false
  | c :: _ => inTable casedLetters c.toNat

/-- The small form of a sigma, given what stands before it (nearest first) and after it. -/
def smallSigma (before after : List Char) : Char :=
  if reachesCased before && !reachesCased after then 'ς' else 'σ'

/-- The small form of a text that follows `before` (nearest first). -/
def lowerAfter (before : List Char) : List Char → List Char
  | [] => []
  | c :: rest =>
    (if c = 'Σ' then [smallSigma before rest] else smallForm c) ++ lowerAfter (c :: before) rest

/-- The small form of a text. -/
def lower (s : List Char) : List Char :=
  lowerAfter [] s

/-- The capital form of a text. -/
def upper (s : List Char) : List Char :=
  s.flatMap capitalForm

/-- A text with its first letter in capital form. -/
def capitalize : List Char → List Char
  | [] => []
  | c :: rest => capitalForm c ++ rest

/-- A text with its first letter in small form. -/
def decapitalize : List Char → List Char
  | [] => []
  | c :: rest => smallForm c ++ rest

/-- A text with its ASCII letters in small form. -/
def lowerAscii (s : List Char) : List Char :=
  s.map Char.toLower

end EntityGraph.Text

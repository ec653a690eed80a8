import EntityGraph.Text.Word

/-!
# Quotations

Texts between quotation marks, with escapes or without, and single characters. Besides texts there
are quotations of bytes and quotations that a zero ends; they differ in what they can hold.

* `Quotation.text?` reads a text with escapes;
* `Quotation.raw?` reads a text that ends at a mark with hash marks;
* `Quotation.character?` reads a single character.
-/

namespace EntityGraph

/-- What a quotation holds. -/
inductive Quotation where
  | characters
  | bytes
  /-- Characters before a zero. -/
  | terminated
  deriving DecidableEq

namespace Quotation

/-- Whether a quotation can hold a character. -/
def allows : Quotation → Char → Bool
  | characters, _ => true
  | bytes, c => c.toNat < 128
  | terminated, c => c.toNat != 0

/-- The value of a digit in base sixteen. -/
def hexDigit? (c : Char) : Option Nat :=
  let n := c.toNat
  if 48 ≤ n ∧ n ≤ 57 then some (n - 48)
  else if 97 ≤ n ∧ n ≤ 102 then some (n - 87)
  else if 65 ≤ n ∧ n ≤ 70 then some (n - 55)
  else none

/-- The character that a letter after a backslash stands for. -/
def letter? (q : Quotation) (c : Char) : Option Char :=
  if c = 'n' then some '\n'
  else if c = 'r' then some '\r'
  else if c = 't' then some '\t'
  else if c = '0' ∧ q ≠ terminated then some (Char.ofNat 0)
  else if c = '\\' ∨ c = '"' ∨ c = '\'' then some c
  else none

/-- Whether two digits can give the code of a character. -/
def allowsCode : Quotation → Nat → Bool
  | characters, code => code < 128
  | bytes, _ => true
  | terminated, code => code != 0

/-- Whether a number is a code point of a character. -/
def isCodePoint (n : Nat) : Bool :=
  n < 0xD800 || (0xE000 ≤ n && n < 0x110000)

/-- The value of at most six digits up to a closing brace, given how many have been read and their
value. Underscores may follow the first digit. -/
def codePoint? (count value : Nat) : List Char → Option (Nat × List Char)
  | [] => none
  | c :: rest =>
    if c = '\x7d' then if count = 0 ∨ !isCodePoint value then none else some (value, rest)
    else if c = '_' then if count = 0 then none else codePoint? count value rest
    else match hexDigit? c with
      | some d => if count = 6 then none else codePoint? (count + 1) (16 * value + d) rest
      | none => none

/-- The character of an escape, and what follows it. -/
def escape? (q : Quotation) : List Char → Option (Char × List Char)
  | 'x' :: high :: low :: rest => do
    let code := 16 * (← hexDigit? high) + (← hexDigit? low)
    if q.allowsCode code then return (Char.ofNat code, rest) else none
  | 'u' :: '\x7b' :: rest => do
    let (code, rest) ← codePoint? 0 0 rest
    if q = bytes ∨ (q = terminated ∧ code = 0) then none else return (Char.ofNat code, rest)
  | c :: rest => (q.letter? c).map fun e => (e, rest)
  | [] => none

/-- What follows a line break in a text and the blanks after it. -/
def continued? : List Char → Option (List Char)
  | [] => none
  | '\r' :: '\n' :: rest => continued? rest
  | c :: rest =>
    if c = '\r' then none
    else if c = ' ' ∨ c = '\t' ∨ c = '\n' then continued? rest
    else some (c :: rest)

/-- The characters up to the closing quotation mark within so many characters, and what follows it.
A backslash at the end of a line leaves out the break and the blanks after it, and a line break is
a line feed however it is written. -/
def textUpTo (q : Quotation) : Nat → List Char → Option (List Char × List Char)
  | n + 1, c :: rest =>
    let first := fun (c : Char) (rest : List Char) =>
      (q.textUpTo n rest).map fun (s, rest) => (c :: s, rest)
    if c = '"' then some ([], rest)
    else if c = '\\' then
      if rest.head?.any fun c => c == '\n' || c == '\r' then
        (continued? rest).bind fun rest => q.textUpTo n rest
      else (q.escape? rest).bind fun (e, rest) => first e rest
    else if c = '\r' then
      match rest with
      | '\n' :: rest => first '\n' rest
      | _ => none
    else if q.allows c then first c rest
    else none
  | _, _ => none

/-- The characters up to the closing quotation mark, and what follows it. -/
def text? (q : Quotation) (s : List Char) : Option (List Char × List Char) :=
  q.textUpTo s.length s

/-- The characters up to a quotation mark that so many hash marks follow, and what follows them. -/
def rawUpTo (q : Quotation) (hashes : Nat) : List Char → Option (List Char × List Char)
  | [] => none
  | '\r' :: '\n' :: rest => (q.rawUpTo hashes rest).map fun (s, rest) => ('\r' :: '\n' :: s, rest)
  | c :: rest =>
    if c = '"' ∧ rest.take hashes = List.replicate hashes '#' then some ([], rest.drop hashes)
    else if c = '\r' ∨ !q.allows c then none
    else (q.rawUpTo hashes rest).map fun (s, rest) => (c :: s, rest)

/-- A text without escapes, from the hash marks before its quotation mark on, and what follows
it. -/
def raw? (q : Quotation) (s : List Char) : Option (List Char × List Char) :=
  let hashes := (s.takeWhile (· == '#')).length
  match s.drop hashes with
  | '"' :: rest => if hashes ≤ 255 then q.rawUpTo hashes rest else none
  | _ => none

/-- What follows a single character and its closing mark. -/
def character? (q : Quotation) (s : List Char) : Option (List Char) := do
  let (_, rest) ← match s with
    | '\\' :: rest => q.escape? rest
    | c :: rest => if q.allows c then some (c, rest) else none
    | [] => none
  match rest with
  | '\'' :: rest => return rest
  | _ => none

end Quotation

end EntityGraph

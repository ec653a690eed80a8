import EntityGraph.Declaration.Gap
import EntityGraph.Declaration.Numeral
import EntityGraph.Text.Quoted

/-!
# Tokens of attributes

An attribute is written with words, texts between quotation marks, other constants, punctuation
marks and brackets. Brackets nest, so the tokens form trees.

* `Lexeme.scan` cuts a text into lexemes;
* `Token.nest` gathers what stands between brackets;
* `Token.write` is how a token is written.
-/

namespace EntityGraph

/-- A piece of an attribute. -/
inductive Token where
  /-- A name or a keyword. -/
  | word (s : String)
  /-- A text, as it is written and what it says. -/
  | text (spelling value : String)
  /-- A number, a character or a quotation of bytes, as it is written. -/
  | constant (spelling : String)
  /-- A punctuation character, and whether another one follows it right away. -/
  | mark (c : Char) (touches : Bool)
  /-- What stands between two brackets. -/
  | group (bracket : Char) (content : List Token)

/-- A token without brackets, or a single bracket. -/
inductive Lexeme where
  | token (t : Token)
  | opening (c : Char)
  | closing (c : Char)

namespace Lexeme

/-- A constant, given what follows it; a word right after it belongs to it. -/
def constant (s rest : List Char) : Token × List Char :=
  let rest := Text.dropWord rest
  (.constant (String.ofList (Text.readPart s rest)), rest)

/-- A text, given what it says and what follows it; a word right after it belongs to it. -/
def text (s value rest : List Char) : Token × List Char :=
  let rest := Text.dropWord rest
  (.text (String.ofList (Text.readPart s rest)) (String.ofList value), rest)

/-- The quotation at the start of a text, and what follows it. -/
def quotation? (s : List Char) : Option (Token × List Char) :=
  match s with
  | '"' :: rest => (Quotation.text? .characters rest).map fun (v, rest) => text s v rest
  | 'b' :: '"' :: rest => (Quotation.text? .bytes rest).map fun (_, rest) => constant s rest
  | 'c' :: '"' :: rest => (Quotation.text? .terminated rest).map fun (_, rest) => constant s rest
  | 'b' :: 'r' :: rest => (Quotation.raw? .bytes rest).map fun (_, rest) => constant s rest
  | 'c' :: 'r' :: rest => (Quotation.raw? .terminated rest).map fun (_, rest) => constant s rest
  | 'b' :: '\'' :: rest => (Quotation.character? .bytes rest).map fun rest => constant s rest
  | 'r' :: rest => (Quotation.raw? .characters rest).map fun (v, rest) => text s v rest
  | '\'' :: rest => (Quotation.character? .characters rest).map fun rest => constant s rest
  | _ => none

/-- The text, the character or the number at the start of a text, and what follows it. -/
def literal? (s : List Char) : Option (Token × List Char) :=
  (quotation? s).or ((Numeral.read? s).map fun rest =>
    (.constant (String.ofList (Text.readPart s rest)), rest))

/-- The names that the sign for names does not apply to. -/
def unquotable : List String :=
  ["_", "super", "self", "Self", "crate"]

/-- The word at the start of a text, perhaps after the sign that makes a keyword a name, and what
follows it. -/
def name? : List Char → Option (List Char × List Char)
  | 'r' :: '#' :: rest => do
    let (w, rest) ← Text.word? rest
    if String.ofList w ∈ unquotable then none else return ('r' :: '#' :: w, rest)
  | s => Text.word? s

/-- Whether a text starts like a quotation, so that it starts with no word. -/
def startsQuotation (s : List Char) : Bool :=
  ["r\"", "r#\"", "r##", "b\"", "b'", "br\"", "br#", "c\"", "cr\"", "cr#"].any
    fun start => start.toList.isPrefixOf s

/-- The word at the start of a text, and what follows it. -/
def word? (s : List Char) : Option (Token × List Char) :=
  if startsQuotation s then none
  else (name? s).map fun (w, rest) => (.word (String.ofList w), rest)

/-- Whether a text starts with a punctuation character, and not with a comment. -/
def startsMark : List Char → Bool
  | '/' :: '/' :: _ => false
  | '/' :: '*' :: _ => false
  | c :: _ => "~!@#$%^&*-=+|;:,<.>/?'".toList.contains c
  | [] => false

/-- The punctuation character at the start of a text, and what follows it. An apostrophe has to
stand before a name that no other apostrophe ends. -/
def mark? (s : List Char) : Option (Token × List Char) :=
  match s with
  | '\'' :: rest => do
    let (w, after) ← name? rest
    if after.head? = some '\'' ∨ (after.head? = some '#' ∧ w.take 2 ≠ ['r', '#']) then none
    else return (.mark '\'' true, rest)
  | c :: rest => if startsMark s then some (.mark c (startsMark rest), rest) else none
  | [] => none

/-- What stands for a part of a text that could not be expanded. -/
def placeholder : String := "(/*ERROR*/)"

/-- The lexeme at the start of a text, and what follows it. -/
def first? (s : List Char) : Option (Lexeme × List Char) :=
  match s with
  | [] => none
  | c :: rest =>
    if placeholder.toList.isPrefixOf s then
      some (token (.constant placeholder), s.drop placeholder.length)
    else if c = '(' ∨ c = '[' ∨ c = '\x7b' then some (opening c, rest)
    else if c = ')' ∨ c = ']' ∨ c = '\x7d' then some (closing c, rest)
    else (((literal? s).or (mark? s)).or (word? s)).map fun (t, rest) => (token t, rest)

/-- The attribute that a documenting comment stands for. -/
def ofComment (inner : Bool) (content : List Char) : List Lexeme :=
  let value := String.ofList content
  let content := [Token.word "doc", .mark '=' false, .text (Text.quoted value) value]
  let sign := if inner then [Token.mark '#' false, .mark '!' false] else [.mark '#' false]
  (sign ++ [Token.group '[' content]).map token

/-- Cut a text of fewer than so many characters into lexemes. -/
def scan : Nat → List Char → Option (List Lexeme)
  | 0, _ => none
  | n + 1, s =>
    let s := Gap.skip s
    if s.isEmpty then some []
    else match Gap.documentation? s with
      | some (inner, content, rest) => (scan n rest).map (ofComment inner content ++ ·)
      | none => do
        let (l, rest) ← first? s
        return l :: (← scan n rest)

end Lexeme

namespace Token

/-- The bracket that closes another. -/
def partner (bracket : Char) : Char :=
  if bracket = '(' then ')' else if bracket = '[' then ']' else '\x7d'

/-- Gather lexemes into tokens, given the tokens read so far inside the innermost open bracket, and
for every open bracket the tokens before it. -/
def nest : List (Char × List Token) → List Token → List Lexeme → Option (List Token)
  | [], done, [] => some done
  | _ :: _, _, [] => none
  | outer, done, .token t :: rest => nest outer (done ++ [t]) rest
  | outer, done, .opening c :: rest => nest ((c, done) :: outer) [] rest
  | (bracket, before) :: outer, done, .closing c :: rest =>
    if c = partner bracket then nest outer (before ++ [group bracket done]) rest else none
  | [], _, .closing _ :: _ => none

/-- The tokens of a text. -/
def ofText? (s : String) : Option (List Token) :=
  (Lexeme.scan (s.toList.length + 1) s.toList).bind (nest [] [])

mutual

/-- How a token is written. -/
def write : Token → String
  | word s => s
  | text spelling _ => spelling
  | constant spelling => spelling
  | mark c _ => String.singleton c
  | group bracket content =>
    String.singleton bracket ++ writeAll content ++ String.singleton (partner bracket)

/-- How tokens are written, one right after the other. -/
def writeAll : List Token → String
  | [] => ""
  | t :: rest => write t ++ writeAll rest

end

mutual

/-- The number of tokens in a token. -/
def size : Token → Nat
  | group _ content => sizeAll content + 1
  | _ => 1

/-- The number of tokens in tokens. -/
def sizeAll : List Token → Nat
  | [] => 0
  | t :: rest => size t + sizeAll rest

end

/-- Whether a token is a number. -/
def isNumber : Token → Bool
  | constant spelling => spelling.toList.head?.any Char.isDigit
  | _ => false

/-- The words that are no names. -/
def keywords : List String :=
  ["_", "abstract", "as", "async", "await", "become", "box", "break", "const", "continue", "crate",
   "do", "dyn", "else", "enum", "extern", "false", "final", "fn", "for", "if", "impl", "in", "let",
   "loop", "macro", "match", "mod", "move", "mut", "override", "priv", "pub", "ref", "return",
   "Self", "self", "static", "struct", "super", "trait", "true", "try", "type", "typeof", "unsafe",
   "unsized", "use", "virtual", "where", "while", "yield"]

/-- Whether tokens start with the characters of a punctuation mark, each touching the next. -/
def startMark : List Char → List Token → Bool
  | [], _ => true
  | d :: more, mark c touches :: rest =>
    c == d && (touches || more.isEmpty) && startMark more rest
  | _ :: _, _ => false

/-- Whether tokens start with a word. -/
def startWord (w : String) : List Token → Bool
  | word s :: _ => s == w
  | _ => false

/-- Whether tokens start with any word. -/
def startAnyWord : List Token → Bool
  | word _ :: _ => true
  | _ => false

/-- Whether tokens start with a name. -/
def startName : List Token → Bool
  | word s :: _ => !keywords.contains s
  | _ => false

/-- Whether tokens start with a bracket. -/
def startGroup (bracket : Char) : List Token → Bool
  | group b _ :: _ => b == bracket
  | _ => false

/-- Whether tokens start with a lifetime, which is a word after an apostrophe. -/
def startLifetime : List Token → Bool
  | mark '\'' _ :: word _ :: _ => true
  | _ => false

/-- The number of tokens of the literal that tokens start with: a constant, a truth value or a
number below zero. -/
def literalSize : List Token → Nat
  | text _ _ :: _ => 1
  | constant _ :: _ => 1
  | word s :: _ => if s = "true" ∨ s = "false" then 1 else 0
  | mark '-' _ :: t :: _ => if t.isNumber then 2 else 0
  | _ => 0

end Token

end EntityGraph

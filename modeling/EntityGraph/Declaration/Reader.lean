import EntityGraph.Declaration.Token

/-!
# Readers

A reader reads tokens from the front and writes the text of what it has read. It fails where the
tokens do not follow its rule.

* `Reader.sees` looks ahead;
* `Reader.mark`, `word`, `name`, `lifetime`, `literal` and `within` read;
* `Reader.chain` reads items, and `Reader.items` reads items with commas between them.
-/

namespace EntityGraph

/-- How far tokens have been read: what is left of them, and the text of the others. -/
structure Reading where
  rest : List Token
  text : String

/-- A rule that tokens can follow. -/
abbrev Reader := StateT Reading Option

namespace Reader

/-- Whether the tokens left meet a condition. -/
def sees (p : List Token → Bool) : Reader Bool := do
  return p (← get).rest

/-- Whether nothing is left. -/
def seesEnd : Reader Bool :=
  sees List.isEmpty

/-- Whether a punctuation mark comes next. -/
def seesMark (s : String) : Reader Bool :=
  sees (Token.startMark s.toList)

/-- Whether a word comes next. -/
def seesWord (w : String) : Reader Bool :=
  sees (Token.startWord w)

/-- Whether a bracket comes next. -/
def seesGroup (bracket : Char) : Reader Bool :=
  sees (Token.startGroup bracket)

/-- Read so many tokens. -/
def take (n : Nat) : Reader Unit :=
  modify fun r => ⟨r.rest.drop n, r.text ++ Token.writeAll (r.rest.take n)⟩

/-- Read so many tokens if the tokens left meet a condition, and tell whether they do. -/
def takeIf (p : List Token → Bool) (n : Nat) : Reader Bool := do
  if ← sees p then
    take n
    return true
  return false

/-- Read so many tokens that have to meet a condition. -/
def expect (p : List Token → Bool) (n : Nat) : Reader Unit := do
  if !(← takeIf p n) then failure

/-- Read a punctuation mark. -/
def mark (s : String) : Reader Unit :=
  expect (Token.startMark s.toList) s.length

/-- Read a punctuation mark if it comes next. -/
def markIf (s : String) : Reader Bool :=
  takeIf (Token.startMark s.toList) s.length

/-- Read a word. -/
def word (w : String) : Reader Unit :=
  expect (Token.startWord w) 1

/-- Read a word if it comes next. -/
def wordIf (w : String) : Reader Bool :=
  takeIf (Token.startWord w) 1

/-- Read a name. -/
def name : Reader Unit :=
  expect Token.startName 1

/-- Read a lifetime. -/
def lifetime : Reader Unit :=
  expect Token.startLifetime 2

/-- Read a lifetime if it comes next. -/
def lifetimeIf : Reader Bool :=
  takeIf Token.startLifetime 2

/-- Whether a literal comes next. -/
def seesLiteral : Reader Bool :=
  sees fun rest => Token.literalSize rest != 0

/-- Read a literal. -/
def literal : Reader Unit := do
  let n := Token.literalSize (← get).rest
  if n = 0 then failure else take n

/-- Read a bracket and all that stands in it by a rule. -/
def within {α : Type} (bracket : Char) (rule : Reader α) : Reader α := fun r =>
  match r.rest with
  | .group b content :: rest => do
    let (a, inner) ← rule ⟨content, ""⟩
    if b = bracket ∧ inner.rest.isEmpty then
      return (a, ⟨rest, r.text ++ String.singleton b ++ inner.text ++
        String.singleton (Token.partner b)⟩)
    else none
  | _ => none

/-- Read a bracket of any kind, whatever stands in it. -/
def anyGroup : Reader Unit :=
  expect (fun | .group _ _ :: _ => true | _ => false) 1

/-- Read by a rule without writing, and tell what it would have written. -/
def unwritten {α : Type} (rule : Reader α) : Reader (α × String) := fun r => do
  let (a, after) ← rule ⟨r.rest, ""⟩
  return ((a, after.text), ⟨after.rest, r.text⟩)

/-- Write a text. -/
def write (s : String) : Reader Unit :=
  modify fun r => ⟨r.rest, r.text ++ s⟩

/-- Read by a rule as long as it tells to go on, but at most so many times. -/
def againUpTo : Nat → Reader Bool → Reader Unit
  | 0, _ => pure ()
  | n + 1, rule => do
    if ← rule then againUpTo n rule

/-- Read by a rule as long as it tells to go on; it reads a token whenever it does. -/
def again (rule : Reader Bool) : Reader Unit := do
  againUpTo ((← get).rest.length + 1) rule

/-- Read at most so many items, each after another if there are more. -/
def chainUpTo {α : Type} (item : Reader α) (more : Reader Bool) : Nat → Reader (List α)
  | 0 => pure []
  | n + 1 => do
    let a ← item
    if ← more then return a :: (← chainUpTo item more n)
    return [a]

/-- Read items, at least one, each after another if there are more. -/
def chain {α : Type} (item : Reader α) (more : Reader Bool) : Reader (List α) := do
  chainUpTo item more ((← get).rest.length + 1)

/-- Read items with commas between them, up to a condition. A comma may follow the last one. -/
def items {α : Type} (stop : List Token → Bool) (item : Reader α) : Reader (List α) := do
  if ← sees stop then return []
  chain item do
    if ← sees stop then return false
    mark ","
    return !(← sees stop)

/-- Read all that is left as items with commas between them. -/
def allItems {α : Type} (item : Reader α) : Reader (List α) :=
  items List.isEmpty item

end Reader

end EntityGraph

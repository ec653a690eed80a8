import EntityGraph.Declaration.Grammar.Expression
import EntityGraph.Declaration.Grammar.Type

/-!
# The grammar of paths

The rules go through each other, and every second time at the latest a token is read. So as many
rounds as twice the number of tokens are enough for all that tokens can nest.

* `Grammar.pathText?` is the text of the path that tokens make.
-/

namespace EntityGraph.Grammar

/-- The grammar that fits nothing. -/
def empty : Grammar where
  type _ := failure
  arguments := failure
  expression _ := failure
  standalone := failure
  block := failure
  pattern := failure

/-- The rules over given rules. -/
def rules (g : Grammar) : Grammar where
  type := g.typeRule
  arguments := g.argumentsRule
  expression := g.expressionRule
  standalone := g.standaloneRule
  block := g.blockRule
  pattern := g.patternRule

/-- The rules that can go through each other so many times. -/
def bounded : Nat → Grammar
  | 0 => empty
  | n + 1 => (bounded n).rules

/-- The text of the path that tokens make, if they make one. -/
def pathText? (tokens : List Token) : Option String := do
  let (_, reading) ← (bounded (2 * Token.sizeAll tokens + 2)).path false ⟨tokens, ""⟩
  if reading.rest.isEmpty then return reading.text else none

end EntityGraph.Grammar

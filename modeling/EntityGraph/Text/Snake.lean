import EntityGraph.Text.Case
import EntityGraph.Text.Cluster

/-!
# Snake case

Names of properties and models become names of columns and tables: words in small letters, joined
by underscores. A word ends at a hyphen, an underscore or a space, and between a small letter and a
capital.
-/

namespace EntityGraph.Text

/-- A separator, which belongs to no word. -/
def isSeparator (g : List Char) : Bool :=
  g == ['-'] || g == ['_'] || g == [' ']

/-- A cluster that has two forms and is in its small one. -/
def isSmallCluster (g : List Char) : Bool :=
  upper g != lower g && g == lower g

/-- A cluster that has two forms and is in its capital one. -/
def isCapitalCluster (g : List Char) : Bool :=
  upper g != lower g && g == upper g

/-- The words of a text cut into clusters; the first word may be empty. -/
def nameWords : List (List Char) → List (List Char)
  | [] => [[]]
  | g :: rest =>
    if isSeparator g then [] :: nameWords rest
    else
      let breaks := match rest with
        | next :: _ => isSmallCluster g && isCapitalCluster next
        | [] => false
      match nameWords rest with
      | word :: more => if breaks then g :: word :: more else (g ++ word) :: more
      | [] => [g]

/-- The snake case form of a text. -/
def snakeCase (s : List Char) : List Char :=
  ['_'].intercalate (((nameWords (clusters s)).filter (!·.isEmpty)).map lower)

end EntityGraph.Text

namespace EntityGraph

/-- The snake case form of a name. -/
def snakeCase (s : String) : String :=
  String.ofList (Text.snakeCase s.toList)

end EntityGraph

import EntityGraph.Text.Case

/-!
# Plurals

Plural forms of names in two languages. A compound name is inflected by its last word, which starts
at a capital letter; irregular words come first, then the rules by ending, of which the first that
fits decides.
-/

namespace EntityGraph.Plural

/-- Whether a text ends in one of some endings. -/
def endsInOne (s : List Char) (endings : List String) : Bool :=
  endings.any fun e => e.toList.isSuffixOf s

/-- A text without its last `n` characters. -/
def dropLast (n : Nat) (s : List Char) : List Char :=
  s.take (s.length - n)

/-- The number of bytes of a text in UTF-8. -/
def byteCount (s : List Char) : Nat :=
  s.foldl (fun n c => n + c.utf8Size) 0

/-- The two parts of a text around the boundary after `n` bytes, if a character starts there. -/
def splitBytes (n : Nat) : List Char → Option (List Char × List Char)
  | [] => if n = 0 then some ([], []) else none
  | c :: rest =>
    if n = 0 then some ([], c :: rest)
    else if c.utf8Size ≤ n then
      (splitBytes (n - c.utf8Size) rest).map fun (before, after) => (c :: before, after)
    else none

/-- The plural of a name whose last word is irregular, as the entry `singular` gives it. -/
def byException (word : List Char) (singular plural : List Char) : Option (List Char) := do
  if !singular.isSuffixOf (Text.lower word) then none
  else if byteCount word < byteCount singular then none
  else
    let (start, last) ← splitBytes (byteCount word - byteCount singular) word
    let first ← last.head?
    if !start.isEmpty && !Text.isCapital first then none
    else return start ++ (if Text.isCapital first then Text.capitalize plural else plural)

/-- The plural of a name whose last word is irregular: the first entry that fits decides. -/
def irregular (exceptions : List (String × String)) (word : List Char) : Option (List Char) :=
  exceptions.findSome? fun (singular, plural) => byException word singular.toList plural.toList

/-- The irregular words of English. -/
def englishExceptions : List (String × String) :=
  [("person", "people"), ("child", "children"), ("woman", "women"), ("man", "men"),
   ("mouse", "mice"), ("datum", "data")]

/-- The regular English plural of a name. -/
def regularEnglish (word : List Char) : List Char :=
  let small := Text.lower word
  let vowelBeforeLast := match small.reverse with
    | _ :: c :: _ => "aeiou".toList.contains c
    | _ => false
  if endsInOne small ["is"] then dropLast 2 word ++ "es".toList
  else if endsInOne small ["s", "sh", "ch", "x", "z"] then word ++ "es".toList
  else if endsInOne small ["fe"] then dropLast 2 word ++ "ves".toList
  else if endsInOne small ["y"] && !vowelBeforeLast then dropLast 1 word ++ "ies".toList
  else word ++ "s".toList

/-- The English plural of a name. -/
def english (word : String) : String :=
  String.ofList <| (irregular englishExceptions word.toList).getD (regularEnglish word.toList)

/-- The irregular words of German. -/
def germanExceptions : List (String × String) :=
  [("job", "jobs"), ("login", "logins"), ("konto", "konten"), ("pizza", "pizzen"),
   ("kaktus", "kakteen")]

/-- The regular German plural of a name. -/
def regularGerman (word : List Char) : List Char :=
  let small := Text.lower word
  let ends := endsInOne small
  if ends ["e"] then word ++ "n".toList
  else if ends ["ent", "and", "ant", "ist", "or", "in", "ion", "ik", "heit", "keit", "schaft",
      "tät", "ung"] then word ++ "en".toList
  else if ends ["ma"] then dropLast 1 word ++ "en".toList
  else if ends ["um"] then dropLast 2 word ++ "en".toList
  else if ends ["us"] then word ++ "en".toList
  else if ends ["eur", "ich", "ier", "iet", "ig", "ling", "ör", "nd"] then word ++ "e".toList
  else if ends ["a", "i", "o", "u", "y"] then word ++ "s".toList
  else if ends ["aub"] then dropLast 3 word ++ "aeube".toList
  else if ends ["ub"] then dropLast 2 word ++ "uebe".toList
  else if ends ["ob"] then dropLast 2 word ++ "oebe".toList
  else if ends ["ab"] then dropLast 2 word ++ "aebe".toList
  else if ends ["eb"] then dropLast 2 word ++ "ebe".toList
  else word

/-- The German plural of a name, given the irregular words. -/
def german (exceptions : List (String × String)) (word : String) : String :=
  String.ofList <| (irregular exceptions word.toList).getD (regularGerman word.toList)

/-- A list of irregular words with further ones; a word that is listed already takes the new
plural in its place. -/
def addException (exceptions : List (String × String)) (entry : String × String) :
    List (String × String) :=
  let singular := String.ofList (Text.lower entry.1.toList)
  if exceptions.any (·.1 == singular) then
    exceptions.map fun e => if e.1 == singular then (singular, entry.2) else e
  else exceptions ++ [(singular, entry.2)]

end EntityGraph.Plural

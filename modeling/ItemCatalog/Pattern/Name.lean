import ItemCatalog.Matchers
import ItemCatalog.Name.Alias

/-!
# Patterns made from search phrases

* `spaced?` tolerates missing and additional spaces behind the third letter of a phrase, at the edge
  of a word: `frost scythe` also finds `frostscythe`.
* `numeral?` finds the roman numeral of a phrase, and `standalone` is the pattern of names that hold it
  as a word of its own, so that `blade ii` does not find `blade iii`.
-/

namespace ItemCatalog.Pattern

/-- The most bytes that a spaced pattern may compile to. -/
def sizeLimit : Nat := 1 <<< 20

/-- The letters of a phrase in sequence. Spaces may stand before all letters from the fourth on. -/
def spacedLetters (letters : List Char) : List Atom :=
  (letters.take 3).map .letter ++ (letters.drop 3).flatMap fun c => [.optional ' ', .letter c]

/-- A sequence of atoms at the edge of a word: at an end of the text or next to a space. -/
def atWordEdge (atoms : List Atom) : Pattern :=
  ⟨[.start :: atoms, atoms ++ [.finish], .letter ' ' :: atoms, atoms ++ [.letter ' ']]⟩

/-- The letters of a phrase. -/
def phraseLetters (phrase : String) : List Char :=
  phrase.toList.filter (· ≠ ' ')

/-- The pattern of names that spell a phrase with other spaces, however large it is. -/
def spacedPattern (phrase : String) : Pattern :=
  atWordEdge (spacedLetters (phraseLetters phrase))

/-- The spaced pattern of a phrase, unless it is too large. -/
def spaced? (phrase : String) (matchers : Matchers := .standard) : Option Pattern :=
  if sizeLimit < matchers.compiledSize (spacedPattern phrase) then none
  else some (spacedPattern phrase)

/-- The tens of a roman numeral below forty. -/
def numeralTens : List Atom :=
  List.replicate 3 (.optional 'x')

/-- The ones of a roman numeral: nine, four, or up to three more than nothing or five. -/
def numeralOnes : List (List Atom) :=
  [[.letter 'i', .letter 'x'], [.letter 'i', .letter 'v'],
    .optional 'v' :: List.replicate 3 (.optional 'i')]

/-- The pattern of roman numerals below forty. It matches the empty text, too. -/
def numeralPattern : Pattern :=
  ⟨numeralOnes.map fun ones => .start :: (numeralTens ++ ones ++ [.finish])⟩

/-- Whether a word is a roman numeral below forty, in letters of any case. -/
def isNumeral (word : String) : Bool :=
  numeralPattern.isMatch word

/-- The roman numeral among the last two words of a query, the later one of two. -/
def numeral? (q : Name.Query) : Option String :=
  ((q.words.filter (!·.isEmpty)).reverse.take 2).find? isNumeral

/-- The pattern of texts that hold a word behind a space, as a word of its own. -/
def standalone (word : String) : Pattern :=
  let letters := .letter ' ' :: word.toList.map Atom.letter
  ⟨[letters ++ [.letter ' '], letters ++ [.finish]]⟩

end ItemCatalog.Pattern

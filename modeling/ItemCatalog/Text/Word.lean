/-!
# Pieces of text

`trim` takes blank characters off both ends, `words` are the runs between blanks, and `pieces` the
parts between occurrences of one separator, empty ones included.
-/

namespace ItemCatalog.Text

/-- White space of any script, line ends included. -/
def isBlank (c : Char) : Bool :=
  let code := c.toNat
  (9 ≤ code && code ≤ 13) || code = 0x20 || code = 0x85 || code = 0xA0 || code = 0x1680 ||
    (0x2000 ≤ code && code ≤ 0x200A) || code = 0x2028 || code = 0x2029 || code = 0x202F ||
    code = 0x205F || code = 0x3000

/-- A text without the blanks at its start. -/
def trimStart (cs : List Char) : List Char :=
  cs.dropWhile isBlank

/-- A text without the blanks at its end. -/
def trimEnd (cs : List Char) : List Char :=
  (cs.reverse.dropWhile isBlank).reverse

/-- A text without the blanks at either end. -/
def trim (cs : List Char) : List Char :=
  trimEnd (trimStart cs)

/-- Puts a character in front of the first piece. -/
def extendFirst (c : Char) : List (List Char) → List (List Char)
  | [] => [[c]]
  | piece :: rest => (c :: piece) :: rest

/-- The parts before, between and after the characters that `isSeparator` names: one more than there
are such characters. -/
def piecesBy (isSeparator : Char → Bool) (cs : List Char) : List (List Char) :=
  cs.foldr (fun c parts => if isSeparator c then [] :: parts else extendFirst c parts) [[]]

/-- The parts before, between and after the occurrences of a separator. -/
def pieces (separator : Char) (cs : List Char) : List (List Char) :=
  piecesBy (· = separator) cs

/-- The runs of characters that are not blank. -/
def words (cs : List Char) : List (List Char) :=
  (piecesBy isBlank cs).filter (!·.isEmpty)

/-- The pieces of a text between single spaces, the empty ones left out. -/
def spacedWords (cs : List Char) : List (List Char) :=
  (pieces ' ' cs).filter (!·.isEmpty)

/-- Joins pieces with a separator between them. -/
def join (separator : String) (parts : List String) : String :=
  separator.intercalate parts

end ItemCatalog.Text

import ItemCatalog.Text.Accent
import ItemCatalog.Text.LowerCase

/-!
# Canonical names

Names are compared in a canonical form: words over small letters, digits, `+`, `?` and `|`, with
single spaces between them. `sanitize` brings any text into it. Letters lose their case and their
accents, brackets and quotation marks vanish, and whatever else is left separates words.
-/

namespace ItemCatalog.Name

/-- Brackets and quotation marks, which vanish without separating words. -/
def isDropped (c : Char) : Bool :=
  c = '(' || c = ')' || c = '\'' || c = '"' || c.toNat = 0x60 ||
    c.toNat = 0x2018 || c.toNat = 0x2019 || c.toNat = 0x201C || c.toNat = 0x201D

/-- The characters of canonical words. -/
def isKept (c : Char) : Bool :=
  c.isLower || c.isDigit || c = '+' || c = '?' || c = '|'

/-- Whether a character leaves no trace in a canonical name. -/
def vanishes (c : Char) : Bool :=
  Text.isAccentMark c || isDropped c

/-- The characters of a text in small letters and without accents, with those gone that leave no
trace. -/
def plainCharacters (cs : List Char) : List Char :=
  ((Text.lower cs).map Text.unaccented).filter (!vanishes ·)

/-- Writes the kept characters, with a space where others stood between two of them. `started` says
that a kept character has been written, `gap` that a separator has been seen since. -/
def spaceOut (started gap : Bool) : List Char → List Char
  | [] => []
  | c :: rest =>
    if isKept c then
      if gap && started then ' ' :: c :: spaceOut true false rest
      else c :: spaceOut true false rest
    else spaceOut started true rest

/-- The canonical form of a text. -/
def sanitizeChars (cs : List Char) : List Char :=
  spaceOut false false (plainCharacters cs)

/-- The canonical form of a text. -/
def sanitize (text : String) : String :=
  String.ofList (sanitizeChars text.toList)

end ItemCatalog.Name

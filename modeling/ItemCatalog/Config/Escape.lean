import ItemCatalog.Json.Quoted

/-!
# Escapes in configured texts

Texts in double quotes know the short escapes and two ways to write a character by its code. Control
characters other than the tab have to be escaped.
-/

namespace ItemCatalog.Config

/-- The number that hexadecimal digits write. -/
def hexNumber? (cs : List Char) : Option Nat :=
  cs.foldlM (fun n c => (Json.hexValue? c).map fun d => 16 * n + d) 0

/-- The character with a code, unless the code is none of a character. -/
def characterOf? (code : Nat) : Option Char :=
  if code.isValidChar then some (Char.ofNat code) else none

/-- A character by its code, written with a given number of digits. -/
def codedCharacter? (digits : Nat) (cs : List Char) : Option (Char × List Char) := do
  if cs.length < digits then none
  let c ← characterOf? (← hexNumber? (cs.take digits))
  return (c, cs.drop digits)

/-- The character that a one-letter escape means. -/
def shortEscape? (c : Char) : Option Char :=
  if c = '/' then none else Json.shortEscape? c

/-- The character of an escape, read behind the backslash. -/
def escape? : List Char → Option (Char × List Char)
  | 'u' :: rest => codedCharacter? 4 rest
  | 'U' :: rest => codedCharacter? 8 rest
  | c :: rest => (shortEscape? c).map fun c => (c, rest)
  | [] => none

/-- Characters that may stand in a text as they are; line ends are not among them. -/
def isPlain (c : Char) : Bool :=
  c.toNat = 9 || (32 ≤ c.toNat && c.toNat ≠ 127)

/-- Reads a text behind its opening quotation mark, up to the closing one. Each step uses up a
character, so `fuel` is the number of characters. -/
def basicTextWith? : Nat → List Char → Option (List Char × List Char)
  | 0, _ => none
  | _, [] => none
  | fuel + 1, c :: rest =>
    if c = '"' then some ([], rest)
    else if c = '\\' then do
      let (c, rest) ← escape? rest
      let (text, rest) ← basicTextWith? fuel rest
      return (c :: text, rest)
    else if isPlain c then do
      let (text, rest) ← basicTextWith? fuel rest
      return (c :: text, rest)
    else none

/-- Reads a text behind its opening quotation mark, up to the closing one. -/
def basicText? (cs : List Char) : Option (List Char × List Char) :=
  basicTextWith? (cs.length + 1) cs

end ItemCatalog.Config

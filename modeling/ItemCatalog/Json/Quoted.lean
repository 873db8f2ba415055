import ItemCatalog.Json.Token

/-!
# Texts in quotation marks

`quoted` writes a text: quotation marks, backslashes and control characters are escaped. `splitQuoted`
finds the end of a written text, and `unescape` reads what stands between the marks. Characters
beyond the first plane may be written as two escaped halves, which have to come in pairs.
-/

namespace ItemCatalog.Json

/-- A hexadecimal digit in small letters. -/
def hexDigit (n : Nat) : Char :=
  Nat.digitChar n

/-- The value of a hexadecimal digit. -/
def hexValue? (c : Char) : Option Nat :=
  if c.isDigit then some (c.toNat - '0'.toNat)
  else if 'a' ≤ c && c ≤ 'f' then some (c.toNat - 'a'.toNat + 10)
  else if 'A' ≤ c && c ≤ 'F' then some (c.toNat - 'A'.toNat + 10)
  else none

/-- A character as it is written between quotation marks. -/
def escaped (c : Char) : List Char :=
  if c = '"' then ['\\', '"']
  else if c = '\\' then ['\\', '\\']
  else if c.toNat = 8 then ['\\', 'b']
  else if c.toNat = 9 then ['\\', 't']
  else if c.toNat = 10 then ['\\', 'n']
  else if c.toNat = 12 then ['\\', 'f']
  else if c.toNat = 13 then ['\\', 'r']
  else if c.toNat < 32 then ['\\', 'u', '0', '0', hexDigit (c.toNat / 16), hexDigit (c.toNat % 16)]
  else [c]

/-- A text in quotation marks. -/
def quoted (cs : List Char) : List Char :=
  '"' :: cs.flatMap escaped ++ ['"']

/-- What stands before the closing quotation mark, and what follows from the mark on. -/
def splitQuoted : List Char → List Char × List Char
  | [] => ([], [])
  | '"' :: rest => ([], '"' :: rest)
  | '\\' :: c :: rest =>
    let (body, tail) := splitQuoted rest
    ('\\' :: c :: body, tail)
  | c :: rest =>
    let (body, tail) := splitQuoted rest
    (c :: body, tail)

/-- How many bytes four characters at most take. -/
def bytesAhead (cs : List Char) : Nat :=
  ((cs.take 4).map Char.utf8Size).foldr (· + ·) 0

/-- Why text between quotation marks ends early, where `ahead` bytes of the document follow it. -/
def atEnd (ahead : Nat) : Fault :=
  if ahead = 0 then .truncated else .malformed

/-- Four hexadecimal digits. Where fewer than four bytes are left in the document it is too short. -/
def fourDigits (ahead : Nat) (cs : List Char) : Except Fault (Nat × List Char) :=
  match cs with
  | a :: b :: c :: d :: rest =>
    match hexValue? a, hexValue? b, hexValue? c, hexValue? d with
    | some a, some b, some c, some d => .ok (((a * 16 + b) * 16 + c) * 16 + d, rest)
    | _, _, _, _ => .error .malformed
  | short => .error (if bytesAhead short + ahead < 4 then .truncated else .malformed)

/-- The first half of a pair. -/
def isHighHalf (code : Nat) : Bool :=
  0xD800 ≤ code && code < 0xDC00

/-- The second half of a pair. -/
def isLowHalf (code : Nat) : Bool :=
  0xDC00 ≤ code && code < 0xE000

/-- The character of two halves. -/
def joined (high low : Nat) : Char :=
  Char.ofNat (0x10000 + (high - 0xD800) * 0x400 + (low - 0xDC00))

/-- The character of an escape by its code, read behind `\u`, and what follows it. -/
def codedCharacter (ahead : Nat) (cs : List Char) : Except Fault (Char × List Char) := do
  let (code, rest) ← fourDigits ahead cs
  if isLowHalf code then throw .malformed
  else if isHighHalf code then
    match rest with
    | '\\' :: 'u' :: more =>
      let (low, rest) ← fourDigits ahead more
      if isLowHalf low then return (joined code low, rest) else throw .malformed
    | ['\\'] => throw (atEnd ahead)
    | [] => throw (atEnd ahead)
    | _ => throw .malformed
  else return (Char.ofNat code, rest)

/-- The character that a short escape means. -/
def shortEscape? (c : Char) : Option Char :=
  if c = '"' || c = '\\' || c = '/' then some c
  else if c = 'b' then some (Char.ofNat 8)
  else if c = 'f' then some (Char.ofNat 12)
  else if c = 'n' then some (Char.ofNat 10)
  else if c = 'r' then some (Char.ofNat 13)
  else if c = 't' then some (Char.ofNat 9)
  else none

/-- The text that is written between quotation marks. Each step uses up a character, so `fuel` is the
number of characters. -/
def unescapeWith (ahead : Nat) : Nat → List Char → Except Fault (List Char)
  | _, [] => if ahead = 0 then .error .truncated else .ok []
  | 0, _ => .error .truncated
  | fuel + 1, '\\' :: rest =>
    match rest with
    | [] => .error .truncated
    | 'u' :: digits => do
      let (c, rest) ← codedCharacter ahead digits
      return c :: (← unescapeWith ahead fuel rest)
    | c :: rest =>
      match shortEscape? c with
      | some c => do return c :: (← unescapeWith ahead fuel rest)
      | none => .error .malformed
  | fuel + 1, c :: rest =>
    if c.toNat < 32 then .error .malformed
    else do return c :: (← unescapeWith ahead fuel rest)

/-- The text that is written between quotation marks, where `ahead` bytes of the document, at most
four characters, follow from the closing mark on. -/
def unescape (ahead : Nat) (body : List Char) : Except Fault (List Char) :=
  unescapeWith ahead body.length body

/-- The first fault of a written text that is skipped: the halves of characters need no partners. -/
def skipFaultWith (ahead : Nat) : Nat → List Char → Option Fault
  | _, [] => if ahead = 0 then some .truncated else none
  | 0, _ => some .truncated
  | fuel + 1, '\\' :: rest =>
    match rest with
    | [] => some .truncated
    | 'u' :: digits =>
      match fourDigits ahead digits with
      | .ok (_, rest) => skipFaultWith ahead fuel rest
      | .error fault => some fault
    | c :: rest => if (shortEscape? c).isSome then skipFaultWith ahead fuel rest else some .malformed
  | fuel + 1, c :: rest => if c.toNat < 32 then some .malformed else skipFaultWith ahead fuel rest

/-- The token of a text whose body and remaining document are given. -/
def textToken (body tail : List Char) : Token :=
  let ahead := bytesAhead tail
  match unescape ahead body, skipFaultWith ahead body.length body with
  | .ok cs, _ => .text (.ok cs)
  | .error fault, none => .text (.error fault)
  | .error fault, some skipping => .brokenText fault skipping

end ItemCatalog.Json

import ItemCatalog.Text.CaseFolding

/-!
# Name patterns

A pattern is a choice between sequences of atoms: characters, characters that may be missing, and
marks for the ends of the text. It matches a text when one of the sequences fits a segment of it, up
to the case of letters. `Pattern.source` writes a pattern in the usual notation of regular
expressions.
-/

namespace ItemCatalog

namespace Pattern

/-- A part of a pattern. -/
inductive Atom
  | letter (c : Char)
  /-- A character that may be there or not. -/
  | optional (c : Char)
  /-- The start of the text. -/
  | start
  /-- The end of the text. -/
  | finish
  deriving DecidableEq, Repr

/-- The characters that have a meaning of their own in the notation of patterns. -/
def isMeta (c : Char) : Bool :=
  "\\.+*?()|[]^$#&-~".toList.contains c || c.toNat = 0x7B || c.toNat = 0x7D

/-- A character that stands for itself, in the notation of patterns. -/
def literal (c : Char) : List Char :=
  if isMeta c then ['\\', c] else [c]

/-- An atom in the notation of patterns. -/
def Atom.source : Atom → List Char
  | letter c => literal c
  | optional c => literal c ++ ['?']
  | start => ['^']
  | finish => ['$']

/-- Whether a sequence fits the beginning of a text. `atStart` says that nothing stands before it. -/
def fits (atStart : Bool) : List Atom → List Char → Bool
  | [], _ => true
  | .letter _ :: _, [] => false
  | .letter c :: atoms, d :: rest => Text.sameLetter c d && fits false atoms rest
  | .optional _ :: atoms, [] => fits atStart atoms []
  | .optional c :: atoms, d :: rest =>
    fits atStart atoms (d :: rest) || (Text.sameLetter c d && fits false atoms rest)
  | .start :: atoms, rest => atStart && fits atStart atoms rest
  | .finish :: atoms, rest => rest.isEmpty && fits atStart atoms rest

/-- Whether a sequence fits somewhere in a text. -/
def occurs (atoms : List Atom) (atStart : Bool) : List Char → Bool
  | [] => fits atStart atoms []
  | c :: rest => fits atStart atoms (c :: rest) || occurs atoms false rest

end Pattern

/-- A choice between sequences of atoms. -/
structure Pattern where
  alternatives : List (List Pattern.Atom)
  deriving DecidableEq, Repr

namespace Pattern

/-- Whether some segment of the text fits the pattern. -/
def isMatch (p : Pattern) (text : String) : Bool :=
  p.alternatives.any fun atoms => occurs atoms true text.toList

/-- The pattern in the notation of regular expressions, each choice in a group of its own. -/
def source (p : Pattern) : String :=
  "|".intercalate (p.alternatives.map fun atoms =>
    "(?:" ++ String.ofList (atoms.flatMap Atom.source) ++ ")")

end Pattern

end ItemCatalog

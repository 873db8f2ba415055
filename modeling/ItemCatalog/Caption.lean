import ItemCatalog.Text.UpperCase
import ItemCatalog.Text.Word

/-!
# Captions

`capitalize` writes stored names, which are in small letters, as they are shown: each word with a
capital letter, and a lone abbreviation such as `int` all in capitals.
-/

namespace ItemCatalog.Caption

/-- Abbreviations that are shown in capitals. -/
def abbreviations : List String :=
  ["str", "int", "dex", "luk", "cha", "wis", "end", "dm", "fs", "so", "dc", "da", "ak"]

/-- A word with its first letter capital. -/
def capitalizeWord : List Char → List Char
  | [] => []
  | c :: rest => Text.upperForms c ++ rest

/-- A text as it is shown. Blank texts stay as they are. -/
def capitalize (text : String) : String :=
  if abbreviations.contains text then String.ofList (text.toList.map Char.toUpper)
  else
    let trimmed := Text.trim text.toList
    if trimmed.isEmpty then text
    else String.ofList ([' '].intercalate ((Text.pieces ' ' trimmed).map capitalizeWord))

end ItemCatalog.Caption

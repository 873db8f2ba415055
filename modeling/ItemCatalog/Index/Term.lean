import ItemCatalog.Text.Alphanumeric
import ItemCatalog.Text.LowerCase
import ItemCatalog.Text.Word

/-!
# Index terms

Names and queries are compared by their terms: their words in small letters, without the most common
words of the language, and without an `s` at the end.
-/

namespace ItemCatalog.Index

/-- Words that are too common to tell names apart. -/
def stopWords : List String :=
  ["a", "able", "about", "across", "after", "all", "almost", "also", "am", "among", "an", "and",
    "any", "are", "as", "at", "be", "because", "been", "but", "by", "can", "cannot", "could",
    "dear", "did", "do", "does", "either", "else", "ever", "every", "for", "from", "get", "got",
    "had", "has", "have", "he", "her", "hers", "him", "his", "how", "however", "i", "if", "in",
    "into", "is", "it", "its", "just", "least", "let", "like", "likely", "may", "me", "might",
    "most", "must", "my", "neither", "no", "nor", "not", "of", "off", "often", "on", "only", "or",
    "other", "our", "own", "rather", "said", "say", "says", "she", "should", "since", "so",
    "some", "than", "that", "the", "their", "them", "then", "there", "these", "they", "this",
    "tis", "to", "too", "twas", "us", "wants", "was", "we", "were", "what", "when", "where",
    "which", "while", "who", "whom", "why", "will", "with", "would", "yet", "you", "your"]

/-- A word without an `s` at its end. Words of two letters keep it. -/
def withoutPlural (word : List Char) : List Char :=
  if 2 < word.length && word.getLast? = some 's' then word.dropLast else word

/-- The runs of letters and numbers in a text. -/
def runs (cs : List Char) : List (List Char) :=
  (Text.piecesBy (!Text.isAlphanumeric ·) cs).filter (!·.isEmpty)

/-- The terms of a text, in order. -/
def terms (text : String) : List String :=
  let words := (runs text.toList).map Text.lower
  let telling := words.filter fun word => !stopWords.contains (String.ofList word)
  telling.map fun word => String.ofList (withoutPlural word)

end ItemCatalog.Index

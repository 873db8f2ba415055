import ItemCatalog.Pattern.Basic

/-!
# Matchers

Patterns and prefixes are compiled before they are used, patterns by one library and prefixes by that
of the index. What would take too much room is refused. How many bytes a pattern compiles to, and which
prefixes the index takes, is up to these libraries, so both are parameters of a search.
-/

namespace ItemCatalog

/-- What the libraries make of patterns and of prefixes. -/
structure Matchers where
  /-- How many bytes a pattern compiles to. -/
  compiledSize : Pattern → Nat
  /-- Whether the index can look for the terms that start with a prefix. -/
  takesPrefix : String → Bool
  /-- A single letter or digit of ASCII is never too much. -/
  takesPrefix_singleton (c : Char) : c.isAlphanum → takesPrefix (String.singleton c)

/-- Matchers to run a search with. The libraries count the states of their automata, which depend on the
letters; here every atom and every byte counts the same. Like the libraries they take texts of a few
hundred letters and refuse texts of five thousand. -/
def Matchers.standard : Matchers where
  compiledSize p := 92 * p.alternatives.flatten.length
  takesPrefix text := decide (text.utf8ByteSize ≤ 990)
  takesPrefix_singleton c _ := by
    rw [decide_eq_true_iff, String.utf8ByteSize_singleton]
    exact Nat.le_trans c.utf8Size_le_four (by decide)

end ItemCatalog

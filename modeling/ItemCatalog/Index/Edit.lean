/-!
# Words that differ by few edits

An edit inserts, deletes or replaces a character, or swaps two neighbours. `withinEdits k` holds of two
words when at most `k` edits turn one into the other, where each character takes part in one edit at
most.
-/

namespace ItemCatalog.Index

/-- Whether two words start with the same two characters in opposite order and go on as `few` asks. -/
def swapped (few : List Char → List Char → Bool) : List Char → List Char → Bool
  | a :: b :: xs, c :: d :: ys => a = d && b = c && few xs ys
  | _, _ => false

/-- One edit more than `few` allows, at any place. -/
def withOneMore (few : List Char → List Char → Bool) : List Char → List Char → Bool
  | [], ys => few [] (ys.drop 1)
  | x :: xs, ys =>
    few xs ys ||
    match ys with
    | [] => false
    | y :: ys' =>
      (x = y && withOneMore few xs ys') || few xs ys' || few (x :: xs) ys' ||
        swapped few (x :: xs) (y :: ys')

/-- Whether at most `k` edits turn one word into the other. -/
def withinEdits : Nat → List Char → List Char → Bool
  | 0 => fun xs ys => xs = ys
  | k + 1 => withOneMore (withinEdits k)

/-- `withinEdits`, where words that differ too much in length are told apart at once. -/
def similar (k : Nat) (xs ys : List Char) : Bool :=
  xs.length ≤ ys.length + k && ys.length ≤ xs.length + k && withinEdits k xs ys

end ItemCatalog.Index

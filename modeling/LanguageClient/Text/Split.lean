/-!
# `LanguageClient.Text.Split`: cutting lists at separators

The lists may be texts or byte sequences; a separator belongs to no part.

- `splitFirst?`, `splitLast?`: the two parts around the first or last separator.
- `splitOn`: all parts; there is always at least one.
- `splitCrLf`: the lines of a text whose lines end in a carriage return and a
  line feed.
- `dropPrefix?`, `joinWith`: what follows a given start; parts put together.
-/

set_option autoImplicit false

namespace LanguageClient.Text

variable {α : Type} [DecidableEq α]

/-- What stands before and after the first separator. -/
def splitFirst? (sep : α) : List α → Option (List α × List α)
  | [] => none
  | x :: xs =>
    if x = sep then some ([], xs)
    else (splitFirst? sep xs).map fun (before, after) => (x :: before, after)

/-- What stands before and after the last separator. -/
def splitLast? (sep : α) (xs : List α) : Option (List α × List α) :=
  (splitFirst? sep xs.reverse).map fun (after, before) => (before.reverse, after.reverse)

/-- The parts between separators. -/
def splitOn (sep : α) : List α → List (List α)
  | [] => [[]]
  | x :: xs =>
    match splitOn sep xs with
    | [] => [[]]
    | part :: parts => if x = sep then [] :: part :: parts else (x :: part) :: parts

/-- The parts put together, with a separator between them. -/
def joinWith (sep : List α) : List (List α) → List α
  | [] => []
  | [part] => part
  | part :: parts => part ++ sep ++ joinWith sep parts

/-- What follows a given start. -/
def dropPrefix? : List α → List α → Option (List α)
  | [], xs => some xs
  | _ :: _, [] => none
  | p :: ps, x :: xs => if p = x then dropPrefix? ps xs else none

/-- The lines of a text, each ended by a carriage return and a line feed or by
the end of the text. -/
def splitCrLf : List Char → List (List Char)
  | [] => [[]]
  | '\r' :: '\n' :: s => [] :: splitCrLf s
  | c :: s =>
    match splitCrLf s with
    | [] => [[c]]
    | line :: lines => (c :: line) :: lines

/-- Drop the characters of a class from both ends. -/
def strip (p : α → Bool) (xs : List α) : List α :=
  ((xs.dropWhile p).reverse.dropWhile p).reverse

end LanguageClient.Text

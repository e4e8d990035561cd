/-!
# Lines

Cutting a list of characters into lines, and at the first occurrence of a character.
-/

namespace LanguageHub.Text

/-- Drop one carriage return at the end of a line. -/
def dropReturn (line : List Char) : List Char :=
  match line.reverse with
  | '\r' :: rest => rest.reverse
  | _ => line

/-- The lines of a list of characters, without their ends. A carriage return before a line feed
belongs to the end of its line; a final line feed opens no further line. -/
def lines (cs : List Char) : List (List Char) :=
  let pieces := cs.splitOn '\n'
  let last := pieces.getLastD []
  pieces.dropLast.map dropReturn ++ if last.isEmpty then [] else [last]

/-- The parts before and after the first `sep`, if there is one. -/
def splitAtFirst (sep : Char) : List Char → Option (List Char × List Char)
  | [] => none
  | c :: cs =>
    if c = sep then some ([], cs)
    else (splitAtFirst sep cs).map fun (before, after) ↦ (c :: before, after)

end LanguageHub.Text

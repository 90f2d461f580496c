/-!
# Lines

A text is a sequence of lines that end in a line feed, or in a carriage return and a line feed.
What follows the last line feed is a line if it is not empty.
-/

namespace VersionedObjects.Text

/-- A line without the carriage return at its end. -/
def dropReturn (line : String) : String :=
  match line.toList.reverse with
  | '\r' :: rest => String.ofList rest.reverse
  | _ => line

/-- The lines of a text. -/
def lines (text : String) : List String :=
  let parts := text.splitOn "\n"
  parts.dropLast.map dropReturn ++ (parts.getLast?.filter (· ≠ "")).toList

end VersionedObjects.Text

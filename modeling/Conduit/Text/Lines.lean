/-!
Lines of a text. A line ends at a line feed, which takes a carriage return before it along; what
stands after the last line feed is a line of its own unless it is empty.
-/
namespace Conduit.Text

def pieces [DecidableEq α] (sep : α) : List α → List (List α)
  | [] => [[]]
  | c :: cs =>
    match pieces sep cs with
    | [] => [[c]]
    | piece :: rest => if c = sep then [] :: piece :: rest else (c :: piece) :: rest

def dropReturn [DecidableEq α] (ret : α) (line : List α) : List α :=
  if line.getLast? = some ret then line.dropLast else line

def linesOfPieces [DecidableEq α] (ret : α) : List (List α) → List (List α)
  | [] => []
  | [[]] => []
  | [last] => [last]
  | line :: rest => dropReturn ret line :: linesOfPieces ret rest

def lines (s : String) : List String :=
  (linesOfPieces '\r' (pieces '\n' s.toList)).map String.ofList

def byteLines (bytes : List UInt8) : List (List UInt8) := linesOfPieces 13 (pieces 10 bytes)

def indentAfterBreaks (margin : String) (s : String) : String :=
  String.ofList (s.toList.flatMap fun c => if c = '\n' then '\n' :: margin.toList else [c])

end Conduit.Text

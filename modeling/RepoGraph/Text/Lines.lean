/-!
# Lines

`lines` cuts a text at its line ends: a line feed, a carriage return alone or before a line feed,
and the other characters that end a line or a paragraph. A line end at the end of the text starts
no further line. `unifyLineEnds` is the coarser rule of text files: every carriage return, with or
without a line feed, becomes one line feed.
-/

namespace RepoGraph.Text

/-- The character ends a line. -/
def isLineEnd (c : Char) : Bool :=
  let n := c.toNat
  (0x0A ≤ n && n ≤ 0x0D) || (0x1C ≤ n && n ≤ 0x1E) || n == 0x85 || n == 0x2028 || n == 0x2029

/-- The lines of a text, without their ends. -/
def lines : List Char → List (List Char)
  | [] => []
  | '\r' :: '\n' :: cs => [] :: lines cs
  | c :: cs =>
    if isLineEnd c then [] :: lines cs
    else match lines cs with
      | [] => [[c]]
      | line :: rest => (c :: line) :: rest

/-- The text with each carriage return, and the line feed after it, made one line feed. -/
def unifyLineEnds : List Char → List Char
  | [] => []
  | '\r' :: '\n' :: cs => '\n' :: unifyLineEnds cs
  | c :: cs => (if c = '\r' then '\n' else c) :: unifyLineEnds cs

end RepoGraph.Text

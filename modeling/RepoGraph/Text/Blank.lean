/-!
# White space

`isBlank` is the class of white space characters used throughout the library: by the reference
patterns, by the readers of numbers and settings, and by every trimming of text.
-/

namespace RepoGraph.Text

/-- The character is white space: a control character of that kind, or a space of any width. -/
def isBlank (c : Char) : Bool :=
  let n := c.toNat
  (0x09 ≤ n && n ≤ 0x0D) || (0x1C ≤ n && n ≤ 0x20) || n == 0x85 || n == 0xA0 || n == 0x1680 ||
    (0x2000 ≤ n && n ≤ 0x200A) || n == 0x2028 || n == 0x2029 || n == 0x202F || n == 0x205F ||
    n == 0x3000

/-- The text without its leading white space. -/
def trimLeft (s : List Char) : List Char := s.dropWhile isBlank

/-- The text without the characters of a class at its end. -/
def dropRightWhile (p : Char → Bool) (s : List Char) : List Char :=
  (s.reverse.dropWhile p).reverse

/-- The text without its trailing white space. -/
def trimRight (s : List Char) : List Char := dropRightWhile isBlank s

/-- The text without white space at either end. -/
def trim (s : List Char) : List Char := trimRight (trimLeft s)

/-- The string without white space at either end. -/
def trimmed (s : String) : String := String.ofList (trim s.toList)

end RepoGraph.Text

import RepoGraph.Text.Blank
import RepoGraph.Text.Split

/-!
# Statements recognised in text

A pattern recognises one form of statement at the front of a text and gives the specifier in it with
the text after the statement. `Pattern.findAll` collects the specifiers of a whole text from left to
right: where the pattern applies, the search goes on after the statement, elsewhere after one
character. Patterns know nothing of comments, of string literals or of grammar.

The forms with `from` have a gap between the keyword and `from`. It is as short as possible and
holds no line feed, but the white space around it may; `gapThenFrom?` tries the gaps from the
shortest on. A specifier is as short as possible too, but has at least one character, whatever that
is, and no line feed.
-/

namespace RepoGraph

open RepoGraph.Text

/-- The character opens and closes specifiers; the two marks need not agree. -/
def isQuote (c : Char) : Bool := c == '\'' || c == '"'

/-- The text up to the first quote that the word `close` follows, and the text after the word; no
line feed may come before. -/
def untilQuote? (close : List Char) : List Char → Option (List Char × List Char)
  | [] => none
  | c :: cs =>
    match if isQuote c then after? close cs else none with
    | some rest => some ([], rest)
    | none => if c = '\n' then none else (untilQuote? close cs).map fun r => (c :: r.1, r.2)

/-- A specifier between quotes, the second of which the word `close` follows. -/
def quotedSpecifier? (close : List Char) : List Char → Option (List Char × List Char)
  | q :: c :: cs =>
    if isQuote q && c != '\n' then (untilQuote? close cs).map fun r => (c :: r.1, r.2) else none
  | _ => none

/-- The text after white space, of which there must be some. -/
def afterBlanks? : List Char → Option (List Char)
  | c :: cs => if isBlank c then some (cs.dropWhile isBlank) else none
  | [] => none

/-- The word `from`, white space and a specifier between quotes. -/
def fromClause? (s : List Char) : Option (List Char × List Char) :=
  ((after? ['f', 'r', 'o', 'm'] s).bind afterBlanks?).bind (quotedSpecifier? [])

/-- A gap without line feed, white space and a `from` clause; the shortest gap that fits. -/
def gapThenFrom? : List Char → Option (List Char × List Char)
  | [] => none
  | c :: cs =>
    if isBlank c then
      match fromClause? (cs.dropWhile isBlank) with
      | some found => some found
      | none => if c = '\n' then none else gapThenFrom? cs
    else gapThenFrom? cs

/-- A keyword, white space, a gap, white space and a `from` clause. The gap may be empty when the
white space before `from` can be shared out among the two places. -/
def keywordFrom? (keyword s : List Char) : Option (List Char × List Char) :=
  match after? keyword s with
  | some (c :: cs) =>
    if isBlank c then
      let rest := cs.dropWhile isBlank
      match gapThenFrom? rest with
      | some found => some found
      -- With two blanks after the keyword the gap may be empty.
      | none => if cs.head?.any isBlank then fromClause? rest else none
    else none
  | _ => none

/-- The word at the front of a text, up to white space; it must not be empty. -/
def word? (s : List Char) : Option (List Char × List Char) :=
  let word := s.takeWhile fun c => !isBlank c
  if word.isEmpty then none else some (word, s.dropWhile fun c => !isBlank c)

/-- The keyword `from`, a module and the keyword `import`, separated by white space. -/
def fromImport? (s : List Char) : Option (List Char × List Char) :=
  match ((after? ['f', 'r', 'o', 'm'] s).bind afterBlanks?).bind word? with
  | some (module, rest) =>
    ((afterBlanks? rest).bind (after? ['i', 'm', 'p', 'o', 'r', 't'])).map fun r => (module, r)
  | none => none

/-- The keyword `import`, white space and a module. -/
def importModule? (s : List Char) : Option (List Char × List Char) :=
  ((after? ['i', 'm', 'p', 'o', 'r', 't'] s).bind afterBlanks?).bind word?

/-- The call of `require` with one quoted specifier. -/
def requireCall? (s : List Char) : Option (List Char × List Char) :=
  (after? ['r', 'e', 'q', 'u', 'i', 'r', 'e', '('] s).bind (quotedSpecifier? [')'])

/-- A form of statement. -/
structure Pattern where
  /-- The statement stands at the beginning of a line. -/
  atLineStart : Bool
  /-- The specifier of a statement at the front of a text, and the text after the statement. -/
  recognise : List Char → Option (List Char × List Char)

/-- The pattern of an import of names from a module. -/
def Pattern.importFrom : Pattern := ⟨false, keywordFrom? ['i', 'm', 'p', 'o', 'r', 't']⟩

/-- The pattern of an export of names from a module. -/
def Pattern.exportFrom : Pattern := ⟨false, keywordFrom? ['e', 'x', 'p', 'o', 'r', 't']⟩

/-- The pattern of a call that loads a module. -/
def Pattern.requireCall : Pattern := ⟨false, requireCall?⟩

/-- The pattern of a line that imports names from a module. -/
def Pattern.fromImportLine : Pattern := ⟨true, fromImport?⟩

/-- The pattern of a line that imports a module. -/
def Pattern.importLine : Pattern := ⟨true, importModule?⟩

/-- The specifiers of a text, from a place that is the beginning of a line if `fresh` is set. No
statement ends in a line feed, so none is followed by the beginning of a line. -/
def Pattern.findFrom (p : Pattern) (fresh : Bool) : List Char → List (List Char)
  | [] => []
  | c :: cs =>
    match if fresh || !p.atLineStart then p.recognise (c :: cs) else none with
    | some (specifier, rest) =>
      specifier :: if rest.length ≤ cs.length then p.findFrom false rest else []
    | none => p.findFrom (c == '\n') cs
termination_by s => s.length
decreasing_by all_goals simp; try omega

/-- The specifiers of a text, from left to right. -/
def Pattern.findAll (p : Pattern) (text : List Char) : List (List Char) := p.findFrom true text

end RepoGraph

import RepoGraph.Text.Split

/-!
# Expressions for words

An `Expression` stands for finitely many words: it is made of texts, of parts that may be left out,
of alternatives and of sequences. `rests` applies it at the front of a text and gives all that may
be left of the text after it, and `isFound` looks for a place where it applies. Characters are
compared after the function `fold`, which the text has been through before; the identity tells all
characters apart.
-/

namespace RepoGraph.Text

/-- An expression for words. -/
inductive Expression
  /-- The word itself. -/
  | text (word : String)
  /-- A word of the expression, or nothing. -/
  | maybe (e : Expression)
  /-- A word of one expression or of the other. -/
  | either (e f : Expression)
  /-- A word of the first expression and then one of the second. -/
  | seq (e f : Expression)
  deriving DecidableEq, Repr

namespace Expression

/-- What may be left of a text after the expression at its front. -/
def rests (fold : Char → Char) : Expression → List Char → List (List Char)
  | text word, s => (after? (word.toList.map fold) s).toList
  | maybe e, s => e.rests fold s ++ [s]
  | either e f, s => e.rests fold s ++ f.rests fold s
  | seq e f, s => (e.rests fold s).flatMap (f.rests fold)

/-- The expression applies somewhere in the text, with something after it that is accepted. -/
def isFound (fold : Char → Char) (accepts : List Char → Bool) (e : Expression) : List Char → Bool
  | [] => (e.rests fold []).any accepts
  | c :: cs => (e.rests fold (c :: cs)).any accepts || e.isFound fold accepts cs

end Expression

end RepoGraph.Text

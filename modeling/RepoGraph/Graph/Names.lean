/-!
# Lists of names

What is asked of lists of names that stand for sets: the names in increasing order, those that occur
more than once, and those of one list that another lacks.
-/

namespace RepoGraph.Names

/-- The distinct names in increasing order. -/
def sorted (names : List String) : List String :=
  names.eraseDups.mergeSort fun a b => decide (a ≤ b)

/-- The names that occur more than once, in increasing order. -/
def repeated (names : List String) : List String := sorted (names.filter fun n => 1 < names.count n)

/-- The names that do not occur in `others`, in increasing order. -/
def lacking (others names : List String) : List String :=
  sorted (names.filter fun n => !others.contains n)

/-- The two lists hold the same names. -/
def sameSet (names others : List String) : Bool :=
  names.all others.contains && others.all names.contains

end RepoGraph.Names

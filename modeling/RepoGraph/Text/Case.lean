import RepoGraph.Text.CaseTable

/-!
# Letter case

`lower` and `upper` are the full case mappings of text: a character may become several, and a
capital sigma that ends a word becomes a final sigma.
-/

namespace RepoGraph.Text

/-- The mapping of one character by its table. -/
def mapCase (runs : List CaseRun) (long : List (Nat × List Nat)) (c : Char) : List Char :=
  match long.lookup c.toNat with
  | some ns => ns.map Char.ofNat
  | none =>
    match runs.find? (·.has c.toNat) with
    | some r => [Char.ofNat (c.toNat + r.offset).toNat]
    | none => [c]

/-- The lower-case form of a character other than a capital sigma. -/
def lowerChar (c : Char) : List Char :=
  if c.toNat < 0x80 then [c.toLower] else mapCase lowerRuns lowerLong c

/-- The upper-case form of a character. -/
def upperChar (c : Char) : List Char :=
  if c.toNat < 0x80 then [c.toUpper] else mapCase upperRuns upperLong c

/-- The first character that case does not ignore has a case. -/
def startsCased : List Char → Bool
  | [] => false
  | c :: cs => if inRanges caseIgnorableRanges c then startsCased cs else inRanges casedRanges c

/-- The lower-case form of a text; `afterCased` tells whether the last character before it that case
does not ignore has a case. -/
def lowerFrom (afterCased : Bool) : List Char → List Char
  | [] => []
  | c :: cs =>
    let here :=
      if c = 'Σ' then [if afterCased && !startsCased cs then 'ς' else 'σ'] else lowerChar c
    let cased := if inRanges caseIgnorableRanges c then afterCased else inRanges casedRanges c
    here ++ lowerFrom cased cs

/-- The lower-case form of a text. -/
def lower (s : List Char) : List Char := lowerFrom false s

/-- The upper-case form of a text. -/
def upper (s : List Char) : List Char := s.flatMap upperChar

end RepoGraph.Text

import RepoGraph.Table
import RepoGraph.Text.DecimalDigit
import RepoGraph.Text.Split

/-!
# Grammars of command lines

A grammar lists options and says what stands between them: nothing, one word, or a command with a
line of its own. Options have long names, which may be cut short as long as one option alone is
meant. Options without a value may have short names of one letter, which may stand together behind
one hyphen. A value follows its option, or stands after an equals sign. A word of two hyphens ends
the options.

`Grammar.parse` first marks all arguments as words and options, and then reads them from left to
right. Options that the grammar does not know are noted and not refused at once, since an option
that asks for help further on is heard first.
-/

namespace RepoGraph.Command

open RepoGraph.Text

/-- Why a command line is not carried out. -/
inductive Exit
  /-- It does not fit the grammar. -/
  | usage
  /-- It asks for help. -/
  | help
  /-- It asks for the version. -/
  | version
  deriving DecidableEq, Repr

/-- Whether an option takes a value. -/
inductive Arity
  /-- It takes none. -/
  | none
  /-- It takes one, or stands for a value if it has none. -/
  | optional (absent : String)
  /-- It takes one. -/
  | one
  deriving DecidableEq, Repr

/-- An option. -/
structure OptionRule where
  /-- The names, with their hyphens; the option is known by the last. -/
  names : List String
  /-- Whether it takes a value. -/
  arity : Arity
  /-- The values that it takes. -/
  accepts : String → Bool := fun _ => true
  /-- What it ends the command line with, if it does. -/
  ends : Option Exit := .none

/-- What stands between the options. -/
inductive Operand
  /-- Nothing. -/
  | nothing
  /-- One word. -/
  | word
  /-- A command with all that follows it. -/
  | command
  deriving DecidableEq, Repr

/-- A grammar. -/
structure Grammar where
  /-- The options. -/
  options : List OptionRule
  /-- What stands between them. -/
  operand : Operand

/-- What an argument is. -/
inductive Mark
  /-- A word. -/
  | word
  /-- The end of the options. -/
  | divider
  /-- An option, perhaps with a value after an equals sign. -/
  | option (rule : OptionRule) (value : Option String)
  /-- An option of one letter with letters after it. -/
  | cluster (rule : OptionRule) (letters : List Char)
  /-- An option that the grammar does not know. -/
  | unknown

/-- The mark is one of an option. -/
def Mark.isOption : Mark → Bool
  | word => false
  | divider => false
  | _ => true

/-- A command line that was read. -/
structure Parsed where
  /-- The values of the options; of an option that stands there twice, the last. -/
  values : Table String
  /-- The word, or the command with all that follows it. -/
  operands : List String
  /-- There was more than the grammar knows. -/
  excess : Bool

/-- The option of a name. -/
def findOption (rules : List OptionRule) (name : String) : Option OptionRule :=
  rules.find? fun r => r.names.contains name

/-- The characters write a number below zero. A line feed may follow. -/
def isNegativeNumber (s : List Char) : Bool :=
  match dropSuffix ['\n'] s with
  | '-' :: digits =>
    let isDigit (c : Char) : Bool := (decimalValue? c).isSome
    match cut? '.' digits with
    | some (whole, fraction) => whole.all isDigit && !fraction.isEmpty && fraction.all isDigit
    | none => !digits.isEmpty && digits.all isDigit
  | _ => false

/-- The options that a long name may be cut short of, with the value after an equals sign. -/
def abbreviated (rules : List OptionRule) (arg : List Char) : List Mark :=
  let (name, value) :=
    match cut? '=' arg with
    | some (name, value) => (name, some (String.ofList value))
    | none => (arg, none)
  rules.flatMap fun r =>
    (r.names.filter fun n => startsWith name n.toList).map fun _ => .option r value

/-- The option of one letter that an argument begins with. -/
def clustered (rules : List OptionRule) (arg : List Char) : List Mark :=
  match findOption rules (String.ofList (arg.take 2)) with
  | some r => [.cluster r (arg.drop 2)]
  | none => []

/-- The option that an argument names in full, with the value after an equals sign. -/
def named? (rules : List OptionRule) (arg : String) : Option Mark :=
  match findOption rules arg with
  | some r => some (.option r none)
  | none =>
    match cut? '=' arg.toList with
    | some (name, value) =>
      (findOption rules (String.ofList name)).map fun r => .option r (some (String.ofList value))
    | none => none

/-- What an argument is. A name that may be short for several options fits no grammar. -/
def markOf (rules : List OptionRule) (arg : String) : Except Exit Mark :=
  match arg.toList with
  | '-' :: c :: cs =>
    match named? rules arg with
    | some m => .ok m
    | none =>
      let candidates :=
        if c = '-' then abbreviated rules ('-' :: c :: cs) else clustered rules ('-' :: c :: cs)
      match candidates with
      | [m] => .ok m
      | [] =>
        -- Numbers below zero and texts with spaces look like options and are words.
        if isNegativeNumber ('-' :: c :: cs) || (c :: cs).contains ' ' then .ok .word
        else .ok .unknown
      | _ => .error .usage
  | _ => .ok .word

/-- The arguments with what they are. All are words after the end of the options. -/
def marksOf (rules : List OptionRule) : List String → Except Exit (List (String × Mark))
  | [] => .ok []
  | arg :: args =>
    if arg = "--" then .ok ((arg, .divider) :: args.map fun a => (a, .word))
    else do
      let m ← markOf rules arg
      return (arg, m) :: (← marksOf rules args)

namespace OptionRule

/-- The name by which the option is known. -/
def key (r : OptionRule) : String := r.names.getLast?.getD ""

/-- Notes a value of an option, unless the option ends the command line. -/
def take (r : OptionRule) (value : String) (p : Parsed) : Except Exit Parsed :=
  match r.ends with
  | some e => .error e
  | none =>
    if r.accepts value then .ok { p with values := p.values.insert r.key value } else .error .usage

end OptionRule

/-- The options that stand together, and whether an unknown letter comes after them. A hyphen or an
equals sign fits no grammar there. -/
def clusterOf (rules : List OptionRule) (r : OptionRule) :
    List Char → Except Exit (List OptionRule × Bool)
  | [] => .ok ([r], false)
  | '-' :: _ => .error .usage
  | c :: cs =>
    match findOption rules (String.ofList ['-', c]) with
    | none => .ok ([r], true)
    | some next =>
      if cs.head? = some '=' then .error .usage
      else do
        let (rest, excess) ← clusterOf rules next cs
        return (r :: rest, excess)

/-- Notes options that stand together. -/
def takeCluster (rules : List OptionRule) (r : OptionRule) (letters : List Char) (p : Parsed) :
    Except Exit Parsed := do
  let (all, excess) ← clusterOf rules r letters
  let p ← all.foldlM (fun p r => r.take "" p) p
  return { p with excess := p.excess || excess }

/-- Notes an option with a value after an equals sign. -/
def takeJoined (r : OptionRule) (value : String) (p : Parsed) : Except Exit Parsed :=
  match r.arity with
  | .none => .error .usage
  | _ => r.take value p

/-- Reads what stands between the options where no more options follow. -/
def finish (operand : Operand) (args : List (String × Mark)) (p : Parsed) : Parsed :=
  match operand with
  | .command =>
    if args.any fun a => a.2 matches .word then { p with operands := args.map Prod.fst }
    else { p with excess := p.excess || !args.isEmpty }
  | .nothing => { p with excess := p.excess || !args.isEmpty }
  | .word =>
    let dropDivider : List (String × Mark) → List (String × Mark)
      | (_, .divider) :: rest => rest
      | rest => rest
    match p.operands, dropDivider args with
    | [], (w, _) :: rest =>
      { p with operands := [w], excess := p.excess || !(dropDivider rest).isEmpty }
    | _, _ => { p with excess := p.excess || !args.isEmpty }

/-- Reads marked arguments from left to right. -/
def readMarks (g : Grammar) : List (String × Mark) → Parsed → Except Exit Parsed
  | [], p => .ok p
  | (a, m) :: rest, p =>
    if !(m.isOption || rest.any fun b => b.2.isOption) then
      .ok (finish g.operand ((a, m) :: rest) p)
    else
      match m with
      | .word | .divider =>
        -- A command takes the whole rest of the line, its own options included.
        match g.operand, p.operands with
        | .command, _ => .ok { p with operands := a :: rest.map Prod.fst }
        | .word, [] => readMarks g rest { p with operands := [a] }
        | _, _ => readMarks g rest { p with excess := true }
      | .unknown => readMarks g rest { p with excess := true }
      | .option r (some value) => do readMarks g rest (← takeJoined r value p)
      | .cluster r letters => do readMarks g rest (← takeCluster g.options r letters p)
      | .option r none =>
        match r.arity, rest with
        | .none, rest => do readMarks g rest (← r.take "" p)
        | .optional _, (w, .word) :: rest => do readMarks g rest (← r.take w p)
        | .optional absent, rest => do readMarks g rest (← r.take absent p)
        | .one, (w, .word) :: rest => do readMarks g rest (← r.take w p)
        | .one, _ => .error .usage

/-- Reads a command line. -/
def Grammar.parse (g : Grammar) (args : List String) : Except Exit Parsed := do
  readMarks g (← marksOf g.options args) ⟨.empty, [], false⟩

end RepoGraph.Command

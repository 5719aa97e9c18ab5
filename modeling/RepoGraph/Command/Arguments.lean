import RepoGraph.Command.Grammar
import RepoGraph.Decimal.Reading

/-!
# The command line

The command line names one command, perhaps after options that say which variables to load first.
-/

namespace RepoGraph

/-- A command. -/
inductive Command
  /-- Submit a repository. -/
  | submit (url : String) (requestedBy : Option String)
  /-- Claim a job and analyse it. -/
  | run (id : String)
  /-- Look at a job. -/
  | poll (id : String)
  /-- Analyse pending jobs, or one of them. -/
  | worker (once : Bool)
  /-- Submit a repository, have it analysed and wait for that. -/
  | analyse (url : String) (budget : Option Float) (requestedBy : Option String)
  /-- Build the graph of files that are listed in a document. -/
  | build (snapshot : String)
  /-- Explain the repository of a job, a file of it, or some lines of the file. -/
  | explain (id : String) (file source lines : Option String)

namespace Command

/-- The name and the version of the program. -/
def version : String := "graphyy 0.1.0"

/-- How the program is used. -/
def usage : String :=
  "usage: graphyy [-h] [--dotenv [PATH]] [--dotenv-override] [--version] COMMAND ...\n\n" ++
    "commands:\n" ++
    "  submit URL [--requested-by NAME]\n" ++
    "  run JOB\n" ++
    "  poll JOB\n" ++
    "  worker [--once]\n" ++
    "  analyse URL [--budget SECONDS] [--requested-by NAME]\n" ++
    "  build SNAPSHOT.json\n" ++
    "  explain JOB [--file PATH] [--source LOCAL] [--lines START-END]"

/-- The name of a command. -/
def name : Command → String
  | submit .. => "submit"
  | run _ => "run"
  | poll _ => "poll"
  | worker _ => "worker"
  | analyse .. => "analyse"
  | build _ => "build"
  | explain .. => "explain"

/-- The option that asks for help. -/
def helpRule : OptionRule := { names := ["-h", "--help"], arity := .none, ends := some .help }

/-- An option with a value. -/
def valueRule (name : String) : OptionRule := { names := [name], arity := .one }

/-- The text writes a number of seconds. -/
def isSeconds (s : String) : Bool := (Decimal.readFloat? s.toList).isSome

/-- The options in front of the command. -/
def frontRules : List OptionRule :=
  [helpRule,
    { names := ["--dotenv"], arity := .optional ".env" },
    { names := ["--dotenv-override"], arity := .none },
    { names := ["--version"], arity := .none, ends := some .version }]

/-- The grammar of the whole line. -/
def frontGrammar : Grammar := ⟨frontRules, .command⟩

/-- The grammar of what follows the name of a command. -/
def grammar? (name : String) : Option Grammar :=
  match name with
  | "submit" => some ⟨[helpRule, valueRule "--requested-by"], .word⟩
  | "run" => some ⟨[helpRule], .word⟩
  | "poll" => some ⟨[helpRule], .word⟩
  | "worker" => some ⟨[helpRule, { names := ["--once"], arity := .none }], .nothing⟩
  | "analyse" =>
    let budgetRule := { valueRule "--budget" with accepts := isSeconds }
    some ⟨[helpRule, budgetRule, valueRule "--requested-by"], .word⟩
  | "build" => some ⟨[helpRule], .word⟩
  | "explain" =>
    some ⟨[helpRule, valueRule "--file", valueRule "--source", valueRule "--lines"], .word⟩
  | _ => none

/-- The command of a name with its options and words, if it has the word that it needs. -/
def ofParsed? (name : String) (p : Parsed) : Option Command :=
  match name, p.operands with
  | "submit", [url] => some (.submit url (p.values.lookup? "--requested-by"))
  | "run", [id] => some (.run id)
  | "poll", [id] => some (.poll id)
  | "worker", [] => some (.worker (p.values.contains "--once"))
  | "analyse", [url] =>
    some (.analyse url ((p.values.lookup? "--budget").bind fun s => Decimal.readFloat? s.toList)
      (p.values.lookup? "--requested-by"))
  | "build", [snapshot] => some (.build snapshot)
  | "explain", [id] =>
    some (.explain id (p.values.lookup? "--file") (p.values.lookup? "--source")
      (p.values.lookup? "--lines"))
  | _, _ => none

end Command

/-- A command line. -/
structure Arguments where
  /-- The file of variables to load first, if one is named. -/
  variablesFile : Option String
  /-- The variables of the file override those that are set. -/
  overrides : Bool
  /-- The command. -/
  command : Command

/-- Reads a command line. -/
def Arguments.parse (args : List String) : Except Command.Exit Arguments := do
  let front ← Command.frontGrammar.parse args
  match front.operands with
  | [] => .error .usage
  | name :: rest =>
    match Command.grammar? name with
    | none => .error .usage
    | some grammar =>
      let parsed ← grammar.parse rest
      match Command.ofParsed? name parsed with
      | none => .error .usage
      | some command =>
        if front.excess || parsed.excess then .error .usage
        else
          return {
            variablesFile := front.values.lookup? "--dotenv"
            overrides := front.values.contains "--dotenv-override"
            command }

end RepoGraph

import RepoGraph.Decimal.Reading
import RepoGraph.Path.Selection
import RepoGraph.Table
import RepoGraph.Text.Case

/-!
# Settings

Settings are read off the environment once, and passed on from there. A variable that is missing,
blank or, for a number, not a number leaves the default in place.
-/

namespace RepoGraph

/-- The variables of a process. -/
abbrev Environment := Table String

namespace Environment

/-- The text of a variable, without white space at its ends, if there is any. -/
def text? (env : Environment) (name : String) : Option String :=
  ((env.lookup? name).map Text.trimmed).filter (· != "")

/-- The text of a variable, or a default. -/
def text (env : Environment) (name fallback : String) : String := (env.text? name).getD fallback

/-- The whole number that a variable writes, or a default. -/
def int (env : Environment) (name : String) (fallback : Int) : Int :=
  ((env.text? name).bind fun s => Decimal.readInt? s.toList).getD fallback

/-- The floating-point number that a variable writes, or a default. -/
def float (env : Environment) (name : String) (fallback : Float) : Float :=
  ((env.text? name).bind fun s => Decimal.readFloat? s.toList).getD fallback

/-- The words that switch something off. -/
def offWords : List String := ["0", "false", "False", "no", "NO", "off", "OFF"]

/-- Whether a variable switches something on, or a default. -/
def switch (env : Environment) (name : String) (fallback : Bool) : Bool :=
  match env.text? name with
  | some word => !offWords.contains word
  | none => fallback

end Environment

/-- What can be set. -/
structure Settings where
  /-- Where jobs and artifacts are stored. -/
  databaseUrl : String := "sqlite:///graphyy.db"
  /-- Where snapshots are fetched from. -/
  githubApiUrl : String := "https://api.github.com"
  /-- The token sent along with fetches. -/
  githubToken : Option String := none
  /-- How long a fetch may take. -/
  httpTimeoutSeconds : Float := 15.0
  /-- How many files a snapshot has at most. -/
  maxFiles : Int := Path.defaultMaxFiles
  /-- How many texts are fetched at the same time. -/
  fetchConcurrency : Int := 8
  /-- How long a worker waits between polls. -/
  pollIntervalSeconds : Float := 5.0
  /-- How long an inline analysis is waited for. -/
  inlineBudgetSeconds : Float := 30.0
  /-- The bucket that artifacts are copied to, if any. -/
  s3Bucket : Option String := none
  /-- What stands before the keys in the bucket. -/
  s3Prefix : String := "graphyy/artifacts"
  /-- The region of the bucket. -/
  awsRegion : Option String := none
  /-- The language model that explains. -/
  llmModel : String := "gpt-4.1-mini"
  /-- The key for the language model. -/
  openaiApiKey : Option String := none
  /-- The least level of log lines. -/
  logLevel : String := "INFO"
  /-- Log lines are JSON. -/
  logJson : Bool := true

/-- The variables that settings are read off. -/
def Settings.variableNames : List String :=
  ["GRAPHYY_DATABASE_URL", "GRAPHYY_GITHUB_API_URL", "GITHUB_TOKEN", "GRAPHYY_HTTP_TIMEOUT_SECONDS",
    "GRAPHYY_MAX_FILES", "GRAPHYY_FETCH_CONCURRENCY", "GRAPHYY_POLL_INTERVAL_SECONDS",
    "GRAPHYY_INLINE_BUDGET_SECONDS", "GRAPHYY_S3_BUCKET", "GRAPHYY_S3_PREFIX", "AWS_REGION",
    "AWS_DEFAULT_REGION", "GRAPHYY_LLM_MODEL", "OPENAI_API_KEY", "GRAPHYY_LOG_LEVEL",
    "GRAPHYY_LOG_JSON"]

/-- The settings that an environment makes. -/
def Settings.ofEnvironment (env : Environment) : Settings :=
  { databaseUrl := env.text "GRAPHYY_DATABASE_URL" "sqlite:///graphyy.db"
    githubApiUrl := env.text "GRAPHYY_GITHUB_API_URL" "https://api.github.com"
    githubToken := env.text? "GITHUB_TOKEN"
    httpTimeoutSeconds := env.float "GRAPHYY_HTTP_TIMEOUT_SECONDS" 15.0
    maxFiles := env.int "GRAPHYY_MAX_FILES" Path.defaultMaxFiles
    fetchConcurrency := max 1 (env.int "GRAPHYY_FETCH_CONCURRENCY" 8)
    pollIntervalSeconds := env.float "GRAPHYY_POLL_INTERVAL_SECONDS" 5.0
    inlineBudgetSeconds := env.float "GRAPHYY_INLINE_BUDGET_SECONDS" 30.0
    s3Bucket := env.text? "GRAPHYY_S3_BUCKET"
    s3Prefix := env.text "GRAPHYY_S3_PREFIX" "graphyy/artifacts"
    awsRegion := env.text? "AWS_REGION" <|> env.text? "AWS_DEFAULT_REGION"
    llmModel := env.text "GRAPHYY_LLM_MODEL" "gpt-4.1-mini"
    openaiApiKey := env.text? "OPENAI_API_KEY"
    logLevel := String.ofList (Text.upper (env.text "GRAPHYY_LOG_LEVEL" "INFO").toList)
    logJson := env.switch "GRAPHYY_LOG_JSON" true }

end RepoGraph

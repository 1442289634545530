import ObjectDepot.Bytes

/-!
# Settings

The settings of the service, each from a variable of its environment or a default.
-/

namespace ObjectDepot

/-- The settings of the service. The path of the database is that of a file beside the program
unless the environment names another. -/
structure Settings where
  secretKey : String
  debug : Bool
  allowedHosts : List String
  databasePath : String
  defaultBranch : String
  logLevel : String
  deriving DecidableEq

namespace Settings

/-- The file of the database unless the environment names another. -/
def defaultDatabase : String := "git_store.sqlite3"

/-- The parts of a text between commas; there is always at least one. -/
def splitCommas (text : String) : List String :=
  (text.toList.splitOn ',').map String.ofList

/-- The settings in an environment. -/
def ofEnvironment (variableOf : String → Option String) : Settings where
  secretKey := (variableOf "GIT_STORE_SECRET_KEY").getD "insecure-dev-key"
  debug := variableOf "GIT_STORE_DEBUG" == some "1"
  allowedHosts :=
    splitCommas ((variableOf "GIT_STORE_ALLOWED_HOSTS").getD "localhost,127.0.0.1,testserver")
  databasePath := (variableOf "GIT_STORE_DB_PATH").getD defaultDatabase
  defaultBranch := (variableOf "GIT_STORE_DEFAULT_BRANCH").getD "main"
  logLevel := (variableOf "GIT_STORE_LOG_LEVEL").getD "INFO"

end Settings

end ObjectDepot

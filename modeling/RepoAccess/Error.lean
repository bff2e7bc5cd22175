/-
Failures of the permission store, the engine and the configuration.

* `DatabaseError` — what the database client reports.
* `AccessError` — every failure of this library, by cause.
* `DatabaseError.message`, `AccessError.message` — the wording of a cause.
* `AccessError.isRetryable` — the same call may succeed when it is made again.

That something does not exist is not a failure: look-ups answer with an option. Failures of the
store pass through unchanged; whether to try again is the caller's decision.
-/
import RepoAccess.Text.Quoted

namespace RepoAccess

/-! ### The database client -/

/-- A column of a result row, by name or by its place counted from zero. -/
inductive ColumnRef where
  | named (name : String)
  | at (place : Nat)
deriving DecidableEq, Repr

/-- A column as messages show it. -/
def ColumnRef.message : ColumnRef → String
  | .named name => Text.quoted name
  | .at place => toString place

/-- What the database client reports. -/
inductive DatabaseError where
  | poolTimedOut
  | poolClosed
  | workerCrashed
  | rowNotFound
  | columnNotFound (name : String)
  /-- A column without a value where one is required. -/
  | missingValue (column : ColumnRef)
  | protocol (text : String)
  /-- The connection broke. -/
  | connection (text : String)
  /-- The connection URL cannot be read. -/
  | badUrl (text : String)
  /-- The server refused a statement. -/
  | server (code : Option String) (text : String)
deriving DecidableEq, Repr

/-- The wording of a report. -/
def DatabaseError.message : DatabaseError → String
  | .poolTimedOut => "pool timed out while waiting for an open connection"
  | .poolClosed => "attempted to acquire a connection on a closed pool"
  | .workerCrashed => "attempted to communicate with a crashed background worker"
  | .rowNotFound => "no rows returned by a query that expected to return at least one row"
  | .columnNotFound name => "no column found for name: " ++ name
  | .missingValue column =>
    "error occurred while decoding column " ++ column.message ++
      ": unexpected null; try decoding as an `Option`"
  | .protocol text => "encountered unexpected or invalid data: " ++ text
  | .connection text => "error communicating with database: " ++ text
  | .badUrl text => "error with configuration: " ++ text
  | .server _ text => "error returned from database: " ++ text

/-- The server's code for a broken cycle of locks. -/
def deadlockDetected : String := "40P01"

/-- The server's code for a transaction that cannot be put in a serial order. -/
def serializationFailure : String := "40001"

/-- Whether a server code reports a conflict with a concurrent transaction, which a rerun of the
whole transaction resolves. -/
def isConflictCode (code : String) : Bool :=
  code == deadlockDetected || code == serializationFailure

/-- A broken connection, a shortage of connections and a conflict may pass. -/
def DatabaseError.isRetryable : DatabaseError → Bool
  | .server code _ => code.any isConflictCode
  | .connection _ | .poolTimedOut | .poolClosed => true
  | _ => false

/-! ### All failures -/

/-- A failure of the store, the engine or one of their collaborators. -/
inductive AccessError where
  | database (cause : DatabaseError)
  | query (backend reason : String)
  | transaction (backend reason : String)
  | userNotFound (user : Int32)
  | invalidPattern (pattern reason : String)
  | deadlineExceeded (operation : String) (timeoutMs : UInt64)
  | configuration (text : String)
  | serialization (reason : String)
deriving DecidableEq, Repr

/-- What decoding an empty JSON text fails with. -/
def AccessError.emptyJson : AccessError :=
  .serialization "EOF while parsing a value at line 1 column 0"

/-- The wording of a failure. -/
def AccessError.message : AccessError → String
  | .database cause => "Database error: " ++ cause.message
  | .query backend reason => "Query on " ++ backend ++ " failed: " ++ reason
  | .transaction backend reason => "Transaction on " ++ backend ++ " failed: " ++ reason
  | .userNotFound user => "User not found: " ++ toString user
  | .invalidPattern pattern reason =>
    "Invalid sub-repository pattern " ++ Text.quoted pattern ++ ": " ++ reason
  | .deadlineExceeded operation timeoutMs =>
    "Deadline exceeded: " ++ operation ++ " took longer than " ++ toString timeoutMs ++ "ms"
  | .configuration text => "Configuration error: " ++ text
  | .serialization reason => "Serialization error: " ++ reason

/-- Whether the call may be made again unchanged. -/
def AccessError.isRetryable : AccessError → Bool
  | .database cause => cause.isRetryable
  | .transaction _ _ | .deadlineExceeded _ _ => true
  | _ => false

/-- The name of a failure's cause in measurements. -/
def AccessError.label : AccessError → String
  | .database _ => "database"
  | .query _ _ => "query"
  | .transaction _ _ => "transaction"
  | .userNotFound _ => "user_not_found"
  | .invalidPattern _ _ => "invalid_pattern"
  | .deadlineExceeded _ _ => "deadline_exceeded"
  | .configuration _ => "configuration"
  | .serialization _ => "serialization"

end RepoAccess

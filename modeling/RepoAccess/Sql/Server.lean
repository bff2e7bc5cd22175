/-
The permission store over a database server.

* `Command` — what is sent to the server.
* `Server` — how it is reached and how it answers, over a state of type `σ`.
* `Server.perform` — a request of a transaction: its lock, its statement, and the answer decoded.
* `postgresStore` — the store whose transactions are those of the server.

A transaction that cannot be committed is rolled back, and so is one that is given up. A transaction
that was never started is not.
-/
import RepoAccess.Sql.Request
import RepoAccess.Store

namespace RepoAccess

/-- What is sent to the server. -/
inductive Command where
  | start
  | commit
  | rollBack
  | run (statement : Statement)
deriving DecidableEq, Repr

/-- The text of a command. -/
def Command.text : Command → String
  | .start => "BEGIN"
  | .commit => "COMMIT"
  | .rollBack => "ROLLBACK"
  | .run statement => statement.text

/-- A database server over a state of type `σ`. -/
structure Server (σ : Type) where
  /-- Makes sure that there is a connection. -/
  connect : σ → Except DatabaseError Unit × σ
  /-- Sends a command, over a new connection if the last one broke outside a transaction. -/
  send : Command → σ → Except DatabaseError Answer × σ

namespace Server

variable {σ : Type}

/-- Sends a command whose failure is a failure of the database. -/
def ask (server : Server σ) (command : Command) (s : σ) : Except AccessError Answer × σ :=
  let (result, s) := server.send command s
  (result.mapError .database, s)

/-- Takes the lock of a request, if it has one. -/
def lockFor (server : Server σ) (p : Primitive) (s : σ) : Except AccessError Unit × σ :=
  match p.lock? with
  | some key =>
    let (result, s) := server.ask (.run key.statement) s
    (result.map fun _ => (), s)
  | none => (.ok (), s)

/-- Answers a request: its lock first, then its statement. -/
def perform (server : Server σ) (now : Timestamp) (p : Primitive) (s : σ) :
    Except AccessError p.Reply × σ :=
  match server.lockFor p s with
  | (.error e, s) => (.error e, s)
  | (.ok _, s) =>
    let (result, s) := server.ask (.run (p.statement now)) s
    (result.bind p.decode, s)

/-- Starts a transaction. -/
def start (server : Server σ) (s : σ) : Except Stop Unit × σ :=
  match server.ask .start s with
  | (.error e, s) => (.error (.failed e), s)
  | (.ok _, s) => (.ok (), s)

/-- Gives the open transaction up. -/
def rollBack (server : Server σ) (s : σ) : σ := (server.ask .rollBack s).2

/-- Commits the open transaction, or gives it up if that fails. -/
def commit (server : Server σ) (s : σ) : Except AccessError Unit × σ :=
  match server.ask .commit s with
  | (.error e, s) => (.error e, server.rollBack s)
  | (.ok _, s) => (.ok (), s)

end Server

/-- The store whose transactions are those of a database server. -/
def postgresStore {σ : Type} (server : Server σ) : Store σ where
  backend := postgresName
  start := server.start
  perform := server.perform
  commit := server.commit
  rollBack := server.rollBack

end RepoAccess

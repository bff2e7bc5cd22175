/-
A database server that answers as it was told to.

* `Script` — which rows loads find, how many rows writes touch, and which commands fail.
* `ScriptedServer` — what is left of the script, what was sent, and the state of the connection.
* `scriptedServer` — the server.

A load takes the next rows that were scripted for its table, a deletion or an update the next count
for its table. Once a statement has failed, its transaction refuses every other one, and the end of
the transaction undoes it. A command for a transaction whose connection broke fails, but giving that
transaction up sends nothing.
-/
import RepoAccess.Sql.Server

namespace RepoAccess

/-- How a command fails. -/
inductive Fault where
  /-- The server refuses it, with a code and a message. -/
  | refused (code text : String)
  /-- The server hangs up. -/
  | hangUp
deriving DecidableEq, Repr

/-- How a server answers. -/
structure Script where
  /-- The rows that loads find, by table. -/
  rows : List (Table × List Row) := []
  /-- The rows that writes touch, by what they do; none unless scripted, one for an insertion. -/
  affected : List (StatementKind × Nat) := []
  /-- The commands that fail, by their place. -/
  faults : List (Nat × Fault) := []
deriving DecidableEq, Repr

/-- The state of the connection. -/
inductive Link where
  | closed
  | idle
  /-- A transaction is open. -/
  | busy
  /-- The open transaction has failed. -/
  | failed
  /-- The connection broke while a transaction was open. -/
  | broken
deriving DecidableEq, Repr

/-- A server in the middle of its script. -/
structure ScriptedServer where
  script : Script := {}
  /-- What was sent since the script was set, in order. -/
  sent : List Command := []
  link : Link := .closed
  /-- Connections that were asked for. -/
  connections : Nat := 0
  /-- What every connection is refused with, if it is refused. -/
  refusal : Option (String × String) := none
  /-- Connections go to the server, and not to a place where there is none. -/
  isFound : Bool := true
deriving DecidableEq, Repr

/-- The first value of a key, and the pairs without it. -/
def takeFirst {κ α : Type} [DecidableEq κ] (key : κ) : List (κ × α) → Option α × List (κ × α)
  | [] => (none, [])
  | (k, a) :: rest =>
    if k = key then (some a, rest)
    else
      let (found, rest) := takeFirst key rest
      (found, (k, a) :: rest)

namespace ScriptedServer

/-- What is said of a connection that broke. -/
def brokenConnection : DatabaseError :=
  .connection "expected to read 5 bytes, got 0 bytes at EOF"

/-- What is said of a connection to a place where there is no server. -/
def serverMissing : DatabaseError := .connection "No such file or directory (os error 2)"

/-- What is said of a statement in a transaction that has failed. -/
def transactionFailed : DatabaseError :=
  .server (some "25P02")
    "current transaction is aborted, commands ignored until end of transaction block"

/-- The server has no room or is starting: a client asks again until its time is over. -/
def isPassingRefusal (code : String) : Bool := code == "53300" || code == "57P03"

/-- Makes sure that there is a connection. -/
def connect (s : ScriptedServer) : Except DatabaseError Unit × ScriptedServer :=
  if s.link ≠ .closed then (.ok (), s)
  else if !s.isFound then (.error serverMissing, s)
  else
    let s := { s with connections := s.connections + 1 }
    match s.refusal with
    | some (code, text) =>
      (.error (if isPassingRefusal code then .poolTimedOut else .server (some code) text), s)
    | none => (.ok (), { s with link := .idle })

/-- What a statement finds in the script. -/
def answer (statement : Statement) (s : ScriptedServer) : Answer × ScriptedServer :=
  match statement.kind with
  | .define | .lock => ({}, s)
  | .select table =>
    let (rows, left) := takeFirst table s.script.rows
    ({ rows := rows.getD [] }, { s with script := { s.script with rows := left } })
  | .insert _ => ({ affected := 1 }, s)
  | .update _ | .delete _ =>
    let (affected, left) := takeFirst statement.kind s.script.affected
    ({ affected := affected.getD 0 }, { s with script := { s.script with affected := left } })

/-- Carries a command out over the connection there is. -/
def carryOut (command : Command) (s : ScriptedServer) :
    Except DatabaseError Answer × ScriptedServer :=
  match command with
  | .start => (.ok {}, { s with link := .busy })
  | .commit | .rollBack => (.ok {}, { s with link := .idle })
  | .run statement =>
    if s.link = .failed then (.error transactionFailed, s)
    else
      let (found, s) := s.answer statement
      (.ok found, s)

/-- The connection after a command failed. A client drops the connection if it cannot roll back. -/
def afterFault (command : Command) (fault : Fault) (link : Link) : Link :=
  match command, fault, link with
  | .rollBack, _, _ => .closed
  | _, .refused _ _, .busy => .failed
  | _, .refused _ _, link => link
  | _, .hangUp, .busy | _, .hangUp, .failed => .broken
  | _, .hangUp, _ => .closed

/-- What a fault is reported as. -/
def report : Fault → DatabaseError
  | .refused code text => .server (some code) text
  | .hangUp => brokenConnection

/-- Notes a command that arrived, and lets it fail or carries it out. -/
def receive (command : Command) (s : ScriptedServer) :
    Except DatabaseError Answer × ScriptedServer :=
  let fault := s.script.faults.lookup s.sent.length
  let s := { s with sent := s.sent ++ [command] }
  match fault with
  | some fault => (.error (report fault), { s with link := afterFault command fault s.link })
  | none => s.carryOut command

/-- Sends a command. -/
def send (command : Command) (s : ScriptedServer) : Except DatabaseError Answer × ScriptedServer :=
  if s.link = .broken then
    if command = .rollBack then (.ok {}, { s with link := .closed })
    else (.error brokenConnection, s)
  else
    match s.connect with
    | (.error e, s) => (.error e, s)
    | (.ok _, s) => s.receive command

end ScriptedServer

/-- The server that answers as it was told to. -/
def scriptedServer : Server ScriptedServer where
  connect := ScriptedServer.connect
  send := ScriptedServer.send

end RepoAccess

/-
The engine and how its operations are observed.

* `Engine` — a store, a source of identities, the binding mode in force, a deadline, and whether
  measurements are taken.
* `Action` — an operation over the state of the store, with a journal of measurements and notices.
* `Engine.observe` — an operation under its deadline, with its duration and failure measured.

Only waiting for another transaction takes time here: an operation that waits past its deadline
fails with it, one that never waits is in time, and one that waits without a deadline goes on
waiting and leaves no trace.
-/
import RepoAccess.Identity
import RepoAccess.Measurement
import RepoAccess.Notice
import RepoAccess.Store

namespace RepoAccess

/-- What operations leave for the operator, in order. -/
structure Journal where
  measurements : List Measurement := []
  notices : List Notice := []
deriving DecidableEq

/-- An operation over the state of a store. -/
abbrev Action (σ : Type) := ExceptT Stop (StateM (σ × Journal))

namespace Action

variable {σ α : Type}

/-- The operation from a state, with the journal of this operation alone. -/
def start (act : Action σ α) (s : σ) : Except Stop α × σ × Journal :=
  ExceptT.run act (s, {})

/-- An answer that may be a failure. -/
def ofExcept (result : Except AccessError α) : Action σ α :=
  match result with
  | .ok a => pure a
  | .error e => throw (.failed e)

/-- Adds a notice to the journal. -/
def note (notice : Notice) : Action σ Unit :=
  modify fun (s, journal) => (s, { journal with notices := journal.notices ++ [notice] })

/-- Adds a measurement to the journal. -/
def measure (m : Measurement) : Action σ Unit :=
  modify fun (s, journal) => (s, { journal with measurements := journal.measurements ++ [m] })

end Action

/-- The engine over a store with state `σ`. -/
structure Engine (σ : Type) where
  store : Store σ
  identityOf : UserId → Except AccessError Identity
  /-- The binding mode in force. -/
  mode : BindingMode := .unset
  /-- Milliseconds an operation may wait. -/
  timeoutMs : Option UInt64 := none
  /-- Whether measurements are taken. -/
  metrics : Bool := true

namespace Engine

variable {σ α : Type}

/-- Takes a measurement if any are taken. -/
def measure (e : Engine σ) (m : Measurement) : Action σ Unit :=
  if e.metrics then Action.measure m else pure ()

/-- A transaction on the engine's store. -/
def transact (e : Engine σ) (now : Timestamp) (body : Tx (Ending α)) : Action σ α :=
  ExceptT.mk fun (s, journal) =>
    let (result, s) := e.store.transact now body s
    (result, (s, journal))

/-- One program in a transaction of its own. -/
def once (e : Engine σ) (now : Timestamp) (body : Tx α) : Action σ α :=
  e.transact now (do return .commit (← body))

/-- The result of an operation under the deadline. -/
def inTime (e : Engine σ) (operation : String) (result : Except Stop α) : Except Stop α :=
  match result, e.timeoutMs with
  | .error .waiting, some ms => .error (.failed (.deadlineExceeded operation ms))
  | _, _ => result

/-- An operation under the deadline, with its duration and its failure measured. -/
def observe (e : Engine σ) (operation : String) (act : Action σ α) : Action σ α :=
  ExceptT.mk do
    let result := e.inTime operation (← act.run)
    let record (m : Measurement) : StateM (σ × Journal) Unit :=
      if e.metrics then
        modify fun (s, journal) => (s, { journal with measurements := journal.measurements ++ [m] })
      else pure ()
    match result with
    | .error .waiting => pure ()
    | .error (.failed error) =>
      record (.failed operation error.label)
      record (.took operation)
    | .ok _ => record (.took operation)
    return result

end Engine

end RepoAccess

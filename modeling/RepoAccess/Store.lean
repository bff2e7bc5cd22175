/-
A permission store, whatever it is made of.

* `Store` — how to start a transaction, answer its requests and end it, over a state of type `σ`.
* `Store.transact` — a whole transaction: started, run, and committed or rolled back as its program
  says; a failing request rolls it back.
* `Store.once` — one program in a transaction of its own.
* `Stop` — why an operation has no answer: it failed, or it waits for another transaction.
-/
import RepoAccess.Transaction.Writers

namespace RepoAccess

/-- Why an operation has no answer. -/
inductive Stop where
  | failed (e : AccessError)
  /-- Another transaction is open. -/
  | waiting
deriving DecidableEq, Repr

/-- How the program of a transaction wants it to end. -/
inductive Ending (α : Type) where
  | commit (answer : α)
  | rollBack (answer : α)

/-- A permission store over a state of type `σ`. -/
structure Store (σ : Type) where
  /-- The name in messages. -/
  backend : String
  start : σ → Except Stop Unit × σ
  /-- Answers a request of the open transaction at a moment. -/
  perform : Timestamp → (p : Primitive) → σ → Except AccessError p.Reply × σ
  /-- Ends the open transaction and keeps what it did; a failure keeps nothing. -/
  commit : σ → Except AccessError Unit × σ
  /-- Ends the open transaction and keeps nothing of it. -/
  rollBack : σ → σ

namespace Store

variable {σ α : Type}

/-- A whole transaction. -/
def transact (store : Store σ) (now : Timestamp) (body : Tx (Ending α)) (s : σ) :
    Except Stop α × σ :=
  match store.start s with
  | (.error stop, s) => (.error stop, s)
  | (.ok _, s) =>
    match body.run (store.perform now) s with
    | (.error e, s) => (.error (.failed e), store.rollBack s)
    | (.ok (.rollBack answer), s) => (.ok answer, store.rollBack s)
    | (.ok (.commit answer), s) =>
      match store.commit s with
      | (.error e, s) => (.error (.failed e), s)
      | (.ok _, s) => (.ok answer, s)

/-- One program in a transaction of its own. -/
def once (store : Store σ) (now : Timestamp) (body : Tx α) (s : σ) : Except Stop α × σ :=
  store.transact now (do return .commit (← body)) s

/-- A store whose transactions cannot even be started. -/
def failing (e : AccessError) : Store σ where
  backend := "failing"
  start s := (.error (.failed e), s)
  perform _ _ s := (.error e, s)
  commit s := (.error e, s)
  rollBack s := s

end Store

end RepoAccess

/-
Transactions as programs.

* `Primitive` — one request about rows, with `Primitive.Reply` for what it answers.
* `Tx` — a program that makes requests and goes on with the answers.
* `Tx.run` — the program with a way to answer each request; the first one that fails ends it.

A program says what is asked and in which order, and nothing about where the rows are. The same
program runs on tables in memory and over SQL statements.
-/
import RepoAccess.Error
import RepoAccess.Holdings

namespace RepoAccess

open Std

/-! ### Requests -/

/-- One request about the rows of the store. Saving a row replaces the one with its key. -/
inductive Primitive where
  | loadUser (user : UserId) (perm : Permission)
  | saveUser (row : UserHoldings)
  /-- Deletes the user's rows of every permission and counts them. -/
  | deleteUserRows (user : UserId)
  | loadRepo (repo : RepoId) (perm : Permission)
  | saveRepo (row : RepoHolders)
  /-- Takes the user out of every repository's row and counts the rows that changed. -/
  | removeFromRepos (user : UserId)
  | loadPending (holder : Alias) (perm : Permission)
  /-- The rows of an alias, reading first. -/
  | listPending (holder : Alias)
  | savePending (row : PendingHoldings)
  | deletePending (holder : Alias) (perm : Permission)
  | loadInvited (repo : RepoId) (perm : Permission) (provider : Provider)
  | saveInvited (row : PendingHolders)
  /-- Why the user has each repository. -/
  | loadUserSources (user : UserId) (perm : Permission)
  /-- Why each user has the repository. -/
  | loadRepoSources (repo : RepoId) (perm : Permission)
  | addSource (user : UserId) (perm : Permission) (repo : RepoId) (source : Source)
  | removeSource (user : UserId) (perm : Permission) (repo : RepoId) (source : Source)
  /-- Deletes every source of the user and counts the rows. -/
  | deleteSources (user : UserId)
  | saveOverlay (user : UserId) (repo : RepoId) (overlay : Overlay)
  | loadOverlays (user : UserId)
  /-- Deletes every overlay of the user and counts them. -/
  | deleteOverlays (user : UserId)

/-- What a request answers. -/
@[reducible] def Primitive.Reply : Primitive → Type
  | .loadUser _ _ => Option UserHoldings
  | .loadRepo _ _ => Option RepoHolders
  | .loadPending _ _ => Option PendingHoldings
  | .listPending _ => List PendingHoldings
  | .loadInvited _ _ _ => Option PendingHolders
  | .loadUserSources _ _ => ExtTreeMap RepoId SourceSet
  | .loadRepoSources _ _ => ExtTreeMap UserId SourceSet
  | .loadOverlays _ => ExtTreeMap RepoId Overlay
  | .deleteUserRows _ | .removeFromRepos _ | .deleteSources _ | .deleteOverlays _ => Nat
  | .saveUser _ | .saveRepo _ | .savePending _ | .deletePending _ _ | .saveInvited _
  | .addSource _ _ _ _ | .removeSource _ _ _ _ | .saveOverlay _ _ _ => Unit

/-! ### Programs -/

/-- A program of requests with an answer of type `α`. -/
inductive Tx (α : Type) where
  | done (a : α)
  | call (p : Primitive) (next : p.Reply → Tx α)

namespace Tx

/-- One program after another. -/
def bind {α β : Type} : Tx α → (α → Tx β) → Tx β
  | .done a, f => f a
  | .call p next, f => .call p fun reply => (next reply).bind f

instance : Monad Tx where
  pure := .done
  bind := bind

/-- The program of one request. -/
def request (p : Primitive) : Tx p.Reply := .call p .done

/-- The program with its requests answered one by one in a state. -/
def run {σ α : Type} (perform : (p : Primitive) → σ → Except AccessError p.Reply × σ) :
    Tx α → σ → Except AccessError α × σ
  | .done a, s => (.ok a, s)
  | .call p next, s =>
    match perform p s with
    | (.ok reply, s) => (next reply).run perform s
    | (.error e, s) => (.error e, s)

end Tx

end RepoAccess

/-
The permission store in memory.

* `MemoryStore` — the tables everybody sees, and those of the open transaction.
* `memoryStore` — starting, answering and ending transactions on them.

At most one transaction is open at a time; whoever comes meanwhile waits. A transaction works on
tables of its own, which take the place of the shared ones when it commits and are dropped when it
does not.
-/
import RepoAccess.Memory.Tables
import RepoAccess.Store

namespace RepoAccess

/-- The tables everybody sees, and those of the open transaction. -/
structure MemoryStore where
  shared : Tables := {}
  staged : Option Tables := none
  /-- Every commit fails, so that what happens then can be seen. -/
  refusesCommits : Bool := false
deriving DecidableEq

namespace MemoryStore

/-- Starts a transaction on tables of its own. -/
def start (s : MemoryStore) : Except Stop Unit × MemoryStore :=
  match s.staged with
  | some _ => (.error .waiting, s)
  | none => (.ok (), { s with staged := some s.shared })

/-- Answers a request on the tables of the open transaction. -/
def perform (now : Timestamp) (p : Primitive) (s : MemoryStore) :
    Except AccessError p.Reply × MemoryStore :=
  let (reply, tables) := Tables.perform now p (s.staged.getD s.shared)
  (.ok reply, { s with staged := some tables })

/-- Ends the open transaction and drops its tables. -/
def rollBack (s : MemoryStore) : MemoryStore := { s with staged := none }

/-- Ends the open transaction; its tables take the place of the shared ones. -/
def commit (s : MemoryStore) : Except AccessError Unit × MemoryStore :=
  if s.refusesCommits then (.error (.transaction "memory" "injected commit failure"), s.rollBack)
  else (.ok (), { s with shared := s.staged.getD s.shared, staged := none })

end MemoryStore

/-- The store in memory. -/
def memoryStore : Store MemoryStore where
  backend := "memory"
  start := MemoryStore.start
  perform := MemoryStore.perform
  commit := MemoryStore.commit
  rollBack := MemoryStore.rollBack

end RepoAccess

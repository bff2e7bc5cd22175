/-
What may happen to the store in memory.

* `Write`, `Question` — a client of the store writes, or asks;
* `Setup` — an engine over the store, whatever its identities, its mode and its deadline are;
* `Event` — a call of a client or of an engine, or something that makes calls fail: commits are
  refused for a while, or a transaction is left open for a while;
* `Deed` — what an event has committed;
* `Chronicle.of` — the store after a list of events, and its deeds, the latest one first.

A call fails when its commit is refused, when another transaction is open, or when the engine gives
up before. Then there is no deed.
-/
import RepoAccess.Proofs.Writers.Claim

namespace RepoAccess

/-! ### Calls -/

/-- A write of a client. -/
inductive Write where
  | replaceHolders (repo : RepoId) (perm : Permission) (users : UserSet)
  | replaceInvited (group : AliasGroup) (repo : RepoId) (perm : Permission)
  | replaceAccount (user : UserId) (account : AccountId) (repos : RepoSet)
  | clearAliases (holders : List Alias)
  | saveOverlay (user : UserId) (repo : RepoId) (overlay : Overlay)
  | deleteOverlays (user : UserId)
  | deleteUser (user : UserId)
deriving DecidableEq

/-- What a write asks of the store; its answer is left out. -/
def Write.program (now : Timestamp) : Write → Tx Unit
  | .replaceHolders repo perm users => do
    let _ ← Tx.replaceHolders now repo perm users
  | .replaceInvited group repo perm => do
    let _ ← Tx.replaceInvited now group repo perm
  | .replaceAccount user account repos => do
    let _ ← Tx.replaceAccount now user account repos
  | .clearAliases holders => do
    let _ ← Tx.clearAliases now holders
  | .saveOverlay user repo overlay => Tx.request (.saveOverlay user repo overlay)
  | .deleteOverlays user => do
    let _ ← Tx.request (.deleteOverlays user)
  | .deleteUser user => do
    let _ ← Tx.deleteUser user

/-- An engine over the store in memory, but for the store. -/
structure Setup where
  identityOf : UserId → Except AccessError Identity
  mode : BindingMode := .unset
  timeoutMs : Option UInt64 := none
  metrics : Bool := true

/-- The engine of a setup. -/
def Setup.engine (setup : Setup) : Engine MemoryStore where
  store := memoryStore
  identityOf := setup.identityOf
  mode := setup.mode
  timeoutMs := setup.timeoutMs
  metrics := setup.metrics

/-- The aliases that a setup finds for a user under a mode. -/
def Setup.candidates (setup : Setup) (user : UserId) (mode : BindingMode) : List Alias :=
  match setup.identityOf user with
  | .ok identity => identity.candidates mode
  | .error _ => []

/-- A question of a client, to the store or to an engine. -/
inductive Question where
  | holdings (user : UserId) (perm : Permission)
  | holders (repo : RepoId) (perm : Permission)
  | promised (holder : Alias) (perm : Permission)
  | invited (repo : RepoId) (perm : Permission) (provider : Provider)
  | overlays (user : UserId)
  | authorizedRepos (setup : Setup) (request : AccessRequest) (repos : List RepoId)
  | pathRules (setup : Setup) (user : UserId)
  | filterPaths (setup : Setup) (user : UserId) (perm : Permission) (repo : RepoId)
    (paths : List String)
  | canReadPath (setup : Setup) (user : UserId) (perm : Permission) (repo : RepoId) (path : String)

/-- The store after a question. -/
def Question.ask (now : Timestamp) (s : MemoryStore) : Question → MemoryStore
  | .holdings user perm => (memoryStore.once now (Tx.request (.loadUser user perm)) s).2
  | .holders repo perm => (memoryStore.once now (Tx.request (.loadRepo repo perm)) s).2
  | .promised holder perm => (memoryStore.once now (Tx.request (.loadPending holder perm)) s).2
  | .invited repo perm provider =>
    (memoryStore.once now (Tx.request (.loadInvited repo perm provider)) s).2
  | .overlays user => (memoryStore.once now (Tx.request (.loadOverlays user)) s).2
  | .authorizedRepos setup request repos =>
    ((setup.engine.authorizedRepos now request id repos).start s).2.1
  | .pathRules setup user => ((setup.engine.overlays now user).start s).2.1
  | .filterPaths setup user perm repo paths =>
    ((setup.engine.filterPaths now user perm repo paths).start s).2.1
  | .canReadPath setup user perm repo path =>
    ((setup.engine.canReadPath now user perm repo path).start s).2.1

/-! ### Events -/

/-- Something that happens at a moment. -/
inductive Event where
  | write (now : Timestamp) (w : Write)
  | ask (now : Timestamp) (q : Question)
  | grant (now : Timestamp) (setup : Setup) (request : GrantRequest) (mode : BindingMode)
  | revoke (now : Timestamp) (setup : Setup) (request : RevokeRequest)
  | saveOverlay (now : Timestamp) (setup : Setup) (user : UserId) (repo : RepoId)
    (overlay : Overlay)
  /-- From now on commits are refused, or no longer so. -/
  | refuseCommits (refuses : Bool)
  /-- A client leaves a transaction open. -/
  | hold
  /-- The open transaction is dropped. -/
  | release

/-- What an event has committed. -/
inductive Deed where
  | wrote (w : Write)
  /-- A user has claimed what was promised to these candidates. -/
  | granted (user : UserId) (perm : Permission) (candidates : List Alias) (repos : RepoSet)
  | revoked (user : UserId) (holders : List Alias)
deriving DecidableEq

/-! ### Runs -/

/-- The store and its deeds, the latest one first. -/
structure Chronicle where
  store : MemoryStore := {}
  deeds : List Deed := []

namespace Chronicle

/-- A call is over. Where it has an answer, the deed is done. -/
def close {α : Type} (c : Chronicle) (result : Except Stop α) (s : MemoryStore)
    (deed : α → Option Deed) : Chronicle :=
  match result with
  | .ok answer => ⟨s, (deed answer).toList ++ c.deeds⟩
  | .error _ => ⟨s, c.deeds⟩

/-- Something happens. A grant that matches nothing commits nothing. -/
def note (c : Chronicle) : Event → Chronicle
  | .write now w =>
    let (result, s) := memoryStore.once now (w.program now) c.store
    c.close result s fun _ => some (.wrote w)
  | .ask now q => { c with store := q.ask now c.store }
  | .grant now setup request mode =>
    let (result, s, _) := (setup.engine.grantUnder now request mode).start c.store
    let candidates := setup.candidates request.user mode
    c.close result s fun outcome =>
      if outcome.matched = 0 then none
      else some (.granted request.user request.perm candidates
        (c.store.shared.claimable request.perm candidates))
  | .revoke now setup request =>
    let (result, s, _) := (setup.engine.revoke now request).start c.store
    c.close result s fun _ => some (.revoked request.user request.aliases)
  | .saveOverlay now setup user repo overlay =>
    let (result, s, _) := (setup.engine.saveOverlay now user repo overlay).start c.store
    c.close result s fun _ => some (.wrote (.saveOverlay user repo overlay))
  | .refuseCommits refuses => { c with store := { c.store with refusesCommits := refuses } }
  | .hold => { c with store := c.store.start.2 }
  | .release => { c with store := c.store.rollBack }

/-- All these events happen, one after another, to an empty store. -/
def of (events : List Event) : Chronicle := events.foldl note {}

end Chronicle

end RepoAccess

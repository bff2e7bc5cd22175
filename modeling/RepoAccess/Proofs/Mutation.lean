/-
What an operation that writes comes down to.

* `Mutation` — a write of a client, or an operation of an engine that writes, and `Mutation.call` —
  the call of it through an engine, with its answer;
* `Plan`, `Mutation.plan` — it is settled before the store is asked, or is one transaction;
* `Mutation.effect_call` — the call does what is planned;
* `Plan.Succeeds` — nothing but the store can make it fail.

So what is said of all transactions of a store is said of all these operations.
-/
import RepoAccess.Proofs.Course.Event
import RepoAccess.Proofs.Operations

namespace RepoAccess

/-! ### Writes with their answers -/

/-- What a write answers. -/
@[reducible] def Write.Answer : Write → Type
  | .replaceHolders _ _ _ | .replaceInvited _ _ _ | .replaceAccount _ _ _ => ReplaceDiff
  | .saveOverlay _ _ _ => Unit
  | .clearAliases _ | .deleteOverlays _ | .deleteUser _ => Nat

/-- What a write asks of the store, with its answer. -/
def Write.call (now : Timestamp) : (w : Write) → Tx w.Answer
  | .replaceHolders repo perm users => Tx.replaceHolders now repo perm users
  | .replaceInvited group repo perm => Tx.replaceInvited now group repo perm
  | .replaceAccount user account repos => Tx.replaceAccount now user account repos
  | .clearAliases holders => Tx.clearAliases now holders
  | .saveOverlay user repo overlay => Tx.request (.saveOverlay user repo overlay)
  | .deleteOverlays user => Tx.request (.deleteOverlays user)
  | .deleteUser user => Tx.deleteUser user

/-! ### Operations -/

/-- An operation that writes. -/
inductive Mutation where
  | write (w : Write)
  | grant (request : GrantRequest) (mode : BindingMode)
  | revoke (request : RevokeRequest)
  | saveOverlay (user : UserId) (repo : RepoId) (overlay : Overlay)

/-- The engine of a setup over any store. -/
def Setup.engineOver {σ : Type} (setup : Setup) (store : Store σ) : Engine σ where
  store := store
  identityOf := setup.identityOf
  mode := setup.mode
  timeoutMs := setup.timeoutMs
  metrics := setup.metrics

@[simp] theorem Setup.engineOver_identityOf {σ : Type} (setup : Setup) (store : Store σ) :
    (setup.engineOver store).identityOf = setup.identityOf := rfl

theorem Setup.engineOver_memoryStore (setup : Setup) :
    setup.engineOver memoryStore = setup.engine := rfl

@[simp] theorem Setup.engineOver_store {σ : Type} (setup : Setup) (store : Store σ) :
    (setup.engineOver store).store = store := rfl

/-- What happens instead of a transaction, or in it. -/
inductive Plan (Answer : Type) where
  /-- The operation ends before the store is asked. -/
  | settled (result : Except AccessError Answer)
  | transaction (body : Tx (Ending Answer))

/-- The plan does not fail of itself. -/
def Plan.Succeeds {Answer : Type} : Plan Answer → Prop
  | .settled result => ∃ answer, result = .ok answer
  | .transaction _ => True

namespace Mutation

/-- What the operation answers. -/
@[reducible] def Answer : Mutation → Type
  | .write w => w.Answer
  | .grant _ _ => GrantOutcome
  | .revoke _ | .saveOverlay _ _ _ => Unit

/-- The call. A write of a client goes to the store without a deadline. -/
def call {σ : Type} (e : Engine σ) (now : Timestamp) : (m : Mutation) → Action σ m.Answer
  | .write w => e.once now (w.call now)
  | .grant request mode => e.grantUnder now request mode
  | .revoke request => e.revoke now request
  | .saveOverlay user repo overlay => e.saveOverlay now user repo overlay

/-- What there is to do, as far as it can be told from the identities. -/
def plan (identityOf : UserId → Except AccessError Identity) (now : Timestamp) :
    (m : Mutation) → Plan m.Answer
  | .write w => .transaction do return .commit (← w.call now)
  | .grant request mode =>
    match identityOf request.user with
    | .error e => .settled (.error e)
    | .ok identity =>
      if (identity.candidates mode).isEmpty then .settled (.ok { mode, candidates := 0 })
      else .transaction (claim now request mode (identity.candidates mode))
  | .revoke request => .transaction do
    let _ ← forget now request
    return .commit ()
  | .saveOverlay user repo overlay =>
    match compileRules overlay.paths with
    | .error e => .settled (.error e)
    | .ok _ => .transaction do return .commit (← Tx.request (.saveOverlay user repo overlay))

/-- The name under which the operation has a deadline, if it has one. -/
def name? : Mutation → Option String
  | .write _ => none
  | .grant _ _ => some "grant"
  | .revoke _ => some "revoke"
  | .saveOverlay _ _ _ => some "upsert_sub_repo"

/-- The result of the operation's transaction, under the deadline if there is one. -/
def inTime {σ α : Type} (e : Engine σ) (m : Mutation) (result : Except Stop α) : Except Stop α :=
  match m.name? with
  | some operation => e.inTime operation result
  | none => result

variable {σ α : Type} (e : Engine σ) (m : Mutation)

theorem inTime_ok (a : α) : m.inTime e (.ok a) = .ok a := by
  unfold inTime
  cases m.name? with
  | none => rfl
  | some operation => exact e.inTime_ok operation a

/-- The deadline does not depend on the store. -/
theorem inTime_engineOver {τ : Type} (setup : Setup) (store : Store σ) (store' : Store τ)
    (result : Except Stop α) :
    m.inTime (setup.engineOver store) result = m.inTime (setup.engineOver store') result := rfl

theorem inTime_error (stop : Stop) :
    ∃ stop', m.inTime e (.error stop : Except Stop α) = .error stop' := by
  unfold inTime
  cases m.name? with
  | none => exact ⟨stop, rfl⟩
  | some operation => exact e.inTime_error operation stop

/-- A program whose answer is not looked at. -/
theorem once_map_unit (store : Store σ) (now : Timestamp) (x : Tx α) (s : σ) :
    store.transact now (do let _ ← x; return .commit ()) s =
      ((store.once now x s).1.map fun _ => (), (store.once now x s).2) := by
  rw [Store.once, Store.transact, Store.transact]
  cases store.start s with | _ started s₁ =>
  cases started with
  | error stop => rfl
  | ok _ =>
    dsimp only
    rw [Tx.run_bind, Tx.run_bind]
    cases x.run (store.perform now) s₁ with | _ ran s₂ =>
    cases ran with
    | error error => rfl
    | ok a =>
      simp only [pure, Tx.run]
      cases store.commit s₂ with | _ kept s₃ =>
      cases kept <;> rfl

/-- The call does what is planned. -/
theorem effect_call (now : Timestamp) (s : σ) :
    (m.call e now).effect s =
      match m.plan e.identityOf now with
      | .settled result => (result.mapError .failed, s)
      | .transaction body =>
        (m.inTime e (e.store.transact now body s).1, (e.store.transact now body s).2) := by
  cases m with
  | write w => rfl
  | grant request mode =>
    rw [call, Engine.effect_grantUnder, plan]
    cases e.identityOf request.user with
    | error error => rfl
    | ok identity =>
      dsimp only
      split <;> rfl
  | revoke request =>
    rw [call, Engine.effect_revoke, plan]
    dsimp only
    rw [once_map_unit]
    rfl
  | saveOverlay user repo overlay =>
    rw [call, Engine.effect_saveOverlay, plan]
    cases compileRules overlay.paths with
    | error error => rfl
    | ok rules => rfl

end Mutation

end RepoAccess

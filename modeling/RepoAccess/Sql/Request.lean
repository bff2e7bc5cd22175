/-
Requests of a transaction as statements.

* `Primitive.lock?` — the lock that a request takes first, if it takes one.
* `Primitive.statement` — the statement of a request.
* `Primitive.decode` — what an answer to that statement says.

Every load takes the lock of its key, and so does the deletion of a user's rows. A save replaces the
row with its key, but a row that was once synced keeps that moment when the new one has none.
-/
import RepoAccess.Sql.Record
import RepoAccess.Sql.Statement
import RepoAccess.Transaction.Basic

namespace RepoAccess

/-- What the server answers to a statement. -/
structure Answer where
  rows : List Row := []
  /-- How many rows were written. -/
  affected : Nat := 0
deriving DecidableEq, Repr

namespace Primitive

/-- The lock that a request takes first. -/
def lock? : Primitive → Option LockKey
  | .loadUser user _ | .deleteUserRows user | .loadUserSources user _ => some (.user user)
  | .loadRepo repo _ | .loadRepoSources repo _ => some (.repo repo)
  | .loadPending holder _ | .listPending holder => some (.holder holder)
  | .loadInvited repo _ _ => some (.invited repo)
  | _ => none

/-- The statement of a request at a moment. -/
def statement (now : Timestamp) : Primitive → Statement
  | .loadUser user perm =>
    ⟨.select .users,
      sqlText ["SELECT user_id, permission, object_type, object_ids, updated_at, synced_at",
        "FROM user_permissions", "WHERE user_id = $1 AND permission = $2 AND object_type = $3",
        "FOR UPDATE"],
      [toSql user, toSql (name perm), toSql (name ResourceKind.repos)]⟩
  | .saveUser row =>
    ⟨.insert .users,
      sqlText ["INSERT INTO user_permissions",
        "(user_id, permission, object_type, object_ids, updated_at, synced_at)",
        "VALUES ($1, $2, $3, $4, $5, $6)",
        "ON CONFLICT (user_id, permission, object_type) DO UPDATE",
        "SET object_ids = EXCLUDED.object_ids,", "updated_at = EXCLUDED.updated_at,",
        "synced_at = COALESCE(EXCLUDED.synced_at, user_permissions.synced_at)"],
      row.toRow.values⟩
  | .deleteUserRows user =>
    ⟨.delete .users, "DELETE FROM user_permissions WHERE user_id = $1", [toSql user]⟩
  | .loadRepo repo perm =>
    ⟨.select .repos,
      sqlText ["SELECT user_ids, updated_at, synced_at", "FROM repo_permissions",
        "WHERE repo_id = $1 AND permission = $2", "FOR UPDATE"],
      [toSql repo, toSql (name perm)]⟩
  | .saveRepo row =>
    ⟨.insert .repos,
      sqlText ["INSERT INTO repo_permissions",
        "(repo_id, permission, user_ids, updated_at, synced_at)", "VALUES ($1, $2, $3, $4, $5)",
        "ON CONFLICT (repo_id, permission) DO UPDATE", "SET user_ids = EXCLUDED.user_ids,",
        "updated_at = EXCLUDED.updated_at,",
        "synced_at = COALESCE(EXCLUDED.synced_at, repo_permissions.synced_at)"],
      row.toRow.values⟩
  | .removeFromRepos user =>
    ⟨.update .repos,
      sqlText ["UPDATE repo_permissions",
        "SET user_ids = array_remove(user_ids, $1), updated_at = $2", "WHERE $1 = ANY(user_ids)"],
      [toSql user, toSql now]⟩
  | .loadPending holder perm =>
    ⟨.select .pending,
      sqlText ["SELECT service_type, service_id, bind_id, permission, object_type, object_ids,",
        "updated_at", "FROM user_pending_permissions",
        "WHERE service_type = $1 AND service_id = $2 AND bind_id = $3",
        "AND permission = $4 AND object_type = $5", "FOR UPDATE"],
      holder.toRow.values ++ [toSql (name perm), toSql (name ResourceKind.repos)]⟩
  | .listPending holder =>
    ⟨.select .pending,
      sqlText ["SELECT service_type, service_id, bind_id, permission, object_type, object_ids,",
        "updated_at", "FROM user_pending_permissions",
        "WHERE service_type = $1 AND service_id = $2 AND bind_id = $3",
        "ORDER BY permission, object_type", "FOR UPDATE"],
      holder.toRow.values⟩
  | .savePending row =>
    ⟨.insert .pending,
      sqlText ["INSERT INTO user_pending_permissions",
        "(service_type, service_id, bind_id, permission, object_type, object_ids, updated_at)",
        "VALUES ($1, $2, $3, $4, $5, $6, $7)",
        "ON CONFLICT (service_type, service_id, bind_id, permission, object_type) DO UPDATE",
        "SET object_ids = EXCLUDED.object_ids, updated_at = EXCLUDED.updated_at"],
      row.toRow.values⟩
  | .deletePending holder perm =>
    ⟨.delete .pending,
      sqlText ["DELETE FROM user_pending_permissions",
        "WHERE service_type = $1 AND service_id = $2 AND bind_id = $3",
        "AND permission = $4 AND object_type = $5"],
      holder.toRow.values ++ [toSql (name perm), toSql (name ResourceKind.repos)]⟩
  | .loadInvited repo perm provider =>
    ⟨.select .invited,
      sqlText ["SELECT bind_ids, updated_at", "FROM repo_pending_permissions",
        "WHERE repo_id = $1 AND permission = $2 AND service_type = $3 AND service_id = $4",
        "FOR UPDATE"],
      [toSql repo, toSql (name perm), toSql provider.serviceType, toSql provider.serviceId]⟩
  | .saveInvited row =>
    ⟨.insert .invited,
      sqlText ["INSERT INTO repo_pending_permissions",
        "(repo_id, permission, service_type, service_id, bind_ids, updated_at)",
        "VALUES ($1, $2, $3, $4, $5, $6)",
        "ON CONFLICT (repo_id, permission, service_type, service_id) DO UPDATE",
        "SET bind_ids = EXCLUDED.bind_ids, updated_at = EXCLUDED.updated_at"],
      row.toRow.values⟩
  | .loadUserSources user perm =>
    ⟨.select .sources,
      sqlText ["SELECT repo_id, source, external_account_id", "FROM user_repo_permissions",
        "WHERE user_id = $1 AND permission = $2"],
      [toSql user, toSql (name perm)]⟩
  | .loadRepoSources repo perm =>
    ⟨.select .sources,
      sqlText ["SELECT user_id, source, external_account_id", "FROM user_repo_permissions",
        "WHERE repo_id = $1 AND permission = $2"],
      [toSql repo, toSql (name perm)]⟩
  | .addSource user perm repo source =>
    ⟨.insert .sources,
      sqlText ["INSERT INTO user_repo_permissions",
        "(user_id, repo_id, permission, source, external_account_id, updated_at)",
        "VALUES ($1, $2, $3, $4, $5, $6)",
        "ON CONFLICT (user_id, repo_id, permission, source, external_account_id) DO UPDATE",
        "SET updated_at = EXCLUDED.updated_at"],
      (source.toRow user perm repo).values ++ [toSql now]⟩
  | .removeSource user perm repo source =>
    ⟨.delete .sources,
      sqlText ["DELETE FROM user_repo_permissions",
        "WHERE user_id = $1 AND repo_id = $2 AND permission = $3",
        "AND source = $4 AND external_account_id = $5"],
      (source.toRow user perm repo).values⟩
  | .deleteSources user =>
    ⟨.delete .sources, "DELETE FROM user_repo_permissions WHERE user_id = $1", [toSql user]⟩
  | .saveOverlay user repo overlay =>
    ⟨.insert .overlays,
      sqlText ["INSERT INTO sub_repo_permissions (user_id, repo_id, paths, updated_at)",
        "VALUES ($1, $2, $3, $4)", "ON CONFLICT (user_id, repo_id) DO UPDATE",
        "SET paths = EXCLUDED.paths, updated_at = EXCLUDED.updated_at"],
      (overlay.toRow user repo).values ++ [toSql now]⟩
  | .loadOverlays user =>
    ⟨.select .overlays, "SELECT repo_id, paths FROM sub_repo_permissions WHERE user_id = $1",
      [toSql user]⟩
  | .deleteOverlays user =>
    ⟨.delete .overlays, "DELETE FROM sub_repo_permissions WHERE user_id = $1", [toSql user]⟩

/-- The record of the first row, if there is a row. -/
def decodeFirst {α : Type} (ofRow : Row → Except AccessError α) (answer : Answer) :
    Except AccessError (Option α) :=
  match answer.rows.head? with
  | some row => some <$> ofRow row
  | none => .ok none

/-- What an answer to the statement of a request says. -/
def decode : (p : Primitive) → Answer → Except AccessError p.Reply
  | .loadUser _ _, answer => decodeFirst UserHoldings.ofRow answer
  | .loadRepo repo perm, answer => decodeFirst (RepoHolders.ofRow repo perm) answer
  | .loadPending _ _, answer => decodeFirst PendingHoldings.ofRow answer
  | .listPending _, answer => answer.rows.mapM PendingHoldings.ofRow
  | .loadInvited repo perm provider, answer =>
    decodeFirst (PendingHolders.ofRow repo perm provider) answer
  | .loadUserSources _ _, answer => sourcesOfRows RepoId "repo_id" answer.rows
  | .loadRepoSources _ _, answer => sourcesOfRows UserId "user_id" answer.rows
  | .loadOverlays _, answer => overlaysOfRows answer.rows
  | .deleteUserRows _, answer | .removeFromRepos _, answer | .deleteSources _, answer
  | .deleteOverlays _, answer => .ok answer.affected
  | .saveUser _, _ | .saveRepo _, _ | .savePending _, _ | .deletePending _ _, _
  | .saveInvited _, _ | .addSource _ _ _ _, _ | .removeSource _ _ _ _, _
  | .saveOverlay _ _ _, _ => .ok ()

end Primitive

end RepoAccess

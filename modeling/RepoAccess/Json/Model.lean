/-
The records of the permission store as JSON.

One `JsonCodec` for each type. Enumerations are written by name, sets as arrays in ascending order,
moments as RFC 3339 texts, and an alias side by side with its provider's fields.
-/
import RepoAccess.Holdings
import RepoAccess.Json.Codec
import RepoAccess.Requests

namespace RepoAccess

open Std

/-! ### Enumerations -/

/-- A type with names is written by name. -/
abbrev Named.jsonCodec {α : Type} [Named α] : JsonCodec α where
  toJson a := .string (name a)
  ofJson? j := j.plainVariant?.bind Named.ofName?

instance : JsonCodec Permission := Named.jsonCodec
instance : JsonCodec ResourceKind := Named.jsonCodec
instance : JsonCodec BindingMode := Named.jsonCodec

/-! ### Numbers, moments and sets -/

instance : JsonCodec UserId := ⟨fun u => toJson u.val, fun j => (j.as? Int32).map UserId.mk⟩
instance : JsonCodec RepoId := ⟨fun r => toJson r.val, fun j => (j.as? Int32).map RepoId.mk⟩
instance : JsonCodec AccountId := ⟨fun a => toJson a.val, fun j => (j.as? Int32).map AccountId.mk⟩

instance : JsonCodec Timestamp where
  toJson t := .string t.render
  ofJson? j := do Timestamp.parse (← j.as? String)

instance {α : Type} [Ord α] [TransOrd α] [JsonCodec α] : JsonCodec (ExtTreeSet α) where
  toJson s := toJson s.toList
  ofJson? j := (j.as? (List α)).map fun xs => ExtTreeSet.ofList xs

instance : JsonCodec Source where
  toJson
    | .repoSync => .string "repo_sync"
    | .grant => .string "grant"
    | .account id => .object [("external_account", toJson id)]
  ofJson? j :=
    match j.plainVariant?, j.variant? with
    | some "repo_sync", _ => some .repoSync
    | some "grant", _ => some .grant
    | _, some ("external_account", some v) => (v.as? AccountId).map .account
    | _, _ => none

/-! ### Principals -/

instance : JsonCodec Provider where
  toJson p := .object [("service_type", toJson p.serviceType), ("service_id", toJson p.serviceId)]
  ofJson? j := do
    let r ← j.record? ["service_type", "service_id"]
    return ⟨← r.required "service_type", ← r.required "service_id"⟩

instance : JsonCodec Alias where
  toJson a := .object [("service_type", toJson a.provider.serviceType),
    ("service_id", toJson a.provider.serviceId), ("bind_id", toJson a.bindId)]
  ofJson? j := do
    let r ← j.record? ["service_type", "service_id", "bind_id"]
    return ⟨⟨← r.required "service_type", ← r.required "service_id"⟩, ← r.required "bind_id"⟩

instance : JsonCodec AliasGroup where
  toJson g := .object [("group", toJson g.provider), ("bind_ids", toJson g.bindIds)]
  ofJson? j := do
    let r ← j.record? ["group", "bind_ids"]
    return ⟨← r.required "group", ← r.required "bind_ids"⟩

instance : JsonCodec AccountSpec where
  toJson s := .object [("service_type", toJson s.provider.serviceType),
    ("service_id", toJson s.provider.serviceId), ("account_id", toJson s.accountId)]
  ofJson? j := do
    let r ← j.record? ["service_type", "service_id", "account_id"]
    return ⟨⟨← r.required "service_type", ← r.required "service_id"⟩, ← r.required "account_id"⟩

instance : JsonCodec Account where
  toJson a := .object [("id", toJson a.id), ("spec", toJson a.spec)]
  ofJson? j := do
    let r ← j.record? ["id", "spec"]
    return ⟨← r.required "id", ← r.required "spec"⟩

instance : JsonCodec EmailAddress where
  toJson e := .object [("email", toJson e.address), ("verified", toJson e.verified)]
  ofJson? j := do
    let r ← j.record? ["email", "verified"]
    return ⟨← r.required "email", ← r.required "verified"⟩

instance : JsonCodec Identity where
  toJson i := .object [("user_id", toJson i.user), ("username", toJson i.username),
    ("emails", toJson i.emails), ("external_accounts", toJson i.accounts)]
  ofJson? j := do
    let r ← j.record? ["user_id", "username", "emails", "external_accounts"]
    return ⟨← r.required "user_id", ← r.optional "username", ← r.required "emails",
      ← r.required "external_accounts"⟩

instance : JsonCodec Repo where
  toJson r := .object [("id", toJson r.id), ("name", toJson r.name)]
  ofJson? j := do
    let r ← j.record? ["id", "name"]
    return ⟨← r.required "id", ← r.required "name"⟩

/-! ### Records of the store -/

instance : JsonCodec UserHoldings where
  toJson h := .object [("user_id", toJson h.user), ("perm", toJson h.perm),
    ("perm_type", toJson h.resource), ("ids", toJson h.repos), ("updated_at", toJson h.updatedAt),
    ("synced_at", toJson h.syncedAt)]
  ofJson? j := do
    let r ← j.record? ["user_id", "perm", "perm_type", "ids", "updated_at", "synced_at"]
    return ⟨← r.required "user_id", ← r.required "perm", ← r.required "perm_type",
      ← r.required "ids", ← r.required "updated_at", ← r.optional "synced_at"⟩

instance : JsonCodec RepoHolders where
  toJson h := .object [("repo_id", toJson h.repo), ("perm", toJson h.perm),
    ("user_ids", toJson h.users), ("updated_at", toJson h.updatedAt),
    ("synced_at", toJson h.syncedAt)]
  ofJson? j := do
    let r ← j.record? ["repo_id", "perm", "user_ids", "updated_at", "synced_at"]
    return ⟨← r.required "repo_id", ← r.required "perm", ← r.required "user_ids",
      ← r.required "updated_at", ← r.optional "synced_at"⟩

instance : JsonCodec PendingHoldings where
  toJson h := .object [("key", toJson h.holder), ("perm", toJson h.perm),
    ("perm_type", toJson h.resource), ("ids", toJson h.repos), ("updated_at", toJson h.updatedAt)]
  ofJson? j := do
    let r ← j.record? ["key", "perm", "perm_type", "ids", "updated_at"]
    return ⟨← r.required "key", ← r.required "perm", ← r.required "perm_type", ← r.required "ids",
      ← r.required "updated_at"⟩

instance : JsonCodec PendingHolders where
  toJson h := .object [("repo_id", toJson h.repo), ("perm", toJson h.perm),
    ("group", toJson h.provider), ("bind_ids", toJson h.bindIds),
    ("updated_at", toJson h.updatedAt)]
  ofJson? j := do
    let r ← j.record? ["repo_id", "perm", "group", "bind_ids", "updated_at"]
    return ⟨← r.required "repo_id", ← r.required "perm", ← r.required "group",
      ← r.required "bind_ids", ← r.required "updated_at"⟩

instance : JsonCodec Overlay where
  toJson o := .object [("paths", toJson o.paths)]
  ofJson? j := do
    let r ← j.record? ["paths"]
    return ⟨← r.required "paths"⟩

/-! ### Requests and outcomes -/

instance : JsonCodec ReplaceDiff where
  toJson d := .object [("added", toJson d.added), ("removed", toJson d.removed),
    ("found", toJson d.found)]
  ofJson? j := do
    let r ← j.record? ["added", "removed", "found"]
    return ⟨← r.required "added", ← r.required "removed", ← r.required "found"⟩

instance : JsonCodec GrantOutcome where
  toJson o := .object [("mode", toJson o.mode), ("candidates", toJson o.candidates),
    ("matched", toJson o.matched), ("granted", toJson o.granted), ("added", toJson o.added)]
  ofJson? j := do
    let r ← j.record? ["mode", "candidates", "matched", "granted", "added"]
    return ⟨← r.required "mode", ← r.required "candidates", ← r.required "matched",
      ← r.required "granted", ← r.required "added"⟩

instance : JsonCodec GrantRequest where
  toJson g := .object [("user_id", toJson g.user), ("perm", toJson g.perm),
    ("perm_type", toJson g.resource)]
  ofJson? j := do
    let r ← j.record? ["user_id", "perm", "perm_type"]
    return ⟨← r.required "user_id", ← r.required "perm", ← r.required "perm_type"⟩

instance : JsonCodec AccessRequest where
  toJson g := .object [("user_id", toJson g.user), ("perm", toJson g.perm),
    ("perm_type", toJson g.resource)]
  ofJson? j := do
    let r ← j.record? ["user_id", "perm", "perm_type"]
    return ⟨← r.required "user_id", ← r.required "perm", ← r.required "perm_type"⟩

instance : JsonCodec RevokeRequest where
  toJson g := .object [("user_id", toJson g.user), ("accounts", toJson g.groups)]
  ofJson? j := do
    let r ← j.record? ["user_id", "accounts"]
    return ⟨← r.required "user_id", ← r.required "accounts"⟩

end RepoAccess

/-
A revocation that is built from an identity disarms every later claim of its user.

* `mem_aliases_ofIdentity` — the aliases of such a revocation are all addresses, verified or not,
  the user name, and the linked accounts;
* `Identity.SameAliases` — two identities of one user that may differ in what is verified;
* `Identity.mem_aliases_of_mem_candidates` — whatever a claim may look up under any mode is among
  the aliases;
* `revoked_identity_is_disarmed` — after the revocation claims find nothing and checks allow
  nothing, and claims go on finding nothing until a list names one of the aliases again.

The groups are built without a look at the mode, and claims look at one kind of facts only. That is
why it takes one revocation to disarm every mode.
-/
import RepoAccess.Proofs.Justification
import RepoAccess.Proofs.Migration
import RepoAccess.Proofs.PathChecks

namespace RepoAccess

open Std

/-! ### The aliases of an identity -/

/-- The aliases of a revocation that is built from an identity. -/
theorem mem_aliases_ofIdentity {identity : Identity} {holder : Alias} :
    holder ∈ (RevokeRequest.ofIdentity identity).aliases ↔
      (∃ email ∈ identity.emails, holder = .internal email.address) ∨
      (∃ username, identity.username = some username ∧ holder = .internal username) ∨
      ∃ account ∈ identity.accounts, holder = account.spec.toAlias := by
  rw [RevokeRequest.ofIdentity, RevokeRequest.aliases, identity.perm_aliasGroups.mem_iff]
  simp only [Identity.ownNames, List.map_append, List.map_map, List.mem_append, List.mem_map,
    Option.mem_toList, Function.comp_apply, or_assoc, @eq_comm _ holder]

/-- What a claim looks up under any mode is among the aliases. -/
theorem Identity.mem_aliases_of_mem_candidates {identity : Identity} {mode : BindingMode}
    {holder : Alias} (h : holder ∈ identity.candidates mode) :
    holder ∈ (RevokeRequest.ofIdentity identity).aliases := by
  rw [mem_aliases_ofIdentity]
  cases mode with
  | email =>
    obtain ⟨email, hmem, -, hholder⟩ := mem_candidates_iff.1 h
    exact .inl ⟨email, hmem, hholder⟩
  | username =>
    obtain ⟨username, hname, -, hholder⟩ := mem_candidates_iff.1 h
    exact .inr (.inl ⟨username, hname, hholder⟩)
  | unset => exact .inr (.inr (mem_candidates_iff.1 h))

/-- The same user with the same aliases; other addresses may be verified. -/
structure Identity.SameAliases (identity identity' : Identity) : Prop where
  user : identity'.user = identity.user
  username : identity'.username = identity.username
  accounts : identity'.accounts = identity.accounts
  addresses : identity'.emails.map (·.address) = identity.emails.map (·.address)

theorem Identity.SameAliases.ofIdentity {identity identity' : Identity}
    (h : identity.SameAliases identity') :
    RevokeRequest.ofIdentity identity' = RevokeRequest.ofIdentity identity := by
  rw [RevokeRequest.ofIdentity, RevokeRequest.ofIdentity, aliasGroups, aliasGroups, h.user,
    h.username, h.accounts, h.addresses]

/-! ### After a revocation -/

/-- Nothing is promised to aliases that are forgotten. -/
theorem Tables.Forgotten.claimants_eq_nil {now : Timestamp} {user : UserId} {holders : List Alias}
    {t t' : Tables} (h : Forgotten now user holders t t') {candidates : List Alias}
    (hsub : ∀ holder ∈ candidates, holder ∈ holders) (perm : Permission) :
    t'.claimants perm candidates = [] :=
  claimants_eq_nil_of_promisedTo fun holder hcandidate _ hrepo =>
    (h.mem_promisedTo.1 hrepo).1 (hsub holder hcandidate)

/-- Nothing is promised to aliases that have been taken from, if no list has named them since. -/
theorem Chronicle.claimants_eq_nil {events : List Event} {later earlier : List Deed} {taken : Deed}
    {candidates : List Alias} {perm : Permission}
    (hdeeds : (of events).deeds = later ++ taken :: earlier)
    (htaken : ∀ holder ∈ candidates, taken.takes holder perm = true)
    (hnone : ∀ group repo, .wrote (.replaceInvited group repo perm) ∈ later →
      ∀ holder ∈ candidates, holder ∉ group.aliases) :
    (of events).store.shared.claimants perm candidates = [] := by
  refine Tables.claimants_eq_nil_of_promisedTo fun holder hcandidate repo hrepo => ?_
  have hpromised := ((promised_of events).2 holder perm repo).1 hrepo
  rw [hdeeds] at hpromised
  obtain ⟨group, hlist, hprovider, hbindId⟩ := hpromised.made_after (htaken holder hcandidate)
  refine hnone group repo hlist holder hcandidate (List.mem_map.2 ⟨holder.bindId, hbindId, ?_⟩)
  rw [hprovider]

/-- A claim by a user with this identity, under whatever mode, finds nothing and leaves the store
as it is. -/
def MemoryStore.Disarmed (s : MemoryStore) (identity : Identity) : Prop :=
  ∀ (now : Timestamp) (setup : Setup) (claim : GrantRequest) (mode : BindingMode),
    setup.identityOf claim.user = .ok identity →
      ((setup.engine.grantUnder now claim mode).start s).1 =
          .ok { mode, candidates := (identity.candidates mode).length, matched := 0, granted := 0,
                added := 0 } ∧
        ((setup.engine.grantUnder now claim mode).start s).2.1 = s

theorem disarmed_of_claimants {s : MemoryStore} {identity : Identity} (hs : s.shared.Keyed)
    (hstaged : s.staged = none)
    (h : ∀ mode perm, s.shared.claimants perm (identity.candidates mode) = []) :
    s.Disarmed identity := fun now setup claim mode hid =>
  grant_of_nothing hs hstaged (h mode claim.perm) now setup hid

/-- After a revocation that is built from an identity and succeeds, claims find nothing and checks
allow nothing, whatever is verified and whatever mode is in force. At any time later claims find
nothing either, unless one of the aliases has been put on a list again. -/
theorem revoked_identity_is_disarmed (events : List Event) (now : Timestamp) (setup : Setup)
    (identity : Identity) :
    let asked := RevokeRequest.ofIdentity identity
    let ran := (setup.engine.revoke now asked).start (Chronicle.of events).store
    (∀ mode, ∀ holder ∈ identity.candidates mode, holder ∈ asked.aliases) ∧
    (ran.1 = .ok () →
      (∀ identity', identity.SameAliases identity' → ran.2.1.Disarmed identity') ∧
      ∀ (now' : Timestamp) (setup' : Setup) perm,
        (∀ (α : Type) (repoOf : α → RepoId) (repos : List α),
          ((setup'.engine.authorizedRepos now' { user := identity.user, perm } repoOf repos).start
            ran.2.1).1 = .ok []) ∧
        ∀ repo paths,
          ((setup'.engine.filterPaths now' identity.user perm repo paths).start ran.2.1).1 =
            .ok []) ∧
    ∀ (events' : List Event) later earlier,
      (Chronicle.of events').deeds = later ++ .revoked identity.user asked.aliases :: earlier →
      (∀ group repo perm, .wrote (.replaceInvited group repo perm) ∈ later →
        ∀ holder ∈ asked.aliases, holder ∉ group.aliases) →
      (Chronicle.of events').store.staged = none →
        ∀ identity', identity.SameAliases identity' →
          (Chronicle.of events').store.Disarmed identity' := by
  intro asked ran
  have hcovers : ∀ identity', identity.SameAliases identity' →
      ∀ mode, ∀ holder ∈ identity'.candidates mode, holder ∈ asked.aliases := by
    intro identity' hsame mode holder hmem
    have hmem' := Identity.mem_aliases_of_mem_candidates hmem
    rwa [hsame.ofIdentity] at hmem'
  refine ⟨hcovers identity ⟨rfl, rfl, rfl, rfl⟩, fun hok => ?_, ?_⟩
  · obtain ⟨hforgotten, hkeyed, hfree⟩ := forgotten_of_revoke (Chronicle.keyed_of events) hok
    have hlost : ∀ perm repo, repo ∉ ran.2.1.shared.reposOf identity.user perm :=
      fun perm repo hmem => (hforgotten.mem_reposOf.1 hmem).1 rfl
    refine ⟨fun identity' hsame => ?_, fun now' setup' perm => ⟨fun α repoOf repos => ?_,
      fun repo paths => ?_⟩⟩
    · exact disarmed_of_claimants hkeyed hfree.1 fun mode perm =>
        hforgotten.claimants_eq_nil (hcovers identity' hsame mode) perm
    · refine ((answers_authorizedRepos _ setup' now' _ repoOf repos).1 hfree.1 hfree.2).trans ?_
      refine congrArg Except.ok (List.filter_eq_nil_iff.2 fun repo _ => ?_)
      exact mt ExtTreeSet.contains_iff_mem.1 (hlost perm (repoOf repo))
    · rw [filterPaths_undisturbed hfree, Tables.judged_of_not_mem (hlost perm repo)]
  · intro events' later earlier hdeeds hnone hstaged identity' hsame
    refine disarmed_of_claimants (Chronicle.keyed_of events') hstaged fun mode perm => ?_
    have hcandidates := hcovers identity' hsame mode
    refine Chronicle.claimants_eq_nil hdeeds (fun holder hmem => ?_)
      fun group repo hlist holder hmem => ?_
    · exact decide_eq_true (hcandidates holder hmem)
    · exact hnone group repo perm hlist holder (hcandidates holder hmem)

/-- A repository is promised to an address that is not verified yet and to an account of this system
itself. After the revocation the address is verified, and another alias is put on the list. -/
theorem revoked_identity_is_disarmed_once_verified :
    let identity : Identity :=
      ⟨⟨7⟩, some "a", [⟨"a@b", false⟩], [⟨⟨3⟩, ⟨.internal, "x"⟩⟩]⟩
    let verified : Identity := { identity with emails := [⟨"a@b", true⟩] }
    let setup : Setup := { identityOf := fun _ => .ok verified }
    let claim : GrantRequest := { user := ⟨7⟩, perm := .read }
    let events : List Event :=
      [.write ⟨0, 0⟩ (.replaceInvited ⟨.internal, ["a@b", "x"]⟩ ⟨1⟩ .read)]
    let more : List Event := [.revoke ⟨1, 0⟩ setup (.ofIdentity identity),
      .write ⟨2, 0⟩ (.replaceInvited ⟨.internal, ["c"]⟩ ⟨1⟩ .read)]
    let s := (Chronicle.of (events ++ more)).store
    ((setup.engine.revoke ⟨1, 0⟩ (.ofIdentity identity)).start
      (Chronicle.of events).store).2.1.Disarmed verified ∧
    ((setup.engine.grantUnder ⟨3, 0⟩ claim .email).start s).1 =
      .ok { mode := .email, candidates := 1, matched := 0, granted := 0, added := 0 } ∧
    ((setup.engine.grantUnder ⟨3, 0⟩ claim .email).start s).2.1 = s := by
  intro identity verified setup claim events more s
  have hsame : identity.SameAliases verified := ⟨rfl, rfl, rfl, rfl⟩
  have hkeyed : (Chronicle.of events).store.shared.Keyed := Chronicle.keyed_of events
  have hfree : (Chronicle.of events).store.Free := by decide +kernel
  have hok : ((setup.engine.revoke ⟨1, 0⟩ (.ofIdentity identity)).start
      (Chronicle.of events).store).1 = .ok () := by
    rw [start_revoke_of_free hkeyed hfree]
  have hdeeds : (Chronicle.of (events ++ more)).deeds =
      [.wrote (.replaceInvited ⟨.internal, ["c"]⟩ ⟨1⟩ .read)] ++
        .revoked ⟨7⟩ (RevokeRequest.ofIdentity identity).aliases ::
          [.wrote (.replaceInvited ⟨.internal, ["a@b", "x"]⟩ ⟨1⟩ .read)] := by
    decide +kernel
  have hstaged : s.staged = none := by decide +kernel
  obtain ⟨-, hafter, hlater⟩ := revoked_identity_is_disarmed events ⟨1, 0⟩ setup identity
  have hdisarmed : s.Disarmed verified := by
    refine hlater (events ++ more) _ _ hdeeds ?_ hstaged verified hsame
    intro group repo perm hmem
    cases List.mem_singleton.1 hmem
    decide +kernel
  exact ⟨(hafter hok).1 verified hsame, hdisarmed ⟨3, 0⟩ setup claim .email rfl⟩

end RepoAccess

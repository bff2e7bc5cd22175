/-
The aliases of an identity, in groups and as candidates.

* `ListsOnce`, `listsOnce_eraseDups` — the members of a list, each of them once, in the order in
  which they first occur;
* `namesAt`, `namesAt_addAlias`, `map_provider_addAlias`, `perm_addAlias` — what one more alias does
  to groups whose providers are distinct;
* `Identity.listsOnce_aliasGroups`, `Identity.namesAt_aliasGroups`, `Identity.perm_aliasGroups` —
  the same for all aliases of an identity;
* `aliases_are_grouped` — the groups hold every alias exactly as often as the identity does, and
  the candidates are the facts of a mode, each of them once.

An account of this system itself joins the addresses and the user name. All other groups have
accounts only.
-/
import Mathlib.Data.List.Induction
import Mathlib.Data.List.Nodup
import RepoAccess.Identity

namespace RepoAccess

/-! ### Lists without repetitions -/

/-- A list has the members of another one, each of them once, and in the order in which they first
occur there. -/
structure ListsOnce {ι : Type} [DecidableEq ι] (kept all : List ι) : Prop where
  nodup : kept.Nodup
  mem : ∀ a, a ∈ kept ↔ a ∈ all
  order : ∀ a ∈ all, ∀ b ∈ all, kept.idxOf a < kept.idxOf b ↔ all.idxOf a < all.idxOf b

section Once

variable {ι : Type} [DecidableEq ι] {kept all : List ι} {x : ι}

theorem ListsOnce.nil : ListsOnce ([] : List ι) [] := ⟨List.nodup_nil, fun _ => .rfl, nofun⟩

/-- What has occurred before is not listed again. -/
theorem ListsOnce.append_old (h : ListsOnce kept all) (hx : x ∈ all) :
    ListsOnce kept (all ++ [x]) := by
  have hmem : ∀ a, a ∈ all ++ [x] ↔ a ∈ all := fun a => by
    rw [List.mem_append, List.mem_singleton]
    exact or_iff_left_of_imp fun ha => ha ▸ hx
  refine ⟨h.nodup, fun a => (h.mem a).trans (hmem a).symm, fun a ha b hb => ?_⟩
  rw [hmem] at ha hb
  rw [h.order a ha b hb, List.idxOf_append_of_mem ha, List.idxOf_append_of_mem hb]

/-- What occurs for the first time is listed at the end. -/
theorem ListsOnce.append_new (h : ListsOnce kept all) (hx : x ∉ all) :
    ListsOnce (kept ++ [x]) (all ++ [x]) := by
  have hkept : x ∉ kept := mt (h.mem x).1 hx
  refine ⟨?_, fun a => ?_, fun a ha b hb => ?_⟩
  · exact h.nodup.append (List.nodup_singleton x) (List.disjoint_singleton.2 hkept)
  · rw [List.mem_append, List.mem_append, h.mem]
  · rw [List.mem_append, List.mem_singleton] at ha hb
    have hlast : ∀ xs : List ι, x ∉ xs → (xs ++ [x]).idxOf x = xs.length := fun xs hxs => by
      rw [List.idxOf_append_of_notMem hxs, List.idxOf_cons_self, Nat.add_zero]
    rcases ha with ha | rfl <;> rcases hb with hb | rfl
    · have ha' := (h.mem a).2 ha
      have hb' := (h.mem b).2 hb
      rw [List.idxOf_append_of_mem ha, List.idxOf_append_of_mem hb, List.idxOf_append_of_mem ha',
        List.idxOf_append_of_mem hb', h.order a ha b hb]
    · have ha' := (h.mem a).2 ha
      rw [hlast _ hx, hlast _ hkept, List.idxOf_append_of_mem ha, List.idxOf_append_of_mem ha']
      exact iff_of_true (List.idxOf_lt_length_iff.2 ha') (List.idxOf_lt_length_iff.2 ha)
    · have hb' := (h.mem b).2 hb
      rw [hlast _ hx, hlast _ hkept, List.idxOf_append_of_mem hb, List.idxOf_append_of_mem hb']
      have hlt := List.idxOf_lt_length_iff.2 hb
      have hlt' := List.idxOf_lt_length_iff.2 hb'
      omega
    · exact iff_of_false (Nat.lt_irrefl _) (Nat.lt_irrefl _)

/-- What occurs first is listed first. -/
theorem ListsOnce.exists_eq_cons (h : ListsOnce kept (x :: all)) : ∃ rest, kept = x :: rest := by
  have hx : x ∈ kept := (h.mem x).2 List.mem_cons_self
  cases kept with
  | nil => cases hx
  | cons y rest =>
    refine ⟨rest, congrArg (· :: rest) (by_contra fun hne => ?_)⟩
    have hy : y ∈ x :: all := (h.mem y).1 List.mem_cons_self
    have hbefore : (y :: rest).idxOf y < (y :: rest).idxOf x := by
      rw [List.idxOf_cons_self, List.idxOf_cons_ne _ hne]
      exact Nat.succ_pos _
    rw [h.order y hy x List.mem_cons_self, List.idxOf_cons_self] at hbefore
    exact absurd hbefore (Nat.not_lt_zero _)

theorem listsOnce_eraseDups (all : List ι) : ListsOnce all.eraseDups all := by
  induction all using List.reverseRecOn with
  | nil => exact .nil
  | append_singleton all x ih =>
    rw [List.eraseDups_append]
    by_cases hx : x ∈ all
    · have hnone : [x].removeAll all = [] := by simp [List.removeAll, hx]
      rw [hnone, List.eraseDups_nil, List.append_nil]
      exact ih.append_old hx
    · have hsome : [x].removeAll all = [x] := by simp [List.removeAll, hx]
      rw [hsome, List.eraseDups_cons, List.filter_nil, List.eraseDups_nil]
      exact ih.append_new hx

end Once

/-- No alias is a candidate twice. -/
theorem Identity.nodup_candidates (identity : Identity) (mode : BindingMode) :
    (identity.candidates mode).Nodup :=
  (listsOnce_eraseDups _).nodup

/-! ### One more alias -/

/-- The names at a provider, in all groups. -/
def namesAt (provider : Provider) (groups : List AliasGroup) : List String :=
  (groups.filter (·.provider = provider)).flatMap (·.bindIds)

section Groups

variable {a : Alias} {provider : Provider}

theorem namesAt_cons (g : AliasGroup) (groups : List AliasGroup) :
    namesAt provider (g :: groups) =
      (if g.provider = provider then g.bindIds else []) ++ namesAt provider groups := by
  rw [namesAt, namesAt, List.filter_cons]
  simp only [decide_eq_true_eq]
  split <;> rfl

theorem namesAt_eq_nil {groups : List AliasGroup} (h : provider ∉ groups.map (·.provider)) :
    namesAt provider groups = [] := by
  have hnone : groups.filter (·.provider = provider) = [] := by
    rw [List.filter_eq_nil_iff]
    intro g hg hprovider
    exact h (List.mem_map.2 ⟨g, hg, of_decide_eq_true hprovider⟩)
  rw [namesAt, hnone, List.flatMap_nil]

/-- Where providers are distinct, a group has all the names at its provider. -/
theorem bindIds_eq_namesAt {groups : List AliasGroup} (h : (groups.map (·.provider)).Nodup)
    {g : AliasGroup} (hg : g ∈ groups) : g.bindIds = namesAt g.provider groups := by
  induction groups with
  | nil => cases hg
  | cons first rest ih =>
    rw [List.map_cons, List.nodup_cons] at h
    rw [namesAt_cons]
    rcases List.mem_cons.1 hg with rfl | hrest
    · rw [if_pos rfl, namesAt_eq_nil h.1, List.append_nil]
    · have hne : first.provider ≠ g.provider := fun heq =>
        h.1 (heq ▸ List.mem_map_of_mem hrest)
      rw [if_neg hne, List.nil_append, ih h.2 hrest]

theorem map_provider_addAlias (groups : List AliasGroup) :
    (addAlias a groups).map (·.provider) =
      if a.provider ∈ groups.map (·.provider) then groups.map (·.provider)
      else groups.map (·.provider) ++ [a.provider] := by
  induction groups with
  | nil => rfl
  | cons g rest ih =>
    rw [addAlias]
    split
    · next hprovider => simp [hprovider]
    · next hprovider =>
      have hmem : a.provider ∈ (g :: rest).map (·.provider) ↔ a.provider ∈ rest.map (·.provider) :=
        List.mem_cons.trans (or_iff_right (Ne.symm hprovider))
      simp only [hmem]
      rw [List.map_cons, ih, List.map_cons]
      split <;> rfl

/-- The name of a further alias comes behind the others at its provider. -/
theorem namesAt_addAlias {groups : List AliasGroup} (h : (groups.map (·.provider)).Nodup) :
    namesAt provider (addAlias a groups) =
      namesAt provider groups ++ if a.provider = provider then [a.bindId] else [] := by
  induction groups with
  | nil =>
    rw [addAlias, namesAt_cons]
    exact List.append_nil _
  | cons g rest ih =>
    rw [List.map_cons, List.nodup_cons] at h
    rw [addAlias]
    split
    · next hprovider =>
      rw [namesAt_cons, namesAt_cons]
      by_cases hasked : g.provider = provider
      · -- No other group has names at this provider.
        have hrest : namesAt provider rest = [] := namesAt_eq_nil (hasked ▸ h.1)
        simp only [hrest, hasked, ← hprovider, if_true, List.append_nil]
      · simp only [hasked, ← hprovider, if_false, List.nil_append, List.append_nil]
    · rw [namesAt_cons, namesAt_cons, ih h.2, List.append_assoc]

/-- A further alias joins the others, in whatever group. -/
theorem perm_addAlias (groups : List AliasGroup) :
    ((addAlias a groups).flatMap (·.aliases)).Perm (groups.flatMap (·.aliases) ++ [a]) := by
  induction groups with
  | nil => exact .refl _
  | cons g rest ih =>
    rw [addAlias]
    split
    · next hprovider =>
      -- The alias comes at the end of the first group, and so before the others.
      have hgroup : ({ g with bindIds := g.bindIds ++ [a.bindId] } : AliasGroup).aliases =
          g.aliases ++ [a] := by
        simp [AliasGroup.aliases, hprovider]
      rw [List.flatMap_cons, List.flatMap_cons, hgroup, List.append_assoc, List.append_assoc]
      exact List.perm_append_comm.append_left g.aliases
    · rw [List.flatMap_cons, List.flatMap_cons, List.append_assoc]
      exact ih.append_left g.aliases

end Groups

/-! ### All aliases of an identity -/

/-- The names of accounts at a provider. -/
def accountNames (provider : Provider) (accounts : List Account) : List String :=
  (accounts.filter (·.spec.provider = provider)).map (·.spec.accountId)

/-- Groups with the aliases of further accounts. -/
def addAccounts (accounts : List Account) (groups : List AliasGroup) : List AliasGroup :=
  accounts.foldl (fun groups account => addAlias account.spec.toAlias groups) groups

section Accounts

variable {groups : List AliasGroup}

theorem addAccounts_append (accounts : List Account) (account : Account)
    (groups : List AliasGroup) :
    addAccounts (accounts ++ [account]) groups =
      addAlias account.spec.toAlias (addAccounts accounts groups) :=
  List.foldl_append

/-- Providers stay distinct, and stand in the order in which they first occur. -/
theorem listsOnce_addAccounts (h : (groups.map (·.provider)).Nodup) (accounts : List Account) :
    ListsOnce ((addAccounts accounts groups).map (·.provider))
      (groups.map (·.provider) ++ accounts.map (·.spec.provider)) := by
  induction accounts using List.reverseRecOn with
  | nil =>
    rw [List.map_nil, List.append_nil]
    exact ⟨h, fun _ => .rfl, fun _ _ _ _ => .rfl⟩
  | append_singleton accounts account ih =>
    have hprovider : account.spec.toAlias.provider = account.spec.provider := rfl
    rw [addAccounts_append, map_provider_addAlias, hprovider, List.map_append, ← List.append_assoc]
    split
    · next hold => exact ih.append_old ((ih.mem _).1 hold)
    · next hnew => exact ih.append_new (mt (ih.mem _).2 hnew)

/-- The names at a provider are those that were there, and behind them those of the accounts. -/
theorem namesAt_addAccounts (h : (groups.map (·.provider)).Nodup) (provider : Provider)
    (accounts : List Account) :
    namesAt provider (addAccounts accounts groups) =
      namesAt provider groups ++ accountNames provider accounts := by
  induction accounts using List.reverseRecOn with
  | nil => exact (List.append_nil _).symm
  | append_singleton accounts account ih =>
    rw [addAccounts_append, namesAt_addAlias (listsOnce_addAccounts h accounts).nodup, ih,
      List.append_assoc, accountNames, accountNames, List.filter_append, List.map_append,
      List.filter_cons, List.filter_nil]
    have hprovider : account.spec.toAlias.provider = account.spec.provider := rfl
    simp only [decide_eq_true_eq, hprovider]
    split <;> rfl

theorem perm_addAccounts (accounts : List Account) (groups : List AliasGroup) :
    ((addAccounts accounts groups).flatMap (·.aliases)).Perm
      (groups.flatMap (·.aliases) ++ accounts.map (·.spec.toAlias)) := by
  induction accounts using List.reverseRecOn with
  | nil => exact .of_eq (List.append_nil _).symm
  | append_singleton accounts account ih =>
    rw [addAccounts_append, List.map_append, ← List.append_assoc]
    exact (perm_addAlias _).trans (ih.append_right _)

end Accounts

namespace Identity

/-- The names that this system itself has for the user: addresses first, then the user name. -/
def ownNames (identity : Identity) : List String :=
  identity.emails.map (·.address) ++ identity.username.toList

/-- The group that is there before any account. -/
def ownGroup (identity : Identity) : AliasGroup := ⟨.internal, identity.ownNames⟩

variable (identity : Identity)

theorem aliasGroups_eq :
    identity.aliasGroups = addAccounts identity.accounts [identity.ownGroup] := rfl

theorem nodup_ownGroup : ([identity.ownGroup].map (·.provider)).Nodup := List.nodup_singleton _

/-- The groups have every provider once, this system itself first. -/
theorem listsOnce_aliasGroups :
    ListsOnce (identity.aliasGroups.map (·.provider))
      (.internal :: identity.accounts.map (·.spec.provider)) :=
  listsOnce_addAccounts identity.nodup_ownGroup identity.accounts

theorem bindIds_of_mem_aliasGroups {g : AliasGroup} (hg : g ∈ identity.aliasGroups) :
    g.bindIds = (if g.provider = .internal then identity.ownNames else []) ++
      accountNames g.provider identity.accounts := by
  have hown : namesAt g.provider [identity.ownGroup] =
      if g.provider = .internal then identity.ownNames else [] := by
    rw [namesAt_cons, ownGroup]
    simp only [eq_comm, namesAt, List.filter_nil, List.flatMap_nil, List.append_nil]
  rw [bindIds_eq_namesAt identity.listsOnce_aliasGroups.nodup hg, aliasGroups_eq,
    namesAt_addAccounts identity.nodup_ownGroup, hown]

/-- No alias is lost, and none comes twice. -/
theorem perm_aliasGroups :
    (identity.aliasGroups.flatMap (·.aliases)).Perm
      (identity.ownNames.map .internal ++ identity.accounts.map (·.spec.toAlias)) := by
  have hown : [identity.ownGroup].flatMap (·.aliases) = identity.ownNames.map .internal :=
    List.append_nil _
  rw [aliasGroups_eq, ← hown]
  exact perm_addAccounts identity.accounts [identity.ownGroup]

/-- This system itself has the first group, and no other one. -/
theorem exists_aliasGroups_eq_cons :
    ∃ rest, identity.aliasGroups =
        ⟨.internal, identity.ownNames ++ accountNames .internal identity.accounts⟩ :: rest ∧
      ∀ g ∈ rest, g.provider ≠ .internal ∧
        g.bindIds = accountNames g.provider identity.accounts := by
  have honce := identity.listsOnce_aliasGroups
  obtain ⟨providers, hproviders⟩ := honce.exists_eq_cons
  obtain ⟨first, rest, hgroups, hfirst, rfl⟩ := List.map_eq_cons_iff.1 hproviders
  have hnames : ∀ g ∈ identity.aliasGroups, g.bindIds =
      (if g.provider = .internal then identity.ownNames else []) ++
        accountNames g.provider identity.accounts :=
    fun g hg => identity.bindIds_of_mem_aliasGroups hg
  have hnodup := honce.nodup
  rw [hgroups] at hnames hnodup ⊢
  rw [List.map_cons, List.nodup_cons, hfirst] at hnodup
  refine ⟨rest, ?_, fun g hg => ?_⟩
  · have hbindIds := hnames first List.mem_cons_self
    rw [if_pos hfirst, hfirst] at hbindIds
    rw [← hbindIds, ← hfirst]
  · have hne : g.provider ≠ .internal := fun heq => hnodup.1 (heq ▸ List.mem_map_of_mem hg)
    have hbindIds := hnames g (List.mem_cons_of_mem _ hg)
    rw [if_neg hne, List.nil_append] at hbindIds
    exact ⟨hne, hbindIds⟩

end Identity

/-- The groups of an identity have distinct providers, this system itself first: it has the
addresses, the user name and its own accounts, and every other provider has its accounts, always in
the order of the identity. So no alias is lost, and none comes more often than in the identity. The
candidates under a mode are the facts that the mode looks at, each of them once, in the order in
which they first occur. -/
theorem aliases_are_grouped (identity : Identity) :
    let groups := identity.aliasGroups
    ListsOnce (groups.map (·.provider)) (.internal :: identity.accounts.map (·.spec.provider)) ∧
    (∃ rest, groups = ⟨.internal, identity.emails.map (·.address) ++ identity.username.toList ++
          accountNames .internal identity.accounts⟩ :: rest ∧
      ∀ g ∈ rest, g.provider ≠ .internal ∧
        g.bindIds = accountNames g.provider identity.accounts) ∧
    (groups.flatMap (·.aliases)).Perm
      ((identity.emails.map (·.address) ++ identity.username.toList).map .internal ++
        identity.accounts.map (·.spec.toAlias)) ∧
    (groups.flatMap (·.bindIds)).length = identity.emails.length +
      (if identity.username = none then 0 else 1) + identity.accounts.length ∧
    ListsOnce (identity.candidates .email)
      ((identity.emails.filter (·.verified)).map fun email => .internal email.address) ∧
    ListsOnce (identity.candidates .username)
      ((identity.username.toList.filter (· ≠ "")).map .internal) ∧
    ListsOnce (identity.candidates .unset) (identity.accounts.map (·.spec.toAlias)) := by
  intro groups
  have hperm := identity.perm_aliasGroups
  refine ⟨identity.listsOnce_aliasGroups, identity.exists_aliasGroups_eq_cons, hperm, ?_, ?_,
    listsOnce_eraseDups _, listsOnce_eraseDups _⟩
  · -- There are as many names as aliases.
    have hnames : (groups.flatMap (·.bindIds)).length = (groups.flatMap (·.aliases)).length := by
      simp only [List.length_flatMap, AliasGroup.aliases, List.length_map]
    rw [hnames, hperm.length_eq]
    simp only [Identity.ownNames, List.length_map, List.length_append]
    cases identity.username <;> rfl
  · have hfacts : identity.facts .email =
        (identity.emails.filter (·.verified)).map fun email => .internal email.address :=
      List.map_map
    rw [← hfacts]
    exact listsOnce_eraseDups _

/-- Two accounts of one provider stand around one of this system itself, an address is given twice,
and one that is not verified is no candidate. -/
theorem aliases_are_grouped_of_interleaved :
    let hub : Provider := ⟨"github", "https://github.com/"⟩
    let identity : Identity :=
      ⟨⟨7⟩, some "a", [⟨"b@c", true⟩, ⟨"d@e", false⟩, ⟨"b@c", true⟩],
        [⟨⟨1⟩, ⟨hub, "x"⟩⟩, ⟨⟨2⟩, ⟨.internal, "y"⟩⟩, ⟨⟨3⟩, ⟨hub, "z"⟩⟩]⟩
    identity.aliasGroups = [⟨.internal, ["b@c", "d@e", "b@c", "a", "y"]⟩, ⟨hub, ["x", "z"]⟩] ∧
    (hub ≠ .internal ∧ ["x", "z"] = accountNames hub identity.accounts) ∧
    identity.candidates .email = [.internal "b@c"] ∧
    (.internal "b@c" ∈ identity.candidates .email ↔
      .internal "b@c" ∈ [Alias.internal "b@c", .internal "b@c"]) := by
  intro hub identity
  have hgroups : identity.aliasGroups =
      [⟨.internal, ["b@c", "d@e", "b@c", "a", "y"]⟩, ⟨hub, ["x", "z"]⟩] := by decide
  obtain ⟨-, ⟨rest, hsplit, hrest⟩, -, -, hemail, -⟩ := aliases_are_grouped identity
  have hmem : ⟨hub, ["x", "z"]⟩ ∈ rest := by
    have htail := congrArg List.tail (hgroups.symm.trans hsplit)
    rw [List.tail_cons, List.tail_cons] at htail
    exact htail ▸ List.mem_singleton_self _
  exact ⟨hgroups, hrest _ hmem, by decide, hemail.mem _⟩

end RepoAccess

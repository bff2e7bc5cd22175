/-
The numbers of a user's accounts.

* `IdentityStore.of` — the identities after a list of changes;
* `Imported`, `Linked` — the two ways in which an account comes to a user, and
  `imported_or_linked` — there is no other one;
* `Linked.spec_eq`, `Imported.eq_of_id` — accounts that come in the same way do not share a number;
* `shared_number_needs_import` — so two accounts of a user share a number only if the one was
  imported under a number that the other one was given afterwards.

The count of numbers goes up by one with each new link and is not told of imports. The reasons for
an access know an account by its number alone.
-/
import Mathlib.Algebra.Order.Ring.Int
import Mathlib.Data.List.Nodup
import RepoAccess.Proofs.Course.System

namespace RepoAccess

open Std

/-! ### Numbers -/

/-- Below the largest number, counting on adds one. -/
theorem toInt_add_one {n : Int32} (h0 : 0 ≤ n.toInt) (h : n.toInt + 1 < 2 ^ 31) :
    (n + 1).toInt = n.toInt + 1 := by
  rw [Int32.toInt_add]
  show (n.toInt + 1).bmod (2 ^ 32) = n.toInt + 1
  exact Int.bmod_eq_of_le (by omega) (by omega)

/-! ### Changes -/

namespace IdentityChange

/-- An account is to be linked. -/
def links : IdentityChange → Bool
  | .linkAccount .. => true
  | _ => false

/-- The accounts that the user had before are gone. -/
def Replaces (user : UserId) : IdentityChange → Prop
  | .put identity => identity.user = user
  | .createUser user' _ | .remove user' => user' = user
  | _ => False

/-- The accounts that come in their place. -/
def brings : IdentityChange → List Account
  | .put identity => identity.accounts
  | _ => []

end IdentityChange

namespace IdentityStore

variable {s : IdentityStore} {user : UserId}

/-- The accounts of a user; somebody unknown has none. -/
def accountsOf (s : IdentityStore) (user : UserId) : List Account :=
  (s.identities[user]?.map (·.accounts)).getD []

theorem accountsOf_of_identity {identity : Identity} (h : s.identities[user]? = some identity) :
    s.accountsOf user = identity.accounts := by
  rw [accountsOf, h]
  rfl

theorem accountsOf_insert (user' : UserId) (identity : Identity) (last : Int32) :
    accountsOf ⟨s.identities.insert user' identity, last⟩ user =
      if user' = user then identity.accounts else s.accountsOf user := by
  simp only [accountsOf, ExtTreeMap.getElem?_insert, LawfulEqOrd.compare_eq_iff_eq]
  split <;> rfl

theorem accountsOf_erase (user' : UserId) (last : Int32) :
    accountsOf ⟨s.identities.erase user', last⟩ user =
      if user' = user then [] else s.accountsOf user := by
  simp only [accountsOf, ExtTreeMap.getElem?_erase, LawfulEqOrd.compare_eq_iff_eq]
  split <;> rfl

/-- A change of something else leaves the accounts alone. -/
theorem accountsOf_modify (user' : UserId) {change : Identity → Identity}
    (hchange : ∀ identity, (change identity).accounts = identity.accounts) :
    ((s.modify user' change).toOption.getD s).accountsOf user = s.accountsOf user := by
  rw [modify, identity]
  cases hidentity : s.identities[user']? with
  | none => rfl
  | some identity =>
    show accountsOf ⟨s.identities.insert user' (change identity), s.lastAccount⟩ user = _
    rw [accountsOf_insert, hchange]
    split
    · next hsame => rw [← hsame, accountsOf_of_identity hidentity]
    · rfl

theorem lastAccount_modify (user' : UserId) {change : Identity → Identity} :
    ((s.modify user' change).toOption.getD s).lastAccount = s.lastAccount := by
  rw [modify, identity]
  cases s.identities[user']? <;> rfl

/-- Linking an account fails for somebody unknown, finds the account among the user's, or adds it
to them under the next number. -/
theorem linkAccount_cases (s : IdentityStore) (user : UserId) (spec : AccountSpec) :
    (s.identities[user]? = none ∧ ∃ error, s.linkAccount user spec = .error error) ∨
    (∃ account ∈ s.accountsOf user, account.spec = spec ∧
      s.linkAccount user spec = .ok (account.id, s)) ∨
    ((∀ account ∈ s.accountsOf user, account.spec ≠ spec) ∧
      ∃ identity : Identity,
        identity.accounts = s.accountsOf user ++ [⟨⟨s.lastAccount + 1⟩, spec⟩] ∧
        s.linkAccount user spec = .ok (⟨s.lastAccount + 1⟩,
          ⟨s.identities.insert user identity, s.lastAccount + 1⟩)) := by
  rw [linkAccount, identity]
  cases hidentity : s.identities[user]? with
  | none => exact .inl ⟨rfl, _, rfl⟩
  | some identity =>
    right
    rw [accountsOf_of_identity hidentity]
    cases hfound : identity.accounts.find? (·.spec == spec) with
    | some account =>
      refine .inl ⟨account, List.mem_of_find?_eq_some hfound, ?_, ?_⟩
      · simpa using List.find?_some hfound
      · simp only [bind, Except.bind, hfound]
        rfl
    | none =>
      refine .inr ⟨by simpa using hfound,
        { identity with accounts := identity.accounts ++ [⟨⟨s.lastAccount + 1⟩, spec⟩] }, rfl, ?_⟩
      simp only [bind, Except.bind, hfound]
      rfl

/-- An account that the user has keeps its number when it is linked again. -/
theorem linkAccount_of_mem (hspecs : ((s.accountsOf user).map (·.spec)).Nodup) {account : Account}
    (h : account ∈ s.accountsOf user) :
    s.linkAccount user account.spec = .ok (account.id, s) := by
  rcases s.linkAccount_cases user account.spec with
    ⟨hunknown, -⟩ | ⟨found, hfound, hspec, hlink⟩ | ⟨hnew, -⟩
  · rw [accountsOf, hunknown] at h
    cases h
  · rw [hlink, List.inj_on_of_nodup_map hspecs hfound h hspec]
  · exact absurd rfl (hnew account h)

/-- An account that a known user has not is added under the next number. -/
theorem exists_linkAccount_of_new (hknown : (s.identities[user]?).isSome) {spec : AccountSpec}
    (hnew : ∀ account ∈ s.accountsOf user, account.spec ≠ spec) :
    ∃ s', s.linkAccount user spec = .ok (⟨s.lastAccount + 1⟩, s') ∧
      s'.accountsOf user = s.accountsOf user ++ [⟨⟨s.lastAccount + 1⟩, spec⟩] := by
  rcases s.linkAccount_cases user spec with
    ⟨hunknown, -⟩ | ⟨account, hmem, hspec, -⟩ | ⟨-, identity, haccounts, hlink⟩
  · rw [hunknown] at hknown
    cases hknown
  · exact absurd hspec (hnew account hmem)
  · exact ⟨_, hlink, ((accountsOf_insert _ _ _).trans (if_pos rfl)).trans haccounts⟩

/-- A change replaces the accounts of a user, or leaves them alone, or adds one under the next
number. -/
theorem change_cases (s : IdentityStore) (user : UserId) (c : IdentityChange) :
    (c.Replaces user ∧ (s.change c).accountsOf user = c.brings) ∨
    (¬ c.Replaces user ∧ (s.change c).accountsOf user = s.accountsOf user) ∨
    ∃ spec, c = .linkAccount user spec ∧ (∀ account ∈ s.accountsOf user, account.spec ≠ spec) ∧
      (s.change c).accountsOf user = s.accountsOf user ++ [⟨⟨s.lastAccount + 1⟩, spec⟩] ∧
      (s.change c).lastAccount = s.lastAccount + 1 := by
  cases c with
  | put identity => exact (eq_ite_iff.1 (accountsOf_insert _ _ _)).imp_right .inl
  | createUser user' username => exact (eq_ite_iff.1 (accountsOf_insert _ _ _)).imp_right .inl
  | remove user' => exact (eq_ite_iff.1 (accountsOf_erase _ _)).imp_right .inl
  | addEmail user' address verified =>
    rw [change, addEmail]
    exact .inr (.inl ⟨id, accountsOf_modify user' fun _ => rfl⟩)
  | setEmailVerified user' address verified =>
    rw [change, setEmailVerified]
    exact .inr (.inl ⟨id, accountsOf_modify user' fun _ => rfl⟩)
  | setUsername user' username =>
    rw [change, setUsername]
    exact .inr (.inl ⟨id, accountsOf_modify user' fun _ => rfl⟩)
  | linkAccount user' spec =>
    right
    rw [change]
    rcases s.linkAccount_cases user' spec with
      ⟨-, error, hlink⟩ | ⟨account, -, -, hlink⟩ | ⟨hnew, identity, haccounts, hlink⟩
    · rw [hlink]
      exact .inl ⟨id, rfl⟩
    · rw [hlink]
      exact .inl ⟨id, rfl⟩
    · rw [hlink]
      by_cases hsame : user' = user
      · subst hsame
        exact .inr ⟨spec, rfl, hnew, ((accountsOf_insert _ _ _).trans (if_pos rfl)).trans haccounts,
          rfl⟩
      · exact .inl ⟨id, (accountsOf_insert _ _ _).trans (if_neg hsame)⟩

/-- The count goes up by one, or stays. -/
theorem lastAccount_change (s : IdentityStore) (c : IdentityChange) :
    (s.change c).lastAccount = s.lastAccount ∨
      (c.links = true ∧ (s.change c).lastAccount = s.lastAccount + 1) := by
  cases c with
  | addEmail user' address verified => exact .inl (lastAccount_modify user')
  | setEmailVerified user' address verified => exact .inl (lastAccount_modify user')
  | setUsername user' username => exact .inl (lastAccount_modify user')
  | linkAccount user' spec =>
    rw [change]
    rcases s.linkAccount_cases user' spec with
      ⟨-, error, hlink⟩ | ⟨account, -, -, hlink⟩ | ⟨-, identity, -, hlink⟩
    · rw [hlink]
      exact .inl rfl
    · rw [hlink]
      exact .inl rfl
    · rw [hlink]
      exact .inr ⟨rfl, rfl⟩
  | _ => exact .inl rfl

/-! ### Runs -/

/-- The identities after all these changes, from a store that knows nobody. -/
def of (changes : List IdentityChange) : IdentityStore := changes.foldl change {}

theorem of_concat (changes : List IdentityChange) (c : IdentityChange) :
    of (changes ++ [c]) = (of changes).change c := List.foldl_append

variable {changes : List IdentityChange}

/-- The count never goes back, and it goes up by the number of links at most. -/
theorem lastAccount_foldl (changes : List IdentityChange) {s : IdentityStore}
    (hlow : 0 ≤ s.lastAccount.toInt)
    (hfew : s.lastAccount.toInt + changes.countP (·.links) < 2 ^ 31) :
    s.lastAccount.toInt ≤ (changes.foldl change s).lastAccount.toInt ∧
      (changes.foldl change s).lastAccount.toInt ≤
        s.lastAccount.toInt + changes.countP (·.links) := by
  induction changes generalizing s with
  | nil => simp
  | cons c changes ih =>
    have hrest := @ih (s.change c)
    rw [List.countP_cons] at hfew ⊢
    rw [List.foldl_cons]
    rcases s.lastAccount_change c with hsame | ⟨hlinks, hnext⟩
    · rw [hsame] at hrest
      have hbounds := hrest hlow (by omega)
      omega
    · rw [if_pos hlinks] at hfew ⊢
      rw [hnext, toInt_add_one hlow (by omega)] at hrest
      have hbounds := hrest (by omega) (by omega)
      omega

/-- The count is the number of links at most, so it does not go round. -/
theorem lastAccount_of (hfew : changes.countP (·.links) < 2 ^ 31) :
    0 ≤ (of changes).lastAccount.toInt ∧
      (of changes).lastAccount.toInt ≤ changes.countP (·.links) := by
  have hzero : (({} : IdentityStore).lastAccount).toInt = 0 := rfl
  have hbounds := lastAccount_foldl changes (Int.le_of_eq hzero.symm) (by omega)
  rwa [hzero, Int.zero_add] at hbounds

/-- Nobody has two accounts with the same particulars, if no identity comes with such accounts. -/
theorem nodup_specs (hput : ∀ whole, .put whole ∈ changes → (whole.accounts.map (·.spec)).Nodup) :
    (((of changes).accountsOf user).map (·.spec)).Nodup := by
  induction changes using List.reverseRecOn with
  | nil => exact List.nodup_nil
  | append_singleton changes c ih =>
    have hbefore := ih fun whole hmem => hput whole (List.mem_append_left _ hmem)
    rw [of_concat]
    rcases (of changes).change_cases user c with
      ⟨-, haccounts⟩ | ⟨-, haccounts⟩ | ⟨spec, -, hnew, haccounts, -⟩
    · rw [haccounts]
      cases c with
      | put whole => exact hput whole (by simp)
      | _ => exact List.nodup_nil
    · rwa [haccounts]
    · rw [haccounts, List.map_append, List.map_singleton]
      refine hbefore.append (List.nodup_singleton spec) ?_
      simpa using hnew

/-! ### Where accounts come from -/

/-- The account came with an identity, and the user's accounts have not been replaced since. -/
def Imported (changes : List IdentityChange) (user : UserId) (account : Account) : Prop :=
  ∃ before whole after, changes = before ++ .put whole :: after ∧ whole.user = user ∧
    account ∈ whole.accounts ∧ ∀ c ∈ after, ¬ c.Replaces user

/-- The account was linked under the next number, and the user's accounts have not been replaced
since. -/
def Linked (changes : List IdentityChange) (user : UserId) (account : Account) : Prop :=
  ∃ before after, changes = before ++ .linkAccount user account.spec :: after ∧
    account.id = ⟨(of before).lastAccount + 1⟩ ∧
    (of (before ++ [.linkAccount user account.spec])).lastAccount = (of before).lastAccount + 1 ∧
    ∀ c ∈ after, ¬ c.Replaces user

theorem not_replaces_concat {after : List IdentityChange} {c : IdentityChange}
    (hafter : ∀ c ∈ after, ¬ c.Replaces user) (hc : ¬ c.Replaces user) :
    ∀ c' ∈ after ++ [c], ¬ c'.Replaces user := by
  intro c' hmem
  rcases List.mem_append.1 hmem with hold | hnew
  · exact hafter c' hold
  · rwa [List.mem_singleton.1 hnew]

/-- Every account was imported or linked. -/
theorem imported_or_linked {account : Account} (h : account ∈ (of changes).accountsOf user) :
    Imported changes user account ∨ Linked changes user account := by
  induction changes using List.reverseRecOn with
  | nil => cases h
  | append_singleton changes c ih =>
    -- What an account came by stays the same until it is replaced.
    have hold : ¬ c.Replaces user → account ∈ (of changes).accountsOf user →
        Imported (changes ++ [c]) user account ∨ Linked (changes ++ [c]) user account := by
      intro hc hmem
      rcases ih hmem with ⟨before, whole, after, rfl, huser, hwhole, hafter⟩ |
        ⟨before, after, rfl, hid, hcount, hafter⟩
      · exact .inl ⟨before, whole, after ++ [c], by simp, huser, hwhole,
          not_replaces_concat hafter hc⟩
      · exact .inr ⟨before, after ++ [c], by simp, hid, hcount, not_replaces_concat hafter hc⟩
    rw [of_concat] at h
    rcases (of changes).change_cases user c with
      ⟨hreplaces, haccounts⟩ | ⟨hkeeps, haccounts⟩ | ⟨spec, rfl, hnew, haccounts, hcount⟩
    · rw [haccounts] at h
      cases c with
      | put whole => exact .inl ⟨changes, whole, [], rfl, hreplaces, h, nofun⟩
      | _ => cases h
    · exact hold hkeeps (haccounts ▸ h)
    · rw [haccounts, List.mem_append, List.mem_singleton] at h
      rcases h with h | rfl
      · exact hold id h
      · exact .inr ⟨changes, [], rfl, rfl, by rw [of_concat, hcount], nofun⟩

/-! ### Two accounts -/

/-- The next number is above all that have been handed out. -/
theorem lastAccount_lt_next {earlier later : List IdentityChange}
    (hfew : (earlier ++ later).countP (·.links) + 1 < 2 ^ 31) :
    (of earlier).lastAccount < (of (earlier ++ later)).lastAccount + 1 := by
  have hof : of (earlier ++ later) = later.foldl change (of earlier) := List.foldl_append
  rw [List.countP_append] at hfew
  obtain ⟨hlow, hhigh⟩ : 0 ≤ (of earlier).lastAccount.toInt ∧ _ := lastAccount_of (by omega)
  obtain ⟨hmono, hbound⟩ := lastAccount_foldl later hlow (by omega)
  rw [hof, Int32.lt_iff_toInt_lt, toInt_add_one (by omega) (by omega)]
  omega

/-- A number that is handed out is not handed out again. -/
theorem number_ne_next {spec spec' : AccountSpec} {before between after : List IdentityChange}
    (hfew : (before ++ .linkAccount user spec ::
      (between ++ .linkAccount user spec' :: after)).countP (·.links) < 2 ^ 31)
    (hcount : (of (before ++ [.linkAccount user spec])).lastAccount = (of before).lastAccount + 1) :
    (of before).lastAccount + 1 ≠
      (of (before ++ .linkAccount user spec :: between)).lastAccount + 1 := by
  have hnext : (of (before ++ [.linkAccount user spec])).lastAccount <
      (of (before ++ [.linkAccount user spec] ++ between)).lastAccount + 1 := by
    apply lastAccount_lt_next
    grind [IdentityChange.links]
  rw [List.append_assoc, List.singleton_append, hcount] at hnext
  exact Int32.ne_of_lt hnext

/-- Of two accounts that were linked the later one has the higher number. -/
theorem Linked.spec_eq {a b : Account} (hfew : changes.countP (·.links) < 2 ^ 31)
    (ha : Linked changes user a) (hb : Linked changes user b) (hid : a.id = b.id) :
    a.spec = b.spec := by
  obtain ⟨before, after, rfl, hida, hcounta, -⟩ := ha
  obtain ⟨before', after', hplaces, hidb, hcountb, -⟩ := hb
  have hnumber : (of before).lastAccount + 1 = (of before').lastAccount + 1 := by
    rw [hida, hidb] at hid
    exact AccountId.mk.inj hid
  rcases places_cases hplaces with ⟨-, hsame, -⟩ | ⟨between, rfl, rfl⟩ | ⟨between, rfl, rfl⟩
  · exact (IdentityChange.linkAccount.inj hsame).2
  · exact absurd hnumber (number_ne_next hfew hcounta)
  · rw [hplaces] at hfew
    exact absurd hnumber.symm (number_ne_next hfew hcountb)

/-- Accounts that were imported came with the same identity. -/
theorem Imported.eq_of_id {a b : Account}
    (hput : ∀ whole, .put whole ∈ changes → (whole.accounts.map (·.id)).Nodup)
    (ha : Imported changes user a) (hb : Imported changes user b) (hid : a.id = b.id) : a = b := by
  obtain ⟨before, whole, after, rfl, huser, ha, hafter⟩ := ha
  obtain ⟨before', whole', after', hplaces, huser', hb, hafter'⟩ := hb
  rcases places_cases hplaces with ⟨-, hsame, -⟩ | ⟨between, rfl, rfl⟩ | ⟨between, rfl, rfl⟩
  · obtain rfl := IdentityChange.put.inj hsame
    exact List.inj_on_of_nodup_map (hput whole (by simp)) ha hb hid
  · exact absurd huser' (hafter (.put whole') (by simp))
  · exact absurd huser (hafter' (.put whole) (by simp))

/-- The account was imported under the number that the other one was given afterwards. -/
def Anticipates (changes : List IdentityChange) (user : UserId) (account other : Account) : Prop :=
  ∃ before whole between after,
    changes = before ++ .put whole :: (between ++ .linkAccount user other.spec :: after) ∧
    whole.user = user ∧ account ∈ whole.accounts ∧
    account.id = ⟨(of (before ++ .put whole :: between)).lastAccount + 1⟩ ∧
    (of before).lastAccount < account.id.val

/-- An account that was imported can share its number with one that was linked later. -/
theorem anticipates_of_id {a b : Account} (hfew : changes.countP (·.links) < 2 ^ 31)
    (ha : Imported changes user a) (hb : Linked changes user b) (hid : a.id = b.id) :
    Anticipates changes user a b := by
  obtain ⟨before, whole, after, rfl, huser, ha, -⟩ := ha
  obtain ⟨before', after', hplaces, hidb, -, hafter'⟩ := hb
  rcases places_cases hplaces with ⟨-, hsame, -⟩ | ⟨between, rfl, rfl⟩ | ⟨between, rfl, rfl⟩
  · cases hsame
  · refine ⟨before, whole, between, after', rfl, huser, ha, hid.trans hidb, ?_⟩
    rw [hid, hidb]
    exact lastAccount_lt_next (by grind [IdentityChange.links])
  · exact absurd huser (hafter' (.put whole) (by simp))

/-- What identities come with: accounts whose numbers differ, and whose particulars differ. -/
def Sound (changes : List IdentityChange) : Prop :=
  ∀ whole, .put whole ∈ changes →
    (whole.accounts.map (·.id)).Nodup ∧ (whole.accounts.map (·.spec)).Nodup

/-- Of two accounts of a user with one number, one was imported under it too early. -/
theorem anticipates_of_shared (hput : Sound changes) (hfew : changes.countP (·.links) < 2 ^ 31)
    {a b : Account} (ha : a ∈ (of changes).accountsOf user) (hb : b ∈ (of changes).accountsOf user)
    (hne : a ≠ b) (hid : a.id = b.id) :
    Anticipates changes user a b ∨ Anticipates changes user b a := by
  have hspecs : (((of changes).accountsOf user).map (·.spec)).Nodup :=
    nodup_specs fun whole hmem => (hput whole hmem).2
  rcases imported_or_linked ha, imported_or_linked hb with ⟨ha' | ha', hb' | hb'⟩
  · exact absurd (ha'.eq_of_id (fun whole hmem => (hput whole hmem).1) hb' hid) hne
  · exact .inl (anticipates_of_id hfew ha' hb' hid)
  · exact .inr (anticipates_of_id hfew hb' ha' hid.symm)
  · exact absurd (List.inj_on_of_nodup_map hspecs ha hb (ha'.spec_eq hfew hb' hid)) hne

/-- Nobody has two accounts with the same particulars. An account that is linked again keeps its
number, and nothing changes; a new one gets the next number. Two accounts of a user share a number
only if the one was imported under it, before it was handed out, and the other one was linked when
its turn came. So all numbers differ if imported accounts have numbers that had been handed out
before. A list of what one account brings leaves alone what accounts with other numbers bring, and
takes the place of what accounts with the same number bring. -/
theorem shared_number_needs_import (hput : Sound changes)
    (hfew : changes.countP (·.links) < 2 ^ 31) (user : UserId) :
    let s := of changes
    let accounts := s.accountsOf user
    (accounts.map (·.spec)).Nodup ∧
    (∀ a ∈ accounts, s.linkAccount user a.spec = .ok (a.id, s)) ∧
    (∀ spec, (s.identities[user]?).isSome → (∀ a ∈ accounts, a.spec ≠ spec) →
      ∃ s', s.linkAccount user spec = .ok (⟨s.lastAccount + 1⟩, s') ∧
        s'.accountsOf user = accounts ++ [⟨⟨s.lastAccount + 1⟩, spec⟩]) ∧
    (∀ a ∈ accounts, ∀ b ∈ accounts, a ≠ b → a.id = b.id →
      Anticipates changes user a b ∨ Anticipates changes user b a) ∧
    ((∀ before whole after, changes = before ++ .put whole :: after → whole.user = user →
        ∀ a ∈ whole.accounts, a.id.val ≤ (of before).lastAccount) →
      (accounts.map (·.id)).Nodup) ∧
    ∀ a ∈ accounts, ∀ b ∈ accounts, ∀ now named (t : Tables), t.Keyed → ∀ perm repo,
      (.account b.id ∈
          ((Tx.replaceAccount now user a.id named).exec now t).2.reasons ⟨user, perm, repo⟩ ↔
        if b.id = a.id ∧ perm = .read then repo ∈ named
        else .account b.id ∈ t.reasons ⟨user, perm, repo⟩) := by
  intro s accounts
  have hspecs : (accounts.map (·.spec)).Nodup := nodup_specs fun whole hmem => (hput whole hmem).2
  refine ⟨hspecs, fun a ha => linkAccount_of_mem hspecs ha,
    fun spec hknown hnew => exists_linkAccount_of_new hknown hnew,
    fun a ha b hb hne hid => anticipates_of_shared hput hfew ha hb hne hid, ?_, ?_⟩
  · intro himports
    have hearlier : ∀ {a b}, ¬ Anticipates changes user a b := by
      rintro a b ⟨before, whole, between, after, hchanges, huser, ha, -, hlt⟩
      exact Int32.not_le.2 hlt (himports before whole _ hchanges huser a ha)
    refine (List.Nodup.of_map _ hspecs).map_on ?_
    intro a ha b hb hid
    by_contra hne
    rcases anticipates_of_shared hput hfew ha hb hne hid with h | h
    · exact hearlier h
    · exact hearlier h
  · intro a _ b _ now named t ht perm repo
    have hreplaced : Tables.AccountReplaced now user a.id named t _ :=
      Tx.accountReplaced_replaceAccount ht now named
    rw [hreplaced.mem_reasons]
    simp only [Source.account.injEq, true_and]

/-- Two accounts are linked, the user is removed and put in again with them, and a third one is
linked. -/
theorem shared_number_needs_import_of_returned :
    let spec name : AccountSpec := ⟨⟨"github", "https://github.com/"⟩, name⟩
    let whole : Identity := ⟨⟨7⟩, none, [], [⟨⟨1⟩, spec "a"⟩, ⟨⟨2⟩, spec "b"⟩]⟩
    let before := [.createUser ⟨7⟩ "u", .linkAccount ⟨7⟩ (spec "a"), .linkAccount ⟨7⟩ (spec "b"),
      .remove ⟨7⟩]
    let changes := before ++ .put whole :: [.linkAccount ⟨7⟩ (spec "c")]
    (of before).accountsOf ⟨7⟩ = [] ∧ ((of changes).accountsOf ⟨7⟩).length = 3 ∧
    (((of changes).accountsOf ⟨7⟩).map (·.id)).Nodup := by
  intro spec whole before changes
  have hput : Sound changes := by
    intro whole' hmem
    obtain rfl : whole' = whole := by simpa [changes, before] using hmem
    decide
  obtain ⟨-, -, -, -, hdistinct, -⟩ := shared_number_needs_import hput (by decide) ⟨7⟩
  refine ⟨by decide +kernel, by decide +kernel, hdistinct ?_⟩
  intro before' whole' after hchanges _
  -- There is no other import in the list.
  rcases places_cases hchanges with ⟨rfl, hsame, -⟩ | ⟨m, -, hlater⟩ | ⟨m, hearlier, -⟩
  · obtain rfl := IdentityChange.put.inj hsame
    decide +kernel
  · have hmem : IdentityChange.put whole' ∈ m ++ .put whole' :: after := by simp
    rw [← hlater] at hmem
    simp at hmem
  · have hmem : IdentityChange.put whole' ∈ before' ++ .put whole' :: m := by simp
    rw [← hearlier] at hmem
    simp [before] at hmem

/-- An imported account and one that is linked afterwards get the same number, and what the second
one brings takes away what the first one has brought. -/
theorem imported_number_is_handed_out :
    let imported : AccountSpec := ⟨⟨"github", "https://github.com/"⟩, "a"⟩
    let linked : AccountSpec := ⟨⟨"gitlab", "https://gitlab.com/"⟩, "a"⟩
    let whole : Identity := ⟨⟨7⟩, none, [], [⟨⟨1⟩, imported⟩]⟩
    let brought := ((Tx.replaceAccount ⟨0, 0⟩ ⟨7⟩ ⟨1⟩ {⟨1⟩}).exec ⟨0, 0⟩ {}).2
    let replaced := ((Tx.replaceAccount ⟨1, 0⟩ ⟨7⟩ ⟨1⟩ {⟨2⟩}).exec ⟨1, 0⟩ brought).2
    (of [.put whole, .linkAccount ⟨7⟩ linked]).accountsOf ⟨7⟩ =
      [⟨⟨1⟩, imported⟩, ⟨⟨1⟩, linked⟩] ∧
    imported ≠ linked ∧ (⟨1⟩ : RepoId) ∈ brought.reposOf ⟨7⟩ .read ∧
    (⟨1⟩ : RepoId) ∉ replaced.reposOf ⟨7⟩ .read := by
  decide +kernel

end IdentityStore

end RepoAccess

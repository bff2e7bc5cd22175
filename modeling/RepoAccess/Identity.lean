/-
What is known about a user, and the aliases that follow from it.

* `Identity` — user name, e-mail addresses and linked accounts of a user.
* `Identity.candidates` — the aliases whose promises the user may claim under a binding mode.
* `Identity.aliasGroups` — every alias that may ever have meant the user.

Candidates are drawn from one kind of fact only; an identity without such facts has none. The alias
groups leave nothing out, whatever is verified and whatever mode is in force, so a revocation that
names them disarms every later claim.
-/
import RepoAccess.Permission

namespace RepoAccess

/-- What is known about a user. -/
structure Identity where
  user : UserId
  username : Option String
  emails : List EmailAddress
  accounts : List Account
deriving DecidableEq, Repr

namespace Identity

/-- A user about whom nothing else is known. -/
def unknown (user : UserId) : Identity := ⟨user, none, [], []⟩

/-- The addresses known to belong to the user. -/
def verifiedEmails (i : Identity) : List String :=
  (i.emails.filter (·.verified)).map (·.address)

/-- The addresses not known to belong to the user. -/
def unverifiedEmails (i : Identity) : List String :=
  (i.emails.filter (!·.verified)).map (·.address)

/-- The aliases of the facts that a mode looks at. An empty user name is none. -/
def facts (i : Identity) : BindingMode → List Alias
  | .email => i.verifiedEmails.map .internal
  | .username => (i.username.toList.filter (· ≠ "")).map .internal
  | .unset => i.accounts.map (·.spec.toAlias)

/-- The aliases whose promises the user may claim, in the order of the facts, each one once. -/
def candidates (i : Identity) (mode : BindingMode) : List Alias :=
  (i.facts mode).eraseDups

end Identity

/-- The groups with one more alias, which joins the first group of its provider or starts one. -/
def addAlias (a : Alias) : List AliasGroup → List AliasGroup
  | [] => [⟨a.provider, [a.bindId]⟩]
  | g :: rest =>
    if g.provider = a.provider then { g with bindIds := g.bindIds ++ [a.bindId] } :: rest
    else g :: addAlias a rest

/-- Every alias that may ever have meant the user, by provider: this system first, with the e-mail
addresses and the user name, then the linked accounts. -/
def Identity.aliasGroups (i : Identity) : List AliasGroup :=
  i.accounts.foldl (fun groups account => addAlias account.spec.toAlias groups)
    [⟨.internal, i.emails.map (·.address) ++ i.username.toList⟩]

end RepoAccess

/-
What a statement writes, and what a row that is written back was before.

* `StatementKind.written?`, `Statement.key?` — the table that a statement writes to, and the key
  that it names; `StatementKind.NeedsLock` — the writes that are made under the lock of their key;
* `Primitive.conditions`, `Row.Meets` — what the statement of a request asks of columns, and a row
  with nothing else in these columns;
* `Change`, `Touch`, `Mutation.touch` — the members that an operation may add and take away;
* `Image`, `Image.Renews` — a row that is saved whole, and how it comes from the row that was
  loaded: it has its key and keeps the members that the operation does not touch.

What is assumed of a server is that its rows meet the conditions of the statement they answer: then
a loaded row has the key that was asked for (`UserHoldings.key_of_decode`,
`PendingHoldings.key_of_decode`).
-/
import RepoAccess.Proofs.Dialogue

namespace RepoAccess

open Std

/-! ### Keys of statements -/

/-- The table that a statement of this kind writes to. -/
def StatementKind.written? : StatementKind → Option Table
  | .insert table | .update table | .delete table => some table
  | .define | .lock | .select _ => none

/-- The statement writes to a table whose rows have locks. Only taking a user out of all rows of
repositories goes without a lock. -/
def StatementKind.NeedsLock (kind : StatementKind) : Prop :=
  (∃ table, kind.written? = some table ∧ table ≠ .overlays) ∧ kind ≠ .update .repos

/-- The key that a statement names, by its first parameters. -/
def Statement.key? (statement : Statement) : Option LockKey :=
  match statement.kind, statement.params with
  | .insert .users, .int user :: _ | .delete .users, .int user :: _
  | .insert .sources, .int user :: _ | .delete .sources, .int user :: _ => some (.user ⟨user⟩)
  | .insert .repos, .int repo :: _ => some (.repo ⟨repo⟩)
  | .insert .pending, .text serviceType :: .text serviceId :: .text bindId :: _
  | .delete .pending, .text serviceType :: .text serviceId :: .text bindId :: _ =>
    some (.holder ⟨⟨serviceType, serviceId⟩, bindId⟩)
  | .insert .invited, .int repo :: _ => some (.invited ⟨repo⟩)
  | _, _ => none

/-! ### Rows that answer a statement -/

/-- What the statement of a request asks columns to be. -/
def Primitive.conditions : Primitive → List (String × SqlValue)
  | .loadUser user perm =>
    [("user_id", toSql user), ("permission", toSql (name perm)),
      ("object_type", toSql (name ResourceKind.repos))]
  | .loadRepo repo perm | .loadRepoSources repo perm =>
    [("repo_id", toSql repo), ("permission", toSql (name perm))]
  | .loadPending holder perm =>
    holder.toRow ++
      [("permission", toSql (name perm)), ("object_type", toSql (name ResourceKind.repos))]
  | .listPending holder => holder.toRow
  | .loadInvited repo perm provider =>
    [("repo_id", toSql repo), ("permission", toSql (name perm)),
      ("service_type", toSql provider.serviceType), ("service_id", toSql provider.serviceId)]
  | .loadUserSources user perm =>
    [("user_id", toSql user), ("permission", toSql (name perm))]
  | .loadOverlays user => [("user_id", toSql user)]
  | _ => []

/-- What a request asks for are the parameters of its statement. -/
theorem Primitive.params_eq_conditions {p : Primitive} {now : Timestamp} {table : Table}
    (h : (p.statement now).kind = .select table) :
    (p.statement now).params = p.conditions.map (·.2) := by
  cases p <;> first | rfl | cases h

/-- The row holds these values, as far as it has these columns. -/
def Row.Meets (row : Row) (conditions : List (String × SqlValue)) : Prop :=
  ∀ condition ∈ conditions, ∀ value ∈ row.lookup condition.1, value = condition.2

namespace Row.Meets

variable {α : Type} [SqlCodec α] {row : Row} {conditions : List (String × SqlValue)}

/-- A row without these columns meets all conditions. -/
theorem of_columns (h : ∀ condition ∈ conditions, condition.1 ∉ row.map (·.1)) :
    row.Meets conditions := by
  intro condition hmem value hvalue
  obtain ⟨before, after, rfl, -⟩ := List.lookup_eq_some_iff.1 hvalue
  exact absurd (by simp) (h condition hmem)

/-- A value that is read from a column is the one that was asked for. -/
theorem eq_of_read (h : row.Meets conditions) {column : String} {a b : α}
    (hmem : (column, toSql a) ∈ conditions) (hnull : SqlCodec.ofSql? .null = (none : Option α))
    (hback : SqlCodec.ofSql? (toSql a) = some a) (hread : row.read α column = .ok b) : b = a := by
  have hmeets := h _ hmem
  simp only [read, readAs, value] at hread
  cases hlookup : row.lookup column with
  | none =>
    rw [hlookup, Option.getD_none, hnull] at hread
    cases hread
  | some value =>
    obtain rfl : value = toSql a := hmeets value hlookup
    rw [hlookup, Option.getD_some, hback] at hread
    exact (Except.ok.inj hread).symm

/-- A value that is read by its name is the one whose name was asked for. -/
theorem eq_of_parse {β : Type} [Named β] (h : row.Meets conditions) {column text : String} {a b : β}
    (hmem : (column, toSql (name a)) ∈ conditions) (hname : Named.ofName? (name a) = some a)
    (hread : row.read String column = .ok text) (hparse : parseColumn β text = .ok b) : b = a := by
  obtain rfl : text = name a := h.eq_of_read hmem rfl rfl hread
  rw [parseColumn, hname] at hparse
  exact (Except.ok.inj hparse).symm

end Row.Meets

theorem Permission.ofName_name (perm : Permission) : Named.ofName? (name perm) = some perm := by
  cases perm <;> decide

/-- What is answered came from an answer before. -/
theorem exists_of_bind {ε α β : Type} {x : Except ε α} {f : α → Except ε β} {b : β}
    (h : x >>= f = .ok b) : ∃ a, x = .ok a ∧ f a = .ok b := by
  cases x with
  | error e => cases h
  | ok a => exact ⟨a, rfl, h⟩

/-- A record that is found is that of one of the rows. -/
theorem exists_of_decodeFirst {α : Type} {ofRow : Row → Except AccessError α} {answer : Answer}
    {a : α} (h : Primitive.decodeFirst ofRow answer = .ok (some a)) :
    ∃ row ∈ answer.rows, ofRow row = .ok a := by
  unfold Primitive.decodeFirst at h
  cases hhead : answer.rows.head? with
  | none =>
    rw [hhead] at h
    cases h
  | some row =>
    rw [hhead] at h
    obtain ⟨a', ha', h⟩ := exists_of_bind (x := ofRow row) (f := fun a => .ok (some a)) h
    obtain rfl := Option.some.inj (Except.ok.inj h)
    exact ⟨row, List.mem_of_head? hhead, ha'⟩

/-- A user's row that meets the conditions of its load has the key that was asked for. -/
theorem UserHoldings.key_of_decode {user : UserId} {perm : Permission} {answer : Answer}
    {found : UserHoldings}
    (hdecode : (Primitive.loadUser user perm).decode answer = .ok (some found))
    (hmeets : ∀ row ∈ answer.rows, row.Meets (Primitive.loadUser user perm).conditions) :
    found.user = user ∧ found.perm = perm := by
  obtain ⟨row, hrow, hread⟩ := exists_of_decodeFirst hdecode
  have h := hmeets row hrow
  obtain ⟨permText, hpermText, hread⟩ := exists_of_bind hread
  obtain ⟨resourceText, -, hread⟩ := exists_of_bind hread
  obtain ⟨user', huser, hread⟩ := exists_of_bind hread
  obtain ⟨perm', hperm, hread⟩ := exists_of_bind hread
  obtain ⟨resource', -, hread⟩ := exists_of_bind hread
  obtain ⟨repos', -, hread⟩ := exists_of_bind hread
  obtain ⟨updatedAt', -, hread⟩ := exists_of_bind hread
  obtain ⟨syncedAt', -, hread⟩ := exists_of_bind hread
  obtain rfl := Except.ok.inj hread
  exact ⟨h.eq_of_read (.head _) rfl rfl huser,
    h.eq_of_parse (.tail _ (.head _)) perm.ofName_name hpermText hperm⟩

/-- A repository's row has the key that was asked for, whatever the columns are. -/
theorem RepoHolders.key_of_decode {repo : RepoId} {perm : Permission} {answer : Answer}
    {found : RepoHolders}
    (hdecode : (Primitive.loadRepo repo perm).decode answer = .ok (some found)) :
    found.repo = repo ∧ found.perm = perm := by
  obtain ⟨row, -, hread⟩ := exists_of_decodeFirst hdecode
  obtain ⟨users', -, hread⟩ := exists_of_bind hread
  obtain ⟨updatedAt', -, hread⟩ := exists_of_bind hread
  obtain ⟨syncedAt', -, hread⟩ := exists_of_bind hread
  obtain rfl := Except.ok.inj hread
  exact ⟨rfl, rfl⟩

/-- So has a repository's row of aliases. -/
theorem PendingHolders.key_of_decode {repo : RepoId} {perm : Permission} {provider : Provider}
    {answer : Answer} {found : PendingHolders}
    (hdecode : (Primitive.loadInvited repo perm provider).decode answer = .ok (some found)) :
    found.repo = repo ∧ found.perm = perm ∧ found.provider = provider := by
  obtain ⟨row, -, hread⟩ := exists_of_decodeFirst hdecode
  obtain ⟨bindIds', -, hread⟩ := exists_of_bind hread
  obtain ⟨updatedAt', -, hread⟩ := exists_of_bind hread
  obtain rfl := Except.ok.inj hread
  exact ⟨rfl, rfl, rfl⟩

/-- An alias's row that meets the conditions of its load has the key that was asked for. -/
theorem PendingHoldings.key_of_decode {holder : Alias} {perm : Permission} {answer : Answer}
    {found : PendingHoldings}
    (hdecode : (Primitive.loadPending holder perm).decode answer = .ok (some found))
    (hmeets : ∀ row ∈ answer.rows, row.Meets (Primitive.loadPending holder perm).conditions) :
    found.holder = holder ∧ found.perm = perm := by
  obtain ⟨row, hrow, hread⟩ := exists_of_decodeFirst hdecode
  have h := hmeets row hrow
  obtain ⟨permText, hpermText, hread⟩ := exists_of_bind hread
  obtain ⟨resourceText, -, hread⟩ := exists_of_bind hread
  obtain ⟨holder', hholder, hread⟩ := exists_of_bind hread
  obtain ⟨perm', hperm, hread⟩ := exists_of_bind hread
  obtain ⟨resource', -, hread⟩ := exists_of_bind hread
  obtain ⟨repos', -, hread⟩ := exists_of_bind hread
  obtain ⟨updatedAt', -, hread⟩ := exists_of_bind hread
  obtain rfl := Except.ok.inj hread
  obtain ⟨serviceType, hserviceType, hholder⟩ := exists_of_bind hholder
  obtain ⟨serviceId, hserviceId, hholder⟩ := exists_of_bind hholder
  obtain ⟨bindId, hbindId, hholder⟩ := exists_of_bind hholder
  obtain rfl := Except.ok.inj hholder
  obtain rfl : serviceType = holder.provider.serviceType :=
    h.eq_of_read (.head _) rfl rfl hserviceType
  obtain rfl : serviceId = holder.provider.serviceId :=
    h.eq_of_read (.tail _ (.head _)) rfl rfl hserviceId
  obtain rfl : bindId = holder.bindId :=
    h.eq_of_read (.tail _ (.tail _ (.head _))) rfl rfl hbindId
  exact ⟨rfl, h.eq_of_parse (.tail _ (.tail _ (.tail _ (.head _)))) perm.ofName_name hpermText
    hperm⟩

/-! ### Members that come and go -/

/-- The members that a set may gain and lose. -/
structure Change (α : Type) where
  mayGain : α → Prop := fun _ => False
  mayLose : α → Prop := fun _ => False

namespace Change

variable {α : Type} [Ord α] [TransOrd α]

/-- One set may become the other. -/
def Allows (change : Change α) (old new : ExtTreeSet α) : Prop :=
  (∀ a ∈ new, a ∉ old → change.mayGain a) ∧ ∀ a ∈ old, a ∉ new → change.mayLose a

/-- Only this member comes or goes. -/
def only (a : α) : Change α := ⟨(· = a), (· = a)⟩

/-- Whoever is named may come, and all others may go. -/
def toward (named : ExtTreeSet α) : Change α := ⟨(· ∈ named), (· ∉ named)⟩

/-- The names of these aliases may go. -/
def withdraw (holders : List Alias) : Change String where
  mayLose bindId := ∃ holder ∈ holders, holder.bindId = bindId

namespace Allows

variable {change : Change α} {old new : ExtTreeSet α} {a : α}

theorem refl (change : Change α) (old : ExtTreeSet α) : change.Allows old old :=
  ⟨fun _ hnew hold => absurd hnew hold, fun _ hold hnew => absurd hold hnew⟩

theorem insert [LawfulEqOrd α] (h : change.Allows old new) (ha : change.mayGain a) :
    change.Allows old (new.insert a) := by
  constructor
  · intro b hb hold
    rcases ExtTreeSet.mem_insert.1 hb with heq | hb
    · rwa [← LawfulEqCmp.eq_of_compare heq]
    · exact h.1 b hb hold
  · exact fun b hold hb => h.2 b hold fun hnew => hb (ExtTreeSet.mem_insert.2 (.inr hnew))

theorem erase [LawfulEqOrd α] (h : change.Allows old new) (ha : change.mayLose a) :
    change.Allows old (new.erase a) := by
  constructor
  · exact fun b hb hold => h.1 b (ExtTreeSet.mem_of_mem_erase hb) hold
  · intro b hold hb
    by_cases heq : compare a b = .eq
    · rwa [← LawfulEqCmp.eq_of_compare heq]
    · exact h.2 b hold fun hnew => hb (ExtTreeSet.mem_erase.2 ⟨heq, hnew⟩)

theorem union (h : change.Allows old new) {more : ExtTreeSet α}
    (hmore : ∀ a ∈ more, change.mayGain a) : change.Allows old (new ∪ more) := by
  constructor
  · intro b hb hold
    rcases ExtTreeSet.mem_union_iff.1 hb with hb | hb
    · exact h.1 b hb hold
    · exact hmore b hb
  · exact fun b hold hb => h.2 b hold fun hnew => hb (ExtTreeSet.mem_union_iff.2 (.inl hnew))

theorem toward (old named : ExtTreeSet α) : (Change.toward named).Allows old named :=
  ⟨fun _ hnew _ => hnew, fun _ _ hnew => hnew⟩

end Allows

end Change

/-- The members that the rows of each table may gain and lose. -/
structure Touch where
  users : Change RepoId := {}
  repos : Change UserId := {}
  pending : Change RepoId := {}
  invited : Change String := {}

/-- What an operation may do to the members of rows that it writes back. -/
def Mutation.touch : Mutation → Touch
  | .write (.replaceHolders repo _ users) => { users := .only repo, repos := .toward users }
  | .write (.replaceInvited group repo _) =>
    { pending := .only repo, invited := .toward (ExtTreeSet.ofList group.bindIds) }
  | .write (.replaceAccount user _ repos) => { users := .toward repos, repos := .only user }
  | .write (.clearAliases holders) => { invited := .withdraw holders }
  | .revoke request => { invited := .withdraw request.aliases }
  | .write (.saveOverlay _ _ _) | .write (.deleteOverlays _) | .write (.deleteUser _)
  | .saveOverlay _ _ _ => {}
  | .grant request _ =>
    { users := { mayGain _ := True }, repos := { mayGain user := user = request.user },
      invited := { mayLose _ := True } }

/-! ### Rows that are written back -/

/-- A row that is saved whole. -/
inductive Image where
  | user (row : UserHoldings)
  | repo (row : RepoHolders)
  | pending (row : PendingHoldings)
  | invited (row : PendingHolders)

namespace Image

/-- The request that saves it. -/
@[reducible] def save : Image → Primitive
  | .user row => .saveUser row
  | .repo row => .saveRepo row
  | .pending row => .savePending row
  | .invited row => .saveInvited row

/-- The request that loads the row with its key. -/
@[reducible] def load : Image → Primitive
  | .user row => .loadUser row.user row.perm
  | .repo row => .loadRepo row.repo row.perm
  | .pending row => .loadPending row.holder row.perm
  | .invited row => .loadInvited row.repo row.perm row.provider

/-- The table it is a row of. -/
def table : Image → Table
  | .user _ => .users
  | .repo _ => .repos
  | .pending _ => .pending
  | .invited _ => .invited

/-- The lock of its key. -/
def key : Image → LockKey
  | .user row => .user row.user
  | .repo row => .repo row.repo
  | .pending row => .holder row.holder
  | .invited row => .invited row.repo

/-- The row that was found with this key, or an empty one if there was none. -/
def found (now : Timestamp) : (image : Image) → image.load.Reply → Image
  | .user row, found =>
    .user (found.getD { user := row.user, perm := row.perm, updatedAt := now })
  | .repo row, found =>
    .repo (found.getD { repo := row.repo, perm := row.perm, updatedAt := now })
  | .pending row, found =>
    .pending (found.getD { holder := row.holder, perm := row.perm, updatedAt := now })
  | .invited row, found =>
    .invited (found.getD
      { repo := row.repo, perm := row.perm, provider := row.provider, updatedAt := now })

/-- The other row comes from this one: members have come and gone as they may, its moment is the
present one, and the moment of its last list is the former one or the present one. -/
def Renews (touch : Touch) (now : Timestamp) : Image → Image → Prop
  | .user old, .user new =>
    touch.users.Allows old.repos new.repos ∧
      ∃ syncedAt, (syncedAt = old.syncedAt ∨ syncedAt = some now) ∧
        new = { old with repos := new.repos, updatedAt := now, syncedAt }
  | .repo old, .repo new =>
    touch.repos.Allows old.users new.users ∧
      ∃ syncedAt, (syncedAt = old.syncedAt ∨ syncedAt = some now) ∧
        new = { old with users := new.users, updatedAt := now, syncedAt }
  | .pending old, .pending new =>
    touch.pending.Allows old.repos new.repos ∧
      new = { old with repos := new.repos, updatedAt := now }
  | .invited old, .invited new =>
    touch.invited.Allows old.bindIds new.bindIds ∧
      new = { old with bindIds := new.bindIds, updatedAt := now }
  | _, _ => False

variable {touch : Touch} {now : Timestamp}

theorem lock_load (image : Image) : image.load.lock? = some image.key := by
  cases image <;> rfl

theorem lock_save (image : Image) : image.save.lock? = none := by
  cases image <;> rfl

theorem key_save (image : Image) (now : Timestamp) :
    (image.save.statement now).key? = some image.key := by
  cases image <;> rfl

theorem kind_save (image : Image) (now : Timestamp) :
    (image.save.statement now).kind = .insert image.table := by
  cases image <;> rfl

/-- A row that comes from another one has its key. -/
theorem Renews.key_eq {old new : Image} (h : old.Renews touch now new) : new.key = old.key := by
  cases old <;> cases new
  case user.user | repo.repo =>
    obtain ⟨-, syncedAt, -, hnew⟩ := h
    rw [hnew]
    rfl
  case pending.pending | invited.invited =>
    rw [h.2]
    rfl
  all_goals exact h.elim

theorem Renews.table_eq {old new : Image} (h : old.Renews touch now new) :
    new.table = old.table := by
  cases old <;> cases new <;> first | rfl | exact h.elim

/-- A statement that inserts a row into one of these tables saves a row whole. -/
theorem exists_save {p : Primitive} {table : Table}
    (h : (p.statement now).kind = .insert table) (hsources : table ≠ .sources)
    (hoverlays : table ≠ .overlays) : ∃ image : Image, p = image.save := by
  cases p with
  | saveUser row => exact ⟨.user row, rfl⟩
  | saveRepo row => exact ⟨.repo row, rfl⟩
  | savePending row => exact ⟨.pending row, rfl⟩
  | saveInvited row => exact ⟨.invited row, rfl⟩
  | addSource =>
    cases h
    exact absurd rfl hsources
  | saveOverlay =>
    cases h
    exact absurd rfl hoverlays
  | _ => cases h

end Image

end RepoAccess

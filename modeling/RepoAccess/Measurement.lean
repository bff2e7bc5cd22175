/-
Measurements.

* `Measurement` — something that was counted or timed.
* `Measurement.counts` — the series it adds to, and how much; `Measurement.timed` — the series of
  durations it belongs to.
* `countTotals`, `timedTotals` — sums over measurements, by series.
-/
import Std.Data.ExtTreeMap

namespace RepoAccess

open Std

/-- A name with labels. -/
structure Series where
  name : String
  labels : List (String × String) := []
deriving DecidableEq, Repr

/-- A series as it is shown: the labels between braces, in their order, if there are any. -/
def Series.render (s : Series) : String :=
  if s.labels.isEmpty then s.name
  else
    let labels := s.labels.map fun (label, value) => label ++ "=" ++ value
    s.name ++ "\x7b" ++ ",".intercalate labels ++ "\x7d"

/-- Something that was counted or timed. -/
inductive Measurement where
  /-- Promises were claimed: how many aliases matched, and how many repositories they had. -/
  | granted (mode : String) (matched repos : Nat)
  /-- A user's permissions were revoked: how many rows were deleted. -/
  | revoked (rows : Nat)
  /-- A list of repositories was checked. -/
  | checked (candidates allowed : Nat)
  /-- Paths were denied. -/
  | pathsDenied (count : Nat)
  /-- An operation failed. -/
  | failed (operation cause : String)
  /-- An operation ended; the time it took is not part of the model. -/
  | took (operation : String)
deriving DecidableEq, Repr

/-- The series of failures of an operation with a cause. -/
def failureSeries (operation cause : String) : Series :=
  ⟨"authz_errors_total", [("operation", operation), ("type", cause)]⟩

/-- The series that a measurement adds to, and how much. -/
def Measurement.counts : Measurement → List (Series × Nat)
  | .granted mode matched repos =>
    [(⟨"authz_grants_total", [("mode", mode)]⟩, 1),
      (⟨"authz_grant_matched_keys_total", [("mode", mode)]⟩, matched),
      (⟨"authz_granted_repos_total", [("mode", mode)]⟩, repos)]
  | .revoked rows => [(⟨"authz_revokes_total", []⟩, 1), (⟨"authz_revoked_rows_total", []⟩, rows)]
  | .checked candidates allowed =>
    [(⟨"authz_authorized_repos_checks_total", []⟩, 1),
      (⟨"authz_authorized_repos_denied_total", []⟩, candidates - allowed)]
  | .pathsDenied count => [(⟨"authz_sub_repo_denials_total", []⟩, count)]
  | .failed operation cause => [(failureSeries operation cause, 1)]
  | .took _ => []

/-- The series of durations that a measurement belongs to. -/
def Measurement.timed : Measurement → Option Series
  | .took operation => some ⟨"authz_operation_duration_ms", [("operation", operation)]⟩
  | _ => none

/-- The sums of amounts by what they are shown under. -/
def sumBySeries (amounts : List (Series × Nat)) : ExtTreeMap String Nat :=
  amounts.foldl
    (fun sums (series, n) => sums.insert series.render (sums.getD series.render 0 + n)) ∅

/-- The sums of all counts; a count of nothing still names its series. -/
def countTotals (measurements : List Measurement) : ExtTreeMap String Nat :=
  sumBySeries (measurements.flatMap (·.counts))

/-- How many durations each series has. -/
def timedTotals (measurements : List Measurement) : ExtTreeMap String Nat :=
  sumBySeries ((measurements.filterMap (·.timed)).map (·, 1))

end RepoAccess

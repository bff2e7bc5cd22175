/-
Which failures of an engine's calls are counted.

* `failuresIn`, `failureTotal` — the failures among measurements, and how many there are;
* `EngineCall` — a call of an engine at a moment, with `EngineCall.refusal`, why path rules that it
  is given or reads do not compile, and `EngineCall.counted`, the failure that it counts;
* `EngineCall.encounters` — calls one after another, each with what it finds.

`failures_are_counted` says that a call which fails counts one failure, under the label of what it
returns, except where path rules do not compile: that is found out outside of what is observed.
`bad_rules_are_not_counted` is a path check that fails so, again and again, and counts nothing.
-/
import RepoAccess.Proofs.PathDecisions

namespace RepoAccess

variable {σ α β : Type}

/-! ### Failures among measurements -/

/-- The failures among measurements, and how much each of them adds. -/
def failuresIn (measurements : List Measurement) : List (Series × Nat) :=
  (measurements.flatMap (·.counts)).filter fun (series, _) => series.name = "authz_errors_total"

/-- How much failures add, over all series. -/
def totalOf : List (Series × Nat) → Nat
  | [] => 0
  | failure :: failures => failure.2 + totalOf failures

/-- How many failures there are among measurements, over all series. -/
def failureTotal (measurements : List Measurement) : Nat := totalOf (failuresIn measurements)

theorem totalOf_append (failures later : List (Series × Nat)) :
    totalOf (failures ++ later) = totalOf failures + totalOf later := by
  induction failures with
  | nil => exact (Nat.zero_add _).symm
  | cons failure failures ih =>
    rw [List.cons_append, totalOf, totalOf, ih, Nat.add_assoc]

theorem failuresIn_append (before new : List Measurement) :
    failuresIn (before ++ new) = failuresIn before ++ failuresIn new := by
  rw [failuresIn, List.flatMap_append, List.filter_append, failuresIn, failuresIn]

/-- The failure to be counted of an operation that ends so. -/
def Engine.failuresOf (e : Engine σ) (operation : String) (result : Except Stop α) :
    List (Series × Nat) :=
  match result with
  | .error (.failed error) =>
    if e.metrics then [(failureSeries operation error.label, 1)] else []
  | _ => []

/-- From one journal to a later one, exactly these failures are counted, and nothing is measured by
an engine that takes no measurements. -/
def Engine.Adds (e : Engine σ) (before after : Journal) (failures : List (Series × Nat)) : Prop :=
  ∃ new, after.measurements = before.measurements ++ new ∧ failuresIn new = failures ∧
    (e.metrics = false → new = [])

/-- The operation counts no failure, however it ends. -/
def Engine.Quiet (e : Engine σ) (act : Action σ α) : Prop :=
  ∀ before, e.Adds before.2 (ExceptT.run act before).2.2 []

namespace Engine

variable {e : Engine σ} {now : Timestamp}

theorem Adds.refl (journal : Journal) : e.Adds journal journal [] :=
  ⟨[], (List.append_nil _).symm, rfl, fun _ => rfl⟩

theorem Adds.trans {first second third : Journal} {failures later : List (Series × Nat)}
    (h : e.Adds first second failures) (h' : e.Adds second third later) :
    e.Adds first third (failures ++ later) := by
  obtain ⟨new, hnew, hfailures, hoff⟩ := h
  obtain ⟨new', hnew', hfailures', hoff'⟩ := h'
  refine ⟨new ++ new', ?_, ?_, fun h => ?_⟩
  · rw [hnew', hnew, List.append_assoc]
  · rw [failuresIn_append, hfailures, hfailures']
  · rw [hoff h, hoff' h, List.append_nil]

/-! ### What counts nothing -/

theorem quiet_pure (a : α) : e.Quiet (pure a : Action σ α) := fun before => Adds.refl before.2

theorem quiet_ofExcept (result : Except AccessError α) :
    e.Quiet (Action.ofExcept result : Action σ α) := by
  intro before
  cases result <;> exact Adds.refl before.2

theorem quiet_note (notice : Notice) : e.Quiet (Action.note notice : Action σ Unit) :=
  fun before => Adds.refl before.2

theorem quiet_measure {m : Measurement} (hm : failuresIn [m] = []) : e.Quiet (e.measure m) := by
  intro before
  rw [measure]
  cases hmetrics : e.metrics with
  | false => exact Adds.refl before.2
  | true => exact ⟨[m], rfl, hm, fun hoff => absurd (hmetrics.symm.trans hoff) (by decide)⟩

theorem Quiet.bind {x : Action σ α} {f : α → Action σ β} (hx : e.Quiet x)
    (hf : ∀ a, e.Quiet (f a)) : e.Quiet (x >>= f) := by
  intro before
  have hfirst := hx before
  rw [Action.run_bind]
  generalize ExceptT.run x before = ran at hfirst ⊢
  obtain ⟨result, mid⟩ := ran
  cases result with
  | error stop => exact hfirst
  | ok a => exact hfirst.trans (hf a mid)

theorem quiet_transact (body : Tx (Ending α)) : e.Quiet (e.transact now body) :=
  fun before => Adds.refl before.2

theorem quiet_once (body : Tx α) : e.Quiet (e.once now body) := quiet_transact _

/-! ### What is observed -/

/-- What is measured of the end of an operation. -/
def observed (e : Engine σ) (operation : String) (result : Except Stop α) : List Measurement :=
  if e.metrics then
    match result with
    | .error .waiting => []
    | .error (.failed error) => [.failed operation error.label, .took operation]
    | .ok _ => [.took operation]
  else []

theorem measurements_observe (operation : String) (act : Action σ α) (before : σ × Journal) :
    (ExceptT.run (e.observe operation act) before).2.2.measurements =
      (ExceptT.run act before).2.2.measurements ++
        e.observed operation (ExceptT.run (e.observe operation act) before).1 := by
  unfold observe observed
  simp only [ExceptT.run_mk, bind, StateT.bind]
  generalize ExceptT.run act before = ran
  obtain ⟨result, s, journal⟩ := ran
  dsimp only
  cases e.metrics with
  | false =>
    cases e.inTime operation result with
    | ok a => exact (List.append_nil _).symm
    | error stop => cases stop <;> exact (List.append_nil _).symm
  | true =>
    cases e.inTime operation result with
    | ok a => rfl
    | error stop =>
      cases stop with
      | waiting => exact (List.append_nil _).symm
      | failed error => exact List.append_assoc _ _ _

theorem failuresIn_observed (operation : String) (result : Except Stop α) :
    failuresIn (e.observed operation result) = e.failuresOf operation result := by
  unfold observed failuresOf
  cases e.metrics <;> rcases result with (error | _) | a <;> rfl

/-- An observed operation that counts nothing itself counts its own failure. -/
theorem Quiet.adds_observe {act : Action σ α} (h : e.Quiet act) (operation : String)
    (before : σ × Journal) :
    e.Adds before.2 (ExceptT.run (e.observe operation act) before).2.2
      (e.failuresOf operation (ExceptT.run (e.observe operation act) before).1) := by
  refine (h before).trans ⟨_, measurements_observe operation act before,
    failuresIn_observed _ _, fun hoff => ?_⟩
  simp only [observed, hoff]
  rfl

/-! ### The operations -/

theorem adds_grantUnder (request : GrantRequest) (mode : BindingMode) (before : σ × Journal) :
    e.Adds before.2 (ExceptT.run (e.grantUnder now request mode) before).2.2
      (e.failuresOf "grant" (ExceptT.run (e.grantUnder now request mode) before).1) := by
  refine Quiet.adds_observe ((quiet_ofExcept _).bind fun identity => ?_) "grant" before
  dsimp only
  split
  · exact quiet_pure _
  · refine (quiet_transact _).bind fun outcome => ?_
    split
    · exact (quiet_note _).bind fun _ => (quiet_measure rfl).bind fun _ => quiet_pure _
    · exact quiet_pure _

theorem adds_authorizedRepos (request : AccessRequest) (repoOf : α → RepoId) (repos : List α)
    (before : σ × Journal) :
    e.Adds before.2 (ExceptT.run (e.authorizedRepos now request repoOf repos) before).2.2
      (e.failuresOf "authorized_repos"
        (ExceptT.run (e.authorizedRepos now request repoOf repos) before).1) := by
  rw [authorizedRepos]
  split
  · exact Adds.refl before.2
  · refine Quiet.adds_observe ((quiet_once _).bind fun row => ?_) "authorized_repos" before
    cases row with
    | none => exact (quiet_measure rfl).bind fun _ => quiet_pure _
    | some row => exact (quiet_measure rfl).bind fun _ => quiet_pure _

theorem adds_revoke (request : RevokeRequest) (before : σ × Journal) :
    e.Adds before.2 (ExceptT.run (e.revoke now request) before).2.2
      (e.failuresOf "revoke" (ExceptT.run (e.revoke now request) before).1) :=
  Quiet.adds_observe
    ((quiet_once _).bind fun _ => (quiet_note _).bind fun _ => quiet_measure rfl) "revoke" before

theorem adds_overlays (user : UserId) (before : σ × Journal) :
    e.Adds before.2 (ExceptT.run (e.overlays now user) before).2.2
      (e.failuresOf "get_sub_repo" (ExceptT.run (e.overlays now user) before).1) :=
  Quiet.adds_observe (quiet_once _) "get_sub_repo" before

end Engine

/-! ### Path rules that do not compile -/

/-- Why path rules do not compile, if they do not. -/
def Overlay.fault (overlay : Overlay) : Option AccessError :=
  match compileRules overlay.paths with
  | .ok _ => none
  | .error error => some error

theorem Overlay.label_of_fault {overlay : Overlay} {error : AccessError}
    (h : overlay.fault = some error) : error.label = "invalid_pattern" := by
  unfold fault at h
  obtain ⟨rules, hrules⟩ | ⟨text, reason, hbad⟩ := compileRules_cases overlay.paths
  · rw [hrules] at h
    cases h
  · rw [hbad] at h
    obtain rfl := Option.some.inj h
    rfl

/-- A call counts its failure as that of an operation. If there is a fault, the call fails with it
and counts nothing. -/
def Engine.Counts (e : Engine σ) (fault : Option AccessError) (operation : String)
    (before : Journal) (ran : Except Stop α × σ × Journal) : Prop :=
  match fault with
  | none => e.Adds before ran.2.2 (e.failuresOf operation ran.1)
  | some error => ran.1 = .error (.failed error) ∧ e.Adds before ran.2.2 []

namespace Engine

variable {e : Engine σ} {now : Timestamp} {fault : Option AccessError} {operation : String}

theorem Counts.of_adds {before middle : Journal} {ran : Except Stop α × σ × Journal}
    (h : e.Adds before middle []) (hrest : e.Counts fault operation middle ran) :
    e.Counts fault operation before ran := by
  cases fault with
  | none => exact h.trans hrest
  | some error => exact ⟨hrest.1, h.trans hrest.2⟩

/-- One operation after another. If the first one fails, that is the failure to be counted. -/
theorem counts_bind {x : Action σ α} {f : α → Action σ β} {first : String} {before : σ × Journal}
    (hx : e.Adds before.2 (ExceptT.run x before).2.2
      (e.failuresOf first (ExceptT.run x before).1))
    (hstop : ∀ stop mid, ExceptT.run x before = (.error stop, mid) →
      fault = none ∧ operation = first)
    (hok : ∀ a mid, ExceptT.run x before = (.ok a, mid) →
      e.Counts fault operation mid.2 (ExceptT.run (f a) mid)) :
    e.Counts fault operation before.2 (ExceptT.run (x >>= f) before) := by
  rw [Action.run_bind]
  generalize hran : ExceptT.run x before = ran at hx ⊢
  obtain ⟨result, mid⟩ := ran
  cases result with
  | error stop =>
    obtain ⟨rfl, rfl⟩ := hstop stop mid hran
    cases stop <;> exact hx
  | ok a => exact .of_adds hx (hok a mid hran)

theorem counts_saveOverlay (user : UserId) (repo : RepoId) (overlay : Overlay)
    (before : σ × Journal) :
    e.Counts overlay.fault "upsert_sub_repo" before.2
      (ExceptT.run (e.saveOverlay now user repo overlay) before) := by
  unfold saveOverlay Overlay.fault
  cases compileRules overlay.paths with
  | error error => exact ⟨rfl, Adds.refl before.2⟩
  | ok rules => exact Quiet.adds_observe (quiet_once _) "upsert_sub_repo" before

theorem Quiet.counts_of_tells {act : Action σ α} {a : α} (h : e.Quiet act) (htells : act.Tells a)
    (before : σ × Journal) : e.Counts none operation before.2 (ExceptT.run act before) := by
  have hadds := h before
  obtain ⟨journal, hrun⟩ := htells before.1 before.2
  rw [hrun] at hadds ⊢
  exact hadds

/-- The judgement of a path check fails if the rules do not compile, and counts nothing. -/
theorem counts_leftBy (overlay : Option Overlay) (paths : List String) (before : σ × Journal) :
    e.Counts (overlay.bind Overlay.fault) operation before.2
      (ExceptT.run
        (match overlay with
          | none => pure paths
          | some overlay => do
            let rules ← Action.ofExcept (compileRules overlay.paths)
            let allowed := paths.filter (isAllowed rules)
            if allowed.length < paths.length then
              e.measure (.pathsDenied (paths.length - allowed.length))
            return allowed)
        before) := by
  cases overlay with
  | none => exact Adds.refl before.2
  | some overlay =>
    have htold := says_leftBy (e := e) (some overlay) paths
    rw [Option.bind_some, Overlay.fault]
    unfold leftBy at htold
    dsimp only at htold ⊢
    cases hrules : compileRules overlay.paths with
    | error error => exact ⟨rfl, Adds.refl before.2⟩
    | ok rules =>
      rw [hrules] at htold
      refine Quiet.counts_of_tells ((quiet_ofExcept _).bind fun rules => ?_) htold before
      split
      · exact (quiet_measure rfl).bind fun _ => quiet_pure _
      · exact quiet_pure _

theorem indifferent_authorizedRepos (request : AccessRequest) (repoOf : α → RepoId)
    (repos : List α) : (e.authorizedRepos now request repoOf repos).Indifferent := by
  rw [authorizedRepos]
  split
  · exact (Action.tells_pure _).indifferent
  · refine indifferent_observe ((indifferent_once _).bind fun row => ?_)
    cases row with
    | none => exact (tells_measure _).indifferent.bind fun _ => (Action.tells_pure _).indifferent
    | some row =>
      exact (tells_measure _).indifferent.bind fun _ => (Action.tells_pure _).indifferent

/-- The path rules that a path check finds, if it comes to them. -/
def rulesFound (e : Engine σ) (now : Timestamp) (user : UserId) (perm : Permission)
    (repo : RepoId) (paths : List String) (s : σ) : Option Overlay :=
  if paths.isEmpty then none
  else
    match (e.authorizedRepos now { user, perm } id [repo]).effect s with
    | (.ok (_ :: _), s) =>
      match (e.overlays now user).effect s with
      | (.ok overlays, _) => overlays[repo]?
      | _ => none
    | _ => none

/-- The question of a path check that fails, if one of the two does. -/
def failingQuestion (e : Engine σ) (now : Timestamp) (user : UserId) (perm : Permission)
    (repo : RepoId) (s : σ) : String :=
  match ((e.authorizedRepos now { user, perm } id [repo]).effect s).1 with
  | .error _ => "authorized_repos"
  | .ok _ => "get_sub_repo"

/-- A path check counts the failure of the question that fails, and none if the rules that it finds
do not compile. -/
theorem counts_filterPaths (user : UserId) (perm : Permission) (repo : RepoId)
    (paths : List String) (before : σ × Journal) :
    e.Counts ((e.rulesFound now user perm repo paths before.1).bind Overlay.fault)
      (e.failingQuestion now user perm repo before.1) before.2
      (ExceptT.run (e.filterPaths now user perm repo paths) before) := by
  unfold filterPaths rulesFound failingQuestion
  split
  · exact Adds.refl before.2
  · have hask : (e.authorizedRepos now { user, perm } id [repo]).Indifferent :=
      indifferent_authorizedRepos _ _ _
    rw [← hask before.1 before.2]
    refine counts_bind (adds_authorizedRepos _ id [repo] before) ?_ ?_
    · intro stop mid hran
      rw [hran]
      exact ⟨rfl, rfl⟩
    · intro granted mid hran
      rw [hran]
      cases granted with
      | nil => exact Adds.refl mid.2
      | cons _ _ =>
        have hread : (e.overlays now user).Indifferent := indifferent_observe (indifferent_once _)
        dsimp only
        rw [← hread mid.1 mid.2]
        refine counts_bind (adds_overlays user mid) ?_ ?_
        · intro stop mid' hran'
          rw [hran']
          exact ⟨rfl, rfl⟩
        · intro overlays mid' hran'
          rw [hran']
          exact counts_leftBy overlays[repo]? paths mid'

theorem Counts.map {x : Action σ α} {before : σ × Journal} (g : α → β)
    (h : e.Counts fault operation before.2 (ExceptT.run x before)) :
    e.Counts fault operation before.2 (ExceptT.run (x >>= fun a => pure (g a)) before) := by
  rw [Action.run_bind]
  generalize ExceptT.run x before = ran at h ⊢
  obtain ⟨result, mid⟩ := ran
  cases fault with
  | none => rcases result with (error | _) | a <;> exact h
  | some error =>
    obtain ⟨rfl, hadds⟩ := h
    exact ⟨rfl, hadds⟩

end Engine

/-! ### Calls -/

/-- What is asked of an engine. -/
inductive EngineRequest where
  | grant (request : GrantRequest)
  | grantUnder (request : GrantRequest) (mode : BindingMode)
  | authorizedRepos (α : Type) (request : AccessRequest) (repoOf : α → RepoId) (repos : List α)
  | revoke (request : RevokeRequest)
  | saveOverlay (user : UserId) (repo : RepoId) (overlay : Overlay)
  | overlays (user : UserId)
  | filterPaths (user : UserId) (perm : Permission) (repo : RepoId) (paths : List String)
  | canReadPath (user : UserId) (perm : Permission) (repo : RepoId) (path : String)

namespace EngineRequest

/-- What an engine answers. -/
@[reducible] def Answer : EngineRequest → Type
  | .grant _ | .grantUnder _ _ => GrantOutcome
  | .authorizedRepos α _ _ _ => List α
  | .revoke _ | .saveOverlay _ _ _ => Unit
  | .overlays _ => Std.ExtTreeMap RepoId Overlay
  | .filterPaths _ _ _ _ => List String
  | .canReadPath _ _ _ _ => Bool

/-- The operation that is asked for. -/
def act (e : Engine σ) (now : Timestamp) : (r : EngineRequest) → Action σ r.Answer
  | .grant request => e.grant now request
  | .grantUnder request mode => e.grantUnder now request mode
  | .authorizedRepos _ request repoOf repos => e.authorizedRepos now request repoOf repos
  | .revoke request => e.revoke now request
  | .saveOverlay user repo overlay => e.saveOverlay now user repo overlay
  | .overlays user => e.overlays now user
  | .filterPaths user perm repo paths => e.filterPaths now user perm repo paths
  | .canReadPath user perm repo path => e.canReadPath now user perm repo path

/-- Why the path rules that are given, or that are found in the store, do not compile. -/
def fault (e : Engine σ) (now : Timestamp) (s : σ) : EngineRequest → Option AccessError
  | .saveOverlay _ _ overlay => overlay.fault
  | .filterPaths user perm repo paths =>
    (e.rulesFound now user perm repo paths s).bind Overlay.fault
  | .canReadPath user perm repo path =>
    (e.rulesFound now user perm repo [path] s).bind Overlay.fault
  | _ => none

/-- The operation that a failure is counted under. -/
def countedAs (e : Engine σ) (now : Timestamp) (s : σ) : EngineRequest → String
  | .grant _ | .grantUnder _ _ => "grant"
  | .authorizedRepos _ _ _ _ => "authorized_repos"
  | .revoke _ => "revoke"
  | .saveOverlay _ _ _ => "upsert_sub_repo"
  | .overlays _ => "get_sub_repo"
  | .filterPaths user perm repo _ | .canReadPath user perm repo _ =>
    e.failingQuestion now user perm repo s

theorem counts_act (e : Engine σ) (now : Timestamp) (r : EngineRequest) (before : σ × Journal) :
    e.Counts (r.fault e now before.1) (r.countedAs e now before.1) before.2
      (ExceptT.run (r.act e now) before) := by
  cases r with
  | grant request => exact Engine.adds_grantUnder request e.mode before
  | grantUnder request mode => exact Engine.adds_grantUnder request mode before
  | authorizedRepos α request repoOf repos =>
    exact Engine.adds_authorizedRepos request repoOf repos before
  | revoke request => exact Engine.adds_revoke request before
  | saveOverlay user repo overlay => exact Engine.counts_saveOverlay user repo overlay before
  | overlays user => exact Engine.adds_overlays user before
  | filterPaths user perm repo paths => exact Engine.counts_filterPaths user perm repo paths before
  | canReadPath user perm repo path =>
    exact (Engine.counts_filterPaths user perm repo [path] before).map fun paths => !paths.isEmpty

/-- Nothing but path rules is at fault. -/
theorem exists_overlay_of_fault {e : Engine σ} {now : Timestamp} {s : σ} {r : EngineRequest}
    {error : AccessError} (h : r.fault e now s = some error) :
    ∃ overlay : Overlay, overlay.fault = some error := by
  cases r with
  | saveOverlay user repo overlay => exact ⟨overlay, h⟩
  | filterPaths user perm repo paths =>
    obtain ⟨overlay, -, hfault⟩ := Option.bind_eq_some_iff.1 h
    exact ⟨overlay, hfault⟩
  | canReadPath user perm repo path =>
    obtain ⟨overlay, -, hfault⟩ := Option.bind_eq_some_iff.1 h
    exact ⟨overlay, hfault⟩
  | _ => cases h

end EngineRequest

/-- A call of an engine at a moment. -/
structure EngineCall (σ : Type) where
  engine : Engine σ
  now : Timestamp
  request : EngineRequest

namespace EngineCall

/-- How the call ends, and what it leaves. -/
def run (call : EngineCall σ) (found : σ × Journal) :
    Except Stop call.request.Answer × σ × Journal :=
  ExceptT.run (call.request.act call.engine call.now) found

/-- The failure that the call returns. -/
def failure (call : EngineCall σ) (found : σ × Journal) : Option AccessError :=
  match (call.run found).1 with
  | .error (.failed error) => some error
  | _ => none

/-- Why path rules that the call is given or finds do not compile. -/
def refusal (call : EngineCall σ) (found : σ × Journal) : Option AccessError :=
  call.request.fault call.engine call.now found.1

/-- The failure that the call counts: the one that it returns, unless that is about path rules that
do not compile, or the engine takes no measurements. -/
def counted (call : EngineCall σ) (found : σ × Journal) : Option (Series × Nat) :=
  if call.engine.metrics && (call.refusal found).isNone then
    (call.failure found).map fun error =>
      (failureSeries (call.request.countedAs call.engine call.now found.1) error.label, 1)
  else none

/-- What calls leave, one after another. -/
def after (calls : List (EngineCall σ)) (found : σ × Journal) : σ × Journal :=
  calls.foldl (fun found call => (call.run found).2) found

/-- Calls one after another, each with what it finds. -/
def encounters : List (EngineCall σ) → σ × Journal → List (EngineCall σ × σ × Journal)
  | [], _ => []
  | call :: calls, found => (call, found) :: encounters calls (call.run found).2

theorem adds_counted (call : EngineCall σ) (found : σ × Journal) :
    call.engine.Adds found.2 (call.run found).2.2 (call.counted found).toList := by
  have hcounts : call.engine.Counts (call.refusal found) _ found.2 (call.run found) :=
    call.request.counts_act call.engine call.now found
  unfold counted failure
  cases hrefusal : call.refusal found with
  | some error =>
    rw [hrefusal] at hcounts
    simpa using hcounts.2
  | none =>
    rw [hrefusal] at hcounts
    unfold Engine.Counts Engine.failuresOf at hcounts
    cases hmetrics : call.engine.metrics <;>
      rcases hend : (call.run found).1 with (error | _) | a <;>
      simpa [hend, hmetrics] using hcounts

/-- A call with such path rules fails because of them. -/
theorem failure_of_refusal {call : EngineCall σ} {found : σ × Journal} {error : AccessError}
    (h : call.refusal found = some error) : call.failure found = some error := by
  have hcounts : call.engine.Counts (call.refusal found) _ found.2 (call.run found) :=
    call.request.counts_act call.engine call.now found
  rw [h] at hcounts
  rw [failure, hcounts.1]

theorem isSome_counted (call : EngineCall σ) (found : σ × Journal) :
    (call.counted found).isSome =
      (call.engine.metrics && (call.failure found).isSome && (call.refusal found).isNone) := by
  unfold counted
  cases call.engine.metrics <;> cases call.refusal found <;> simp

theorem amount_of_counted {call : EngineCall σ} {found : σ × Journal} {failure : Series × Nat}
    (h : call.counted found = some failure) : failure.2 = 1 := by
  unfold counted at h
  split at h
  · obtain ⟨error, -, rfl⟩ := Option.map_eq_some_iff.1 h
    rfl
  · cases h

/-! ### Runs -/

theorem failuresIn_after (calls : List (EngineCall σ)) (found : σ × Journal) :
    failuresIn (after calls found).2.measurements = failuresIn found.2.measurements ++
      (encounters calls found).filterMap fun one => one.1.counted one.2 := by
  induction calls generalizing found with
  | nil => exact (List.append_nil _).symm
  | cons call calls ih =>
    obtain ⟨new, hnew, hcounted, -⟩ := call.adds_counted found
    rw [after, List.foldl_cons, ← after, ih, encounters, hnew, failuresIn_append, hcounted,
      List.append_assoc, List.filterMap_cons]
    dsimp only
    cases call.counted found <;> rfl

theorem measurements_after {calls : List (EngineCall σ)}
    (h : ∀ call ∈ calls, call.engine.metrics = false) (found : σ × Journal) :
    (after calls found).2.measurements = found.2.measurements := by
  induction calls generalizing found with
  | nil => rfl
  | cons call calls ih =>
    obtain ⟨hcall, hcalls⟩ := List.forall_mem_cons.1 h
    obtain ⟨new, hnew, -, hoff⟩ := call.adds_counted found
    rw [after, List.foldl_cons, ← after, ih hcalls, hnew, hoff hcall, List.append_nil]

/-- Every failure that is counted adds one to the total. -/
theorem totalOf_counted (met : List (EngineCall σ × σ × Journal)) :
    totalOf (met.filterMap fun one => one.1.counted one.2) =
      met.countP fun one =>
        one.1.engine.metrics && (one.1.failure one.2).isSome && (one.1.refusal one.2).isNone := by
  induction met with
  | nil => rfl
  | cons one met ih =>
    rw [List.filterMap_cons, List.countP_cons, ← isSome_counted, ← ih]
    cases hcounted : one.1.counted one.2 with
    | none => rfl
    | some failure =>
      dsimp only
      rw [totalOf, amount_of_counted hcounted]
      exact Nat.add_comm _ _

end EngineCall

/-- Calls of engines that take measurements count one failure each, if they fail, with the label of
what they return, and none if they do not; engines that take no measurements record nothing. Only a
call that fails because path rules do not compile is not counted at all. -/
theorem failures_are_counted (calls : List (EngineCall σ)) (found : σ × Journal) :
    let measured := (EngineCall.after calls found).2.measurements
    let met := EngineCall.encounters calls found
    (failuresIn measured = failuresIn found.2.measurements ++
      met.filterMap fun one => one.1.counted one.2) ∧
    (failureTotal measured = failureTotal found.2.measurements +
      met.countP fun one =>
        one.1.engine.metrics && (one.1.failure one.2).isSome && (one.1.refusal one.2).isNone) ∧
    (∀ call found, (call, found) ∈ met → ∀ error, call.refusal found = some error →
      call.failure found = some error ∧ error.label = "invalid_pattern") ∧
    ((∀ call ∈ calls, call.engine.metrics = false) → measured = found.2.measurements) := by
  intro measured met
  have hfailures := EngineCall.failuresIn_after calls found
  refine ⟨hfailures, ?_, fun call found _ error hrefusal => ⟨?_, ?_⟩, fun hoff => ?_⟩
  · rw [failureTotal, hfailures, totalOf_append, EngineCall.totalOf_counted, failureTotal]
  · exact EngineCall.failure_of_refusal hrefusal
  · obtain ⟨overlay, hoverlay⟩ := EngineRequest.exists_overlay_of_fault hrefusal
    exact Overlay.label_of_fault hoverlay
  · exact EngineCall.measurements_after hoff found

/-- A call whose path rules do not compile, and then one for a user that is unknown. -/
theorem failures_are_counted_past_bad_rules :
    let setup : Setup := { identityOf := fun user => .error (.userNotFound user.val) }
    let save : EngineCall MemoryStore := ⟨setup.engine, ⟨0, 0⟩, .saveOverlay ⟨7⟩ ⟨1⟩ ⟨[""]⟩⟩
    let grant : EngineCall MemoryStore :=
      ⟨setup.engine, ⟨0, 0⟩, .grant { user := ⟨7⟩, perm := .read }⟩
    let unseen : Setup := { setup with metrics := false }
    let silent : EngineCall MemoryStore := { grant with engine := unseen.engine }
    save.refusal ({}, {}) = some (.invalidPattern "" "empty pattern") ∧
    save.failure ({}, {}) = some (.invalidPattern "" "empty pattern") ∧
    grant.failure (save.run ({}, {})).2 = some (.userNotFound 7) ∧
    failureTotal (EngineCall.after [save, grant] ({}, {})).2.measurements = 1 ∧
    (EngineCall.after [silent] ({}, {})).2.measurements = [] := by
  intro setup save grant unseen silent
  have hrefusal : save.refusal ({}, {}) = some (.invalidPattern "" "empty pattern") := by
    decide +kernel
  have hfailure : grant.failure (save.run ({}, {})).2 = some (.userNotFound 7) := by decide +kernel
  obtain ⟨-, htotal, hrefused, -⟩ := failures_are_counted [save, grant] ({}, {})
  obtain ⟨-, -, -, hsilent⟩ := failures_are_counted [silent] ({}, {})
  refine ⟨hrefusal, (hrefused save _ (.head _) _ hrefusal).1, hfailure, htotal.trans ?_,
    hsilent (by simp [silent, unseen, Setup.engine])⟩
  decide +kernel

/-- A path check fails because of rules that a client has stored, and no failure is counted. -/
theorem bad_rules_are_not_counted :
    let setup : Setup := { identityOf := fun user => .ok (.unknown user) }
    let s := (Chronicle.of [.write ⟨0, 0⟩ (.replaceHolders ⟨1⟩ .read {⟨7⟩}),
      .write ⟨0, 0⟩ (.saveOverlay ⟨7⟩ ⟨1⟩ ⟨[""]⟩)]).store
    let check : EngineCall MemoryStore :=
      ⟨setup.engine, ⟨1, 0⟩, .filterPaths ⟨7⟩ .read ⟨1⟩ ["/a"]⟩
    check.engine.metrics = true ∧
    check.failure (s, {}) = some (.invalidPattern "" "empty pattern") ∧
    failureTotal (EngineCall.after [check, check] (s, {})).2.measurements = 0 := by
  decide +kernel

end RepoAccess

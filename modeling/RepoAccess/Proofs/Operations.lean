/-
The engine's operations, without what they leave for the operator.

* `Action.effect` — the answer of an operation and the state after it;
* `Action.Says`, `Action.Tells` — the operation only adds to the journal, and
  `Action.effect_bind_of_tells` — such an operation at the end of another one changes nothing but
  the answer;
* `Action.Indifferent` — the operation does not look at the journal, and `Action.effect_bind` — such
  an operation goes on from the state that another one leaves;
* `Engine.effect_grantUnder`, `Engine.effect_revoke`, `Engine.effect_saveOverlay`,
  `Engine.effect_authorizedRepos`, `Engine.effect_overlays` — each operation is at most one
  transaction, and its answer is that of the transaction, as far as it is in time;
* `Engine.effect_filterPaths` — a path check is two of them.
-/
import RepoAccess.Engine.Operations

namespace RepoAccess

open Std

variable {σ α β : Type}

/-! ### Actions -/

namespace Action

/-- The answer of an operation from a state, and the state after it. -/
def effect (act : Action σ α) (s : σ) : Except Stop α × σ := ((act.start s).1, (act.start s).2.1)

/-- The operation ends so, and does nothing but add to the journal. -/
def Says (act : Action σ α) (result : Except Stop α) : Prop :=
  ∀ s journal, ∃ journal', ExceptT.run act (s, journal) = (result, s, journal')

/-- The operation gives that answer, and does nothing but add to the journal. -/
abbrev Tells (act : Action σ α) (a : α) : Prop := Says act (.ok a)

theorem tells_pure (a : α) : Tells (pure a : Action σ α) a := fun _ journal => ⟨journal, rfl⟩

theorem tells_note (notice : Notice) : Tells (note notice : Action σ Unit) () :=
  fun _ _ => ⟨_, rfl⟩

theorem tells_measure (m : Measurement) : Tells (measure m : Action σ Unit) () :=
  fun _ _ => ⟨_, rfl⟩

theorem run_bind (x : Action σ α) (f : α → Action σ β) (before : σ × Journal) :
    ExceptT.run (x >>= f) before =
      match ExceptT.run x before with
      | (.ok a, mid) => ExceptT.run (f a) mid
      | (.error stop, mid) => (.error stop, mid) := by
  rw [ExceptT.run_bind]
  simp only [Bind.bind, StateT.bind]
  obtain ⟨result, mid⟩ := ExceptT.run x before
  cases result <;> rfl

theorem Tells.bind {x : Action σ α} {f : α → Action σ β} {a : α} {b : β} (hx : Tells x a)
    (hf : Tells (f a) b) : Tells (x >>= f) b := by
  intro s journal
  obtain ⟨journal₁, hrun₁⟩ := hx s journal
  obtain ⟨journal₂, hrun₂⟩ := hf s journal₁
  refine ⟨journal₂, ?_⟩
  rw [run_bind, hrun₁]
  exact hrun₂

theorem effect_ofExcept_bind (result : Except AccessError α) (f : α → Action σ β) (s : σ) :
    (ofExcept result >>= f).effect s =
      match result with
      | .ok a => (f a).effect s
      | .error e => (.error (.failed e), s) := by
  cases result <;> rfl

/-- What is in the journal before makes no difference to the operation. -/
def Indifferent (act : Action σ α) : Prop :=
  ∀ s journal,
    ((ExceptT.run act (s, journal)).1, (ExceptT.run act (s, journal)).2.1) = act.effect s

theorem Says.effect {act : Action σ α} {result : Except Stop α} (h : Says act result) (s : σ) :
    act.effect s = (result, s) := by
  obtain ⟨journal', hrun⟩ := h s {}
  rw [Action.effect, start, hrun]

theorem Says.indifferent {act : Action σ α} {result : Except Stop α} (h : Says act result) :
    Indifferent act := by
  intro s journal
  obtain ⟨journal', hrun⟩ := h s journal
  rw [hrun, h.effect]

/-- One operation after another, if the second one does not look at what the first has noted. -/
theorem effect_bind {x : Action σ α} {f : α → Action σ β} (hf : ∀ a, Indifferent (f a)) (s : σ) :
    (x >>= f).effect s =
      match x.effect s with
      | (.ok a, s') => (f a).effect s'
      | (.error stop, s') => (.error stop, s') := by
  rw [effect, effect, start, start, run_bind]
  obtain ⟨result, s', journal⟩ := ExceptT.run x (s, {})
  cases result with
  | error stop => rfl
  | ok a => exact hf a s' journal

theorem Indifferent.bind {x : Action σ α} {f : α → Action σ β} (hx : Indifferent x)
    (hf : ∀ a, Indifferent (f a)) : Indifferent (x >>= f) := by
  intro s journal
  have hfirst := hx s journal
  rw [effect_bind hf, ← hfirst, run_bind]
  obtain ⟨result, s', journal'⟩ := ExceptT.run x (s, journal)
  cases result with
  | error stop => rfl
  | ok a => exact hf a s' journal'

/-- What only adds to the journal at the end has no say in what happens before. -/
theorem effect_bind_of_tells {x : Action σ α} {f : α → Action σ β} {g : α → β}
    (h : ∀ a, Tells (f a) (g a)) (s : σ) :
    (x >>= f).effect s = ((x.effect s).1.map g, (x.effect s).2) := by
  rw [effect_bind fun a => (h a).indifferent]
  obtain ⟨result, s'⟩ := x.effect s
  cases result with
  | error stop => rfl
  | ok a => exact (h a).effect s'

/-- The operation leaves the state as it is, whatever it answers. -/
def Reads (act : Action σ α) : Prop :=
  ∀ s journal, (ExceptT.run act (s, journal)).2.1 = s

theorem Says.reads {act : Action σ α} {result : Except Stop α} (h : Says act result) :
    Reads act := by
  intro s journal
  obtain ⟨journal', hrun⟩ := h s journal
  rw [hrun]

theorem Reads.bind {x : Action σ α} {f : α → Action σ β} (hx : Reads x) (hf : ∀ a, Reads (f a)) :
    Reads (x >>= f) := by
  intro s journal
  have hfirst := hx s journal
  rw [run_bind]
  generalize ExceptT.run x (s, journal) = ran at hfirst ⊢
  obtain ⟨result, s', journal'⟩ := ran
  obtain rfl : s' = s := hfirst
  cases result with
  | error stop => rfl
  | ok a => exact hf a s' journal'

end Action

/-! ### Operations -/

namespace Engine

variable {e : Engine σ} {now : Timestamp} {s : σ}

theorem tells_measure (m : Measurement) : Action.Tells (e.measure m) () := by
  rw [measure]
  split
  · exact Action.tells_measure m
  · exact Action.tells_pure ()

/-- What is measured depends on how the operation ended, and goes into the journal alone. -/
theorem run_observe (operation : String) (act : Action σ α) (s : σ) (journal : Journal) :
    ((ExceptT.run (e.observe operation act) (s, journal)).1,
        (ExceptT.run (e.observe operation act) (s, journal)).2.1) =
      (e.inTime operation (ExceptT.run act (s, journal)).1,
        (ExceptT.run act (s, journal)).2.1) := by
  unfold observe
  simp only [ExceptT.run_mk, bind, StateT.bind]
  generalize ExceptT.run act (s, journal) = ran
  obtain ⟨result, s', journal'⟩ := ran
  dsimp only
  cases hresult : e.inTime operation result with
  | ok a => cases e.metrics <;> rfl
  | error stop => cases stop <;> cases e.metrics <;> rfl

/-- Measuring an operation changes nothing but whether it is in time. -/
theorem effect_observe (operation : String) (act : Action σ α) :
    (e.observe operation act).effect s =
      (e.inTime operation (act.effect s).1, (act.effect s).2) :=
  run_observe operation act s {}

theorem indifferent_observe {operation : String} {act : Action σ α} (h : act.Indifferent) :
    (e.observe operation act).Indifferent := by
  intro s journal
  rw [run_observe, effect_observe, ← h s journal]

theorem reads_observe {operation : String} {act : Action σ α} (h : act.Reads) :
    (e.observe operation act).Reads := fun s journal =>
  (congrArg Prod.snd (run_observe operation act s journal)).trans (h s journal)

theorem effect_transact (body : Tx (Ending α)) :
    (e.transact now body).effect s = e.store.transact now body s := rfl

theorem effect_once (body : Tx α) : (e.once now body).effect s = e.store.once now body s := rfl

theorem indifferent_once (body : Tx α) : (e.once now body).Indifferent := fun _ _ => rfl

theorem inTime_ok (operation : String) (a : α) : e.inTime operation (.ok a) = .ok a := rfl

/-- The deadline turns no failure into an answer. -/
theorem inTime_error (e : Engine σ) (operation : String) (stop : Stop) :
    ∃ stop', e.inTime operation (.error stop : Except Stop α) = .error stop' := by
  cases stop with
  | failed error => exact ⟨.failed error, rfl⟩
  | waiting =>
    unfold inTime
    cases e.timeoutMs with
    | none => exact ⟨_, rfl⟩
    | some ms => exact ⟨_, rfl⟩

theorem effect_grantUnder (request : GrantRequest) (mode : BindingMode) :
    (e.grantUnder now request mode).effect s =
      match e.identityOf request.user with
      | .error error => (.error (.failed error), s)
      | .ok identity =>
        if (identity.candidates mode).isEmpty then (.ok { mode, candidates := 0 }, s)
        else
          let ran := e.store.transact now (claim now request mode (identity.candidates mode)) s
          (e.inTime "grant" ran.1, ran.2) := by
  rw [grantUnder, effect_observe, Action.effect_ofExcept_bind]
  cases e.identityOf request.user with
  | error error => rfl
  | ok identity =>
    dsimp only
    split
    · rfl
    · rw [Action.effect_bind_of_tells (g := id), effect_transact, Except.map_id]
      · rfl
      intro outcome
      split
      · exact (Action.tells_note _).bind ((tells_measure _).bind (Action.tells_pure _))
      · exact Action.tells_pure _

theorem effect_revoke (request : RevokeRequest) :
    (e.revoke now request).effect s =
      let ran := e.store.once now (forget now request) s
      (e.inTime "revoke" (ran.1.map fun _ => ()), ran.2) := by
  rw [revoke, effect_observe, Action.effect_bind_of_tells (g := fun _ => ()), effect_once]
  intro counts
  exact (Action.tells_note _).bind (tells_measure _)

theorem effect_saveOverlay (user : UserId) (repo : RepoId) (overlay : Overlay) :
    (e.saveOverlay now user repo overlay).effect s =
      match compileRules overlay.paths with
      | .error error => (.error (.failed error), s)
      | .ok _ =>
        let ran := e.store.once now (Tx.request (.saveOverlay user repo overlay)) s
        (e.inTime "upsert_sub_repo" ran.1, ran.2) := by
  rw [saveOverlay, Action.effect_ofExcept_bind]
  cases compileRules overlay.paths with
  | error error => rfl
  | ok _ =>
    dsimp only
    rw [effect_observe, effect_once]

/-- The repositories, of those given, that are in a user's row, if there is one. -/
def heldOf (repoOf : α → RepoId) (repos : List α) (row : Option UserHoldings) : List α :=
  repos.filter fun repo => ((row.map UserHoldings.repos).getD ∅).contains (repoOf repo)

theorem effect_authorizedRepos (request : AccessRequest) (repoOf : α → RepoId) (repos : List α) :
    (e.authorizedRepos now request repoOf repos).effect s =
      if repos.isEmpty then (.ok [], s)
      else
        let ran := e.store.once now (Tx.request (.loadUser request.user request.perm)) s
        (e.inTime "authorized_repos" (ran.1.map (heldOf repoOf repos)), ran.2) := by
  rw [authorizedRepos]
  split
  · rfl
  · rw [effect_observe, Action.effect_bind_of_tells (g := heldOf repoOf repos), effect_once]
    intro row
    cases row with
    | none =>
      have hnone : heldOf repoOf repos none = [] := by
        simp [heldOf]
      rw [hnone]
      exact (tells_measure _).bind (Action.tells_pure _)
    | some row => exact (tells_measure _).bind (Action.tells_pure _)

theorem effect_overlays (user : UserId) :
    (e.overlays now user).effect s =
      let ran := e.store.once now (Tx.request (.loadOverlays user)) s
      (e.inTime "get_sub_repo" ran.1, ran.2) :=
  effect_observe _ _

/-- The paths, of those given, that path rules leave; without rules, all of them. -/
def leftBy (overlay : Option Overlay) (paths : List String) : Except Stop (List String) :=
  match overlay with
  | none => .ok paths
  | some overlay =>
    match compileRules overlay.paths with
    | .ok rules => .ok (paths.filter (isAllowed rules))
    | .error error => .error (.failed error)

/-- What a path check does with the rules once it has them. -/
theorem says_leftBy (overlay : Option Overlay) (paths : List String) :
    Action.Says (σ := σ)
      (match overlay with
        | none => pure paths
        | some overlay => do
          let rules ← Action.ofExcept (compileRules overlay.paths)
          let allowed := paths.filter (isAllowed rules)
          if allowed.length < paths.length then
            e.measure (.pathsDenied (paths.length - allowed.length))
          return allowed)
      (leftBy overlay paths) := by
  cases overlay with
  | none => exact Action.tells_pure paths
  | some overlay =>
    unfold leftBy
    dsimp only
    cases compileRules overlay.paths with
    | error error => exact fun _ journal => ⟨journal, rfl⟩
    | ok rules =>
      refine Action.Tells.bind (Action.tells_pure rules) ?_
      split
      · exact (tells_measure _).bind (Action.tells_pure _)
      · exact Action.tells_pure _

/-- A path check asks for access, and if there is any, for the rules after that. -/
theorem effect_filterPaths (user : UserId) (perm : Permission) (repo : RepoId)
    (paths : List String) :
    (e.filterPaths now user perm repo paths).effect s =
      if paths.isEmpty then (.ok [], s)
      else
        match (e.authorizedRepos now { user, perm } id [repo]).effect s with
        | (.error stop, s') => (.error stop, s')
        | (.ok granted, s') =>
          if granted.isEmpty then (.ok [], s')
          else
            match (e.overlays now user).effect s' with
            | (.error stop, s'') => (.error stop, s'')
            | (.ok overlays, s'') => (leftBy overlays[repo]? paths, s'') := by
  rw [filterPaths]
  split
  · rfl
  · -- Neither the second question nor the judgement looks at the journal.
    have hjudge : ∀ overlays : ExtTreeMap RepoId Overlay,
        (_ : Action σ (List String)).Indifferent :=
      fun overlays => (says_leftBy (e := e) overlays[repo]? paths).indifferent
    have hrest : (e.overlays now user).Indifferent := indifferent_observe (indifferent_once _)
    rw [Action.effect_bind]
    · cases (e.authorizedRepos now { user, perm } id [repo]).effect s with | _ result s' =>
      cases result with
      | error stop => rfl
      | ok granted =>
        dsimp only
        split
        · rfl
        · refine (Action.effect_bind hjudge s').trans ?_
          cases (e.overlays now user).effect s' with | _ result s'' =>
          cases result with
          | error stop => rfl
          | ok overlays => exact (says_leftBy overlays[repo]? paths).effect s''
    · intro granted
      split
      · exact (Action.tells_pure _).indifferent
      · exact hrest.bind hjudge

theorem effect_canReadPath (user : UserId) (perm : Permission) (repo : RepoId) (path : String) :
    (e.canReadPath now user perm repo path).effect s =
      let ran := (e.filterPaths now user perm repo [path]).effect s
      (ran.1.map fun paths => !paths.isEmpty, ran.2) :=
  Action.effect_bind_of_tells (fun _ => Action.tells_pure _) s

/-! ### Questions -/

theorem reads_once {body : Tx α} (h : ∀ s, (e.store.once now body s).2 = s) :
    (e.once now body).Reads :=
  fun s _ => h s

section Questions

variable
  (hrows : ∀ user perm s, (e.store.once now (Tx.request (.loadUser user perm)) s).2 = s)
  (hrules : ∀ user s, (e.store.once now (Tx.request (.loadOverlays user)) s).2 = s)

include hrows in
/-- Where loading a row leaves the store as it is, so does asking for access. -/
theorem reads_authorizedRepos (request : AccessRequest) (repoOf : α → RepoId) (repos : List α) :
    (e.authorizedRepos now request repoOf repos).Reads := by
  rw [authorizedRepos]
  split
  · exact (Action.tells_pure _).reads
  · refine reads_observe ((reads_once (hrows _ _)).bind fun row => ?_)
    cases row with
    | none => exact (tells_measure _).reads.bind fun _ => (Action.tells_pure _).reads
    | some row => exact (tells_measure _).reads.bind fun _ => (Action.tells_pure _).reads

include hrules in
theorem reads_overlays (user : UserId) : (e.overlays now user).Reads :=
  reads_observe (reads_once (hrules user))

include hrows hrules in
theorem reads_filterPaths (user : UserId) (perm : Permission) (repo : RepoId)
    (paths : List String) : (e.filterPaths now user perm repo paths).Reads := by
  rw [filterPaths]
  split
  · exact (Action.tells_pure _).reads
  · refine (reads_authorizedRepos hrows _ _ _).bind fun granted => ?_
    split
    · exact (Action.tells_pure _).reads
    · exact (reads_overlays hrules _).bind fun overlays => (says_leftBy _ _).reads

include hrows hrules in
theorem reads_canReadPath (user : UserId) (perm : Permission) (repo : RepoId) (path : String) :
    (e.canReadPath now user perm repo path).Reads :=
  (reads_filterPaths hrows hrules _ _ _ _).bind fun _ => (Action.tells_pure _).reads

end Questions

end Engine

end RepoAccess

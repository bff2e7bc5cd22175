/-
What events do to the tables.

* `Deed.Effect` — what a deed does to the tables that everybody sees;
* `Chronicle.note_cases` — an event either leaves these tables and the deeds alone, or adds one deed
  and does to the tables what this deed does;
* `Chronicle.granted_note`, `Chronicle.wrote_mem_note` — which events do a deed of some kind;
* `Chronicle.deeds_induction` — what holds at the beginning and is kept by every deed holds after
  every list of events.

So whatever is said of the tables after a run is proved from what single deeds do.
-/
import RepoAccess.Proofs.Course.Event
import RepoAccess.Proofs.Operations

namespace RepoAccess

/-! ### Deeds -/

/-- What a write does to the tables. -/
def Write.Effect (now : Timestamp) (t t' : Tables) : Write → Prop
  | .replaceHolders repo perm users => Tables.HoldersReplaced now repo perm users t t'
  | .replaceInvited group repo perm => Tables.InvitedReplaced now group repo perm t t'
  | .replaceAccount user account repos => Tables.AccountReplaced now user account repos t t'
  | .clearAliases holders => Tables.Cleared now (fun holder _ => decide (holder ∈ holders)) t t'
  | .saveOverlay user repo overlay =>
    t' = { t with overlays := t.overlays.insert ⟨user, repo⟩ overlay }
  | .deleteOverlays user =>
    t' = { t with overlays := t.overlays.filter fun key _ => key.user != user }
  | .deleteUser user => Tables.UserDeleted user t t'

/-- What a deed does to the tables. -/
def Deed.Effect (now : Timestamp) (t t' : Tables) : Deed → Prop
  | .wrote w => w.Effect now t t'
  | .granted user perm candidates repos =>
    repos = t.claimable perm candidates ∧
      Tables.Claimed now user perm (t.claimants perm candidates) repos t t'
  | .revoked user holders => Tables.Forgotten now user holders t t'

theorem Write.effect_program {t : Tables} (ht : t.Keyed) (now : Timestamp) (w : Write) :
    w.Effect now t ((w.program now).exec now t).2 := by
  cases w with
  | replaceHolders repo perm users =>
    rw [program, Tx.exec_bind, Tx.exec_pure]
    exact Tx.holdersReplaced_replaceHolders ht users
  | replaceInvited group repo perm =>
    rw [program, Tx.exec_bind, Tx.exec_pure]
    exact Tx.invitedReplaced_replaceInvited ht now group repo perm
  | replaceAccount user account repos =>
    rw [program, Tx.exec_bind, Tx.exec_pure]
    exact Tx.accountReplaced_replaceAccount ht now repos
  | clearAliases holders =>
    rw [program, Tx.exec_bind, Tx.exec_pure]
    exact Tx.cleared_clearAliases ht now holders
  | saveOverlay user repo overlay => rfl
  | deleteOverlays user => rfl
  | deleteUser user => exact Tx.userDeleted_deleteUser now user

/-! ### Claims -/

/-- What a claim answers that matches nothing. -/
def unmatched (mode : BindingMode) (candidates : List Alias) : GrantOutcome :=
  { mode, candidates := candidates.length }

/-- What a claim answers that matches something. -/
def matchedOutcome (t : Tables) (asked : GrantRequest) (mode : BindingMode)
    (candidates : List Alias) : GrantOutcome :=
  { mode, candidates := candidates.length,
    matched := (t.claimants asked.perm candidates).length,
    granted := (t.claimable asked.perm candidates).size,
    added := (t.reposOf asked.user asked.perm ∪ t.claimable asked.perm candidates).size -
      (t.reposOf asked.user asked.perm).size }

/-- The transaction of a claim waits, or finds nothing, or cannot commit, or does what a claim
does. -/
theorem transact_claim_cases {s : MemoryStore} (hs : s.shared.Keyed) (now : Timestamp)
    (asked : GrantRequest) (mode : BindingMode) (candidates : List Alias) :
    (s.staged ≠ none ∧
      memoryStore.transact now (claim now asked mode candidates) s = (.error .waiting, s)) ∨
    (s.staged = none ∧ s.shared.claimants asked.perm candidates = [] ∧
      memoryStore.transact now (claim now asked mode candidates) s =
        (.ok (unmatched mode candidates), s)) ∨
    (s.staged = none ∧ s.shared.claimants asked.perm candidates ≠ [] ∧ s.refusesCommits = true ∧
      memoryStore.transact now (claim now asked mode candidates) s =
        (.error (.failed MemoryStore.refusal), s)) ∨
    (s.staged = none ∧ s.shared.claimants asked.perm candidates ≠ [] ∧ s.refusesCommits = false ∧
      ∃ t', t' = ((claim now asked mode candidates).exec now s.shared).2 ∧
        Tables.Claimed now asked.user asked.perm (s.shared.claimants asked.perm candidates)
          (s.shared.claimable asked.perm candidates) s.shared t' ∧
        memoryStore.transact now (claim now asked mode candidates) s =
          (.ok (matchedOutcome s.shared asked mode candidates), { s with shared := t' })) := by
  cases hstaged : s.staged with
  | some t => exact .inl ⟨nofun, MemoryStore.transact_of_staged hstaged _⟩
  | none =>
    right
    by_cases hnothing : s.shared.claimants asked.perm candidates = []
    · left
      rw [MemoryStore.transact_eq hstaged, Tx.exec_claim_of_nothing now mode hnothing]
      exact ⟨rfl, hnothing, rfl⟩
    · right
      obtain ⟨t', hclaim, hclaimed⟩ := Tx.exec_claim hs now mode hnothing
      rw [MemoryStore.transact_eq hstaged, hclaim]
      cases hrefuses : s.refusesCommits with
      | true => exact .inl ⟨rfl, hnothing, rfl, rfl⟩
      | false =>
        exact .inr ⟨rfl, hnothing, rfl, t', rfl, hclaimed, by simp [hstaged, matchedOutcome]⟩

/-- A grant stops, or finds nothing, or does what a claim does, and each has its conditions. -/
theorem effect_grant_cases {s : MemoryStore} (hs : s.shared.Keyed) (now : Timestamp)
    (setup : Setup) (asked : GrantRequest) (mode : BindingMode) {identity : Identity}
    (hid : setup.identityOf asked.user = .ok identity) :
    let candidates := identity.candidates mode
    (candidates ≠ [] ∧ (s.staged = none →
        s.shared.claimants asked.perm candidates ≠ [] ∧ s.refusesCommits = true) ∧
      ∃ stop, (setup.engine.grantUnder now asked mode).effect s = (.error stop, s)) ∨
    ((candidates = [] ∨ s.staged = none) ∧ s.shared.claimants asked.perm candidates = [] ∧
      (setup.engine.grantUnder now asked mode).effect s = (.ok (unmatched mode candidates), s)) ∨
    (s.staged = none ∧ s.shared.claimants asked.perm candidates ≠ [] ∧ s.refusesCommits = false ∧
      ∃ t', t' = ((claim now asked mode candidates).exec now s.shared).2 ∧
        Tables.Claimed now asked.user asked.perm (s.shared.claimants asked.perm candidates)
          (s.shared.claimable asked.perm candidates) s.shared t' ∧
        (setup.engine.grantUnder now asked mode).effect s =
          (.ok (matchedOutcome s.shared asked mode candidates), { s with shared := t' })) := by
  intro candidates
  -- Without candidates the store is not asked.
  have hidentity : setup.engine.identityOf asked.user = .ok identity := hid
  have hgrant : (setup.engine.grantUnder now asked mode).effect s =
      if candidates.isEmpty then (.ok { mode, candidates := 0 }, s)
      else
        let ran := memoryStore.transact now (claim now asked mode candidates) s
        (setup.engine.inTime "grant" ran.1, ran.2) := by
    rw [Engine.effect_grantUnder, hidentity]
    rfl
  rw [hgrant]
  clear_value candidates
  by_cases hnone : candidates = []
  · subst hnone
    exact .inr (.inl ⟨.inl rfl, rfl, rfl⟩)
  · rw [if_neg (by rwa [List.isEmpty_iff])]
    rcases transact_claim_cases hs now asked mode candidates with
      ⟨hstaged, hran⟩ | ⟨hstaged, hnothing, hran⟩ | ⟨hstaged, hsome, hrefuses, hran⟩ |
      ⟨hstaged, hsome, hrefuses, t', hexec, hclaimed, hran⟩
    · obtain ⟨stop, hstop⟩ :=
        setup.engine.inTime_error (α := GrantOutcome) "grant" .waiting
      refine .inl ⟨hnone, fun hfree => absurd hfree hstaged, stop, ?_⟩
      simp only [hran, hstop]
    · refine .inr (.inl ⟨.inr hstaged, hnothing, ?_⟩)
      simp only [hran, Engine.inTime_ok]
    · obtain ⟨stop, hstop⟩ :=
        setup.engine.inTime_error (α := GrantOutcome) "grant" (.failed MemoryStore.refusal)
      refine .inl ⟨hnone, fun _ => ⟨hsome, hrefuses⟩, stop, ?_⟩
      simp only [hran, hstop]
    · refine .inr (.inr ⟨hstaged, hsome, hrefuses, t', hexec, hclaimed, ?_⟩)
      simp only [hran, Engine.inTime_ok]

/-! ### Questions -/

/-- Loading one row leaves the store as it is. -/
theorem once_request {p : Primitive} (hp : ∀ now t, (Tables.perform now p t).2 = t)
    (now : Timestamp) (s : MemoryStore) : (memoryStore.once now (Tx.request p) s).2 = s := by
  rcases MemoryStore.once_cases now s (Tx.request p) with ⟨stop, hran⟩ | hran
  · rw [hran]
  · rw [hran]
    show { s with shared := (Tables.perform now p s.shared).2 } = s
    rw [hp]

/-- What a client is told who asks for a row. -/
theorem answers_request (now : Timestamp) (s : MemoryStore) (p : Primitive) :
    s.Answers (memoryStore.once now (Tx.request p) s).1 (Tables.perform now p s.shared).1 :=
  s.answers_once now (Tx.request p)

/-- A question leaves the store as it is. -/
theorem Question.ask_eq (now : Timestamp) (s : MemoryStore) (q : Question) : q.ask now s = s := by
  have hrow : ∀ (setup : Setup) user perm s,
      (setup.engine.store.once now (Tx.request (.loadUser user perm)) s).2 = s :=
    fun _ _ _ s => once_request (fun _ _ => rfl) now s
  have hrules : ∀ (setup : Setup) user s,
      (setup.engine.store.once now (Tx.request (.loadOverlays user)) s).2 = s :=
    fun _ _ s => once_request (fun _ _ => rfl) now s
  cases q with
  | authorizedRepos setup request repos =>
    exact Engine.reads_authorizedRepos (hrow setup) request id repos s {}
  | pathRules setup user => exact Engine.reads_overlays (hrules setup) user s {}
  | filterPaths setup user perm repo paths =>
    exact Engine.reads_filterPaths (hrow setup) (hrules setup) user perm repo paths s {}
  | canReadPath setup user perm repo path =>
    exact Engine.reads_canReadPath (hrow setup) (hrules setup) user perm repo path s {}
  | _ => exact once_request (fun _ _ => rfl) now s

/-! ### Events -/

namespace Chronicle

theorem close_ok {α : Type} (c : Chronicle) (answer : α) (s : MemoryStore)
    (deed : α → Option Deed) : c.close (.ok answer) s deed = ⟨s, (deed answer).toList ++ c.deeds⟩ :=
  rfl

/-- Nothing is committed by the event. -/
def Idle (c c' : Chronicle) : Prop := c'.deeds = c.deeds ∧ c'.store.shared = c.store.shared

/-- One deed is committed by the event, as the last thing that some program does. -/
def Does (c c' : Chronicle) : Prop :=
  ∃ now d, c'.deeds = d :: c.deeds ∧ d.Effect now c.store.shared c'.store.shared ∧
    ∃ (α : Type) (x : Tx α), c'.store.shared = (x.exec now c.store.shared).2

theorem idle_close_error {α : Type} (c : Chronicle) (stop : Stop) (deed : α → Option Deed) :
    c.Idle (c.close (.error stop) c.store deed) := ⟨rfl, rfl⟩

theorem idle_close_inTime {α : Type} (c : Chronicle) (e : Engine MemoryStore) (operation : String)
    (stop : Stop) (deed : α → Option Deed) :
    c.Idle (c.close (e.inTime operation (.error stop)) c.store deed) := by
  obtain ⟨stop', hstop⟩ := e.inTime_error (α := α) operation stop
  rw [hstop]
  exact c.idle_close_error stop' deed

variable (c : Chronicle) (now : Timestamp) (setup : Setup)

theorem note_write (hc : c.store.shared.Keyed) (w : Write) :
    c.Idle (c.note (.write now w)) ∨ c.Does (c.note (.write now w)) := by
  rw [note]
  rcases MemoryStore.once_cases now c.store (w.program now) with ⟨stop, hran⟩ | hran
  · rw [hran]
    exact .inl (c.idle_close_error stop _)
  · rw [hran]
    exact .inr ⟨now, .wrote w, rfl, w.effect_program hc now, Unit, w.program now, rfl⟩

theorem note_grant (hc : c.store.shared.Keyed) (request : GrantRequest) (mode : BindingMode) :
    c.Idle (c.note (.grant now setup request mode)) ∨
      c.Does (c.note (.grant now setup request mode)) := by
  have hnote : c.note (.grant now setup request mode) =
      c.close ((setup.engine.grantUnder now request mode).effect c.store).1
        ((setup.engine.grantUnder now request mode).effect c.store).2 fun outcome =>
          if outcome.matched = 0 then none
          else some (.granted request.user request.perm (setup.candidates request.user mode)
            (c.store.shared.claimable request.perm (setup.candidates request.user mode))) := rfl
  rw [hnote, Setup.candidates]
  cases hid : setup.identityOf request.user with
  | error error =>
    have hidentity : setup.engine.identityOf request.user = .error error := hid
    rw [Engine.effect_grantUnder, hidentity]
    exact .inl (c.idle_close_error _ _)
  | ok identity =>
    rcases effect_grant_cases hc now setup request mode hid with
      ⟨-, -, stop, hgrant⟩ | ⟨-, -, hgrant⟩ | ⟨-, hsome, -, t', hexec, hclaimed, hgrant⟩
    · rw [hgrant]
      exact .inl (c.idle_close_error _ _)
    · rw [hgrant]
      exact .inl ⟨rfl, rfl⟩
    · have hmatched : (matchedOutcome c.store.shared request mode
          (identity.candidates mode)).matched ≠ 0 := by
        rwa [matchedOutcome, ne_eq, List.length_eq_zero_iff]
      rw [hgrant, close_ok, if_neg hmatched]
      exact .inr ⟨now, _, rfl, ⟨rfl, hclaimed⟩, _, claim now request mode _, hexec⟩

theorem note_revoke (hc : c.store.shared.Keyed) (request : RevokeRequest) :
    c.Idle (c.note (.revoke now setup request)) ∨ c.Does (c.note (.revoke now setup request)) := by
  have hnote : c.note (.revoke now setup request) =
      c.close ((setup.engine.revoke now request).effect c.store).1
        ((setup.engine.revoke now request).effect c.store).2 fun _ =>
          some (.revoked request.user request.aliases) := rfl
  rw [hnote, Engine.effect_revoke]
  rcases MemoryStore.once_cases now c.store (forget now request) with
    ⟨stop, hran⟩ | hran
  · have hstore : setup.engine.store.once now (forget now request) c.store = _ := hran
    simp only [hstore, Except.map]
    exact .inl (c.idle_close_inTime setup.engine "revoke" stop _)
  · have hstore : setup.engine.store.once now (forget now request) c.store = _ := hran
    simp only [hstore, Except.map, Engine.inTime_ok]
    exact .inr ⟨now, .revoked request.user request.aliases, rfl,
      Tx.forgotten_forget hc now request, RevokeCounts, forget now request, rfl⟩

theorem note_saveOverlay (user : UserId) (repo : RepoId) (overlay : Overlay) :
    c.Idle (c.note (.saveOverlay now setup user repo overlay)) ∨
      c.Does (c.note (.saveOverlay now setup user repo overlay)) := by
  have hnote : c.note (.saveOverlay now setup user repo overlay) =
      c.close ((setup.engine.saveOverlay now user repo overlay).effect c.store).1
        ((setup.engine.saveOverlay now user repo overlay).effect c.store).2 fun _ =>
          some (.wrote (.saveOverlay user repo overlay)) := rfl
  rw [hnote, Engine.effect_saveOverlay]
  cases compileRules overlay.paths with
  | error error => exact .inl (c.idle_close_error _ _)
  | ok rules =>
    rcases MemoryStore.once_cases now c.store
      (Tx.request (.saveOverlay user repo overlay)) with ⟨stop, hran⟩ | hran
    · have hstore : setup.engine.store.once now
          (Tx.request (.saveOverlay user repo overlay)) c.store = _ := hran
      simp only [hstore]
      exact .inl (c.idle_close_inTime setup.engine "upsert_sub_repo" stop _)
    · have hstore : setup.engine.store.once now
          (Tx.request (.saveOverlay user repo overlay)) c.store = _ := hran
      simp only [hstore, Engine.inTime_ok]
      exact .inr ⟨now, .wrote (.saveOverlay user repo overlay), rfl, rfl, Unit,
        Tx.request (.saveOverlay user repo overlay), rfl⟩

theorem note_cases (hc : c.store.shared.Keyed) (event : Event) :
    c.Idle (c.note event) ∨ c.Does (c.note event) := by
  cases event with
  | write now w => exact c.note_write now hc w
  | ask now q =>
    left
    rw [note, Question.ask_eq]
    exact ⟨rfl, rfl⟩
  | grant now setup request mode => exact c.note_grant now setup hc request mode
  | revoke now setup request => exact c.note_revoke now setup hc request
  | saveOverlay now setup user repo overlay => exact c.note_saveOverlay now setup user repo overlay
  | refuseCommits refuses => exact .inl ⟨rfl, rfl⟩
  | hold =>
    left
    rw [note, MemoryStore.start]
    cases c.store.staged <;> exact ⟨rfl, rfl⟩
  | release => exact .inl ⟨rfl, rfl⟩

theorem mem_deeds_close {α : Type} {result : Except Stop α} {s : MemoryStore}
    {deed : α → Option Deed} {d : Deed} (h : d ∈ (c.close result s deed).deeds) :
    d ∈ c.deeds ∨ ∃ answer, deed answer = some d := by
  cases result with
  | error stop => exact .inl h
  | ok answer =>
    rcases List.mem_append.1 h with hnew | hold
    · exact .inr ⟨answer, Option.mem_toList.1 hnew⟩
    · exact .inl hold

theorem exists_of_deeds_close {α : Type} {result : Except Stop α} {s : MemoryStore}
    {deed : α → Option Deed} {d : Deed} (h : (c.close result s deed).deeds = d :: c.deeds) :
    ∃ answer, deed answer = some d := by
  cases result with
  | error stop => exact absurd h.symm (List.cons_ne_self d c.deeds)
  | ok answer =>
    cases hdeed : deed answer with
    | none =>
      rw [close_ok, hdeed] at h
      exact absurd h.symm (List.cons_ne_self d c.deeds)
    | some d' =>
      rw [close_ok, hdeed] at h
      exact ⟨answer, hdeed.trans (congrArg some (List.cons.inj h).1)⟩

/-- A claim is a deed only if an engine has been asked for it. It takes what is promised then to the
aliases that the engine finds. -/
theorem granted_note {event : Event} {user : UserId} {perm : Permission} {candidates : List Alias}
    {repos : RepoSet} (h : (c.note event).deeds = .granted user perm candidates repos :: c.deeds) :
    ∃ now setup request mode, event = .grant now setup request mode ∧ request.user = user ∧
      request.perm = perm ∧ setup.candidates user mode = candidates ∧
        c.store.shared.claimable perm candidates = repos := by
  cases event with
  | grant now setup request mode =>
    obtain ⟨answer, hdeed⟩ := c.exists_of_deeds_close h
    split at hdeed
    · cases hdeed
    · cases hdeed
      exact ⟨now, setup, request, mode, rfl, rfl, rfl, rfl, rfl⟩
  | write now w =>
    obtain ⟨answer, hdeed⟩ := c.exists_of_deeds_close h
    cases hdeed
  | revoke now setup request =>
    obtain ⟨answer, hdeed⟩ := c.exists_of_deeds_close h
    cases hdeed
  | saveOverlay now setup user repo overlay =>
    obtain ⟨answer, hdeed⟩ := c.exists_of_deeds_close h
    cases hdeed
  | ask now q => exact absurd h.symm (List.cons_ne_self _ c.deeds)
  | refuseCommits refuses => exact absurd h.symm (List.cons_ne_self _ c.deeds)
  | hold => exact absurd h.symm (List.cons_ne_self _ c.deeds)
  | release => exact absurd h.symm (List.cons_ne_self _ c.deeds)

/-- A claim leaves the promises to other aliases alone. -/
theorem pendingRow_note_grant (hc : c.store.shared.Keyed) (request : GrantRequest)
    (mode : BindingMode) {holder : Alias}
    (hholder : holder ∉ setup.candidates request.user mode) (perm : Permission) :
    (c.note (.grant now setup request mode)).store.shared.pendingRow holder perm =
      c.store.shared.pendingRow holder perm := by
  rcases c.note_grant now setup hc request mode with ⟨-, hshared⟩ | ⟨now', d, hdeeds, hd, -⟩
  · rw [hshared]
  · obtain ⟨answer, hdeed⟩ := c.exists_of_deeds_close hdeeds
    split at hdeed
    · cases hdeed
    · cases hdeed
      rw [hd.2.pendingRow, if_neg fun hboth => hholder (Tables.mem_claimants.1 hboth.1).1]

/-- A write is a deed only if a client has called for it, or an engine for an overlay. -/
theorem wrote_mem_note {event : Event} {w : Write} (h : .wrote w ∈ (c.note event).deeds) :
    .wrote w ∈ c.deeds ∨ (∃ now, event = .write now w) ∨
      ∃ user repo overlay, w = .saveOverlay user repo overlay := by
  cases event with
  | write now w' =>
    rcases c.mem_deeds_close h with hold | ⟨answer, hdeed⟩
    · exact .inl hold
    · cases hdeed
      exact .inr (.inl ⟨now, rfl⟩)
  | grant now setup request mode =>
    rcases c.mem_deeds_close h with hold | ⟨answer, hdeed⟩
    · exact .inl hold
    · split at hdeed <;> cases hdeed
  | revoke now setup request =>
    rcases c.mem_deeds_close h with hold | ⟨answer, hdeed⟩
    · exact .inl hold
    · cases hdeed
  | saveOverlay now setup user repo overlay =>
    rcases c.mem_deeds_close h with hold | ⟨answer, hdeed⟩
    · exact .inl hold
    · cases hdeed
      exact .inr (.inr ⟨user, repo, overlay, rfl⟩)
  | ask now q => exact .inl h
  | refuseCommits refuses => exact .inl h
  | hold => exact .inl h
  | release => exact .inl h

/-- No deletion of a user's rows is committed unless a client calls for it. -/
theorem deleteUser_not_mem {events : List Event}
    (h : ∀ now user, Event.write now (.deleteUser user) ∉ events) (user : UserId) :
    Deed.wrote (.deleteUser user) ∉ (of events).deeds := by
  suffices hrun : ∀ (events : List Event) (c : Chronicle),
      (∀ now user, Event.write now (.deleteUser user) ∉ events) →
        Deed.wrote (.deleteUser user) ∉ c.deeds →
          Deed.wrote (.deleteUser user) ∉ (events.foldl note c).deeds from
    hrun events {} h (List.not_mem_nil)
  intro events
  induction events with
  | nil => exact fun _ _ hc => hc
  | cons event events ih =>
    intro c hnone hc
    rw [List.foldl_cons]
    refine ih (c.note event) (fun now user hmem => hnone now user (List.mem_cons_of_mem _ hmem)) ?_
    intro hmem
    rcases c.wrote_mem_note hmem with hold | ⟨now, rfl⟩ | ⟨user', repo, overlay, hoverlay⟩
    · exact hc hold
    · exact hnone now user List.mem_cons_self
    · cases hoverlay

/-- What holds at the beginning, and is kept by every deed, holds after every list of events. Every
row stays under its own key meanwhile, and no stored set of reasons becomes empty. -/
theorem deeds_induction {P : List Deed → Tables → Prop} (start : P [] {})
    (step : ∀ now d deeds t t', t.Keyed → t.Solid → d.Effect now t t' → P deeds t →
      P (d :: deeds) t') (events : List Event) :
    (of events).store.shared.Keyed ∧ (of events).store.shared.Solid ∧
      P (of events).deeds (of events).store.shared := by
  suffices h : ∀ (events : List Event) (c : Chronicle), c.store.shared.Keyed →
      c.store.shared.Solid → P c.deeds c.store.shared →
        (events.foldl note c).store.shared.Keyed ∧ (events.foldl note c).store.shared.Solid ∧
          P (events.foldl note c).deeds (events.foldl note c).store.shared from
    h events {} Tables.keyed_empty Tables.solid_empty start
  intro events
  induction events with
  | nil => exact fun _ hkeyed hsolid hc => ⟨hkeyed, hsolid, hc⟩
  | cons event events ih =>
    intro c hkeyed hsolid hc
    rw [List.foldl_cons]
    rcases c.note_cases hkeyed event with ⟨hdeeds, hshared⟩ | ⟨now, d, hdeeds, hd, α, x, hx⟩
    · refine ih (c.note event) ?_ ?_ ?_
      · rwa [hshared]
      · rwa [hshared]
      · rwa [hdeeds, hshared]
    · -- The tables after the deed are those that a program leaves behind, so rows keep their keys.
      refine ih (c.note event) ?_ ?_ ?_
      · rw [hx]
        exact hkeyed.exec now x
      · rw [hx]
        exact hsolid.exec now x
      · rw [hdeeds]
        exact step now d c.deeds _ _ hkeyed hsolid hd hc

theorem keyed_of (events : List Event) : (of events).store.shared.Keyed :=
  (deeds_induction (P := fun _ _ => True) trivial (fun _ _ _ _ _ _ _ _ _ => trivial) events).1

theorem solid_of (events : List Event) : (of events).store.shared.Solid :=
  (deeds_induction (P := fun _ _ => True) trivial (fun _ _ _ _ _ _ _ _ _ => trivial) events).2.1

end Chronicle

end RepoAccess

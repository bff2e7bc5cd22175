/-
Path rules that engines have stored can always be read.

* `Tables.WellRuled` — every stored list of path rules is well-formed;
* `saveOverlay_of_malformed`, `saveOverlay_of_free`, `saveOverlay_of_not_free` — how the storing of
  path rules ends;
* `Chronicle.saved_note` — path rules are written by a client, or by an engine that has read them;
* `Chronicle.wellRuled_foldl` — as long as no client writes them past the engines, the stored ones
  stay well-formed;
* `not_blames_filterPaths` — then a path check never fails because of a pattern;
* `stored_rules_always_compile` — all of this for every run.

An engine reads the rules twice, before it stores them and again when a path is checked. What is
stored is the text, so the second reading ends as the first one did.
-/
import RepoAccess.Proofs.PathDecisions

namespace RepoAccess

open Std

/-! ### Failures that blame a pattern -/

/-- The failure is that of a malformed pattern. -/
def Stop.BlamesPattern (stop : Stop) : Prop :=
  ∃ text reason, stop = .failed (.invalidPattern text reason)

theorem eq_error_of_map {α β : Type} {f : α → β} {result : Except Stop α} {stop : Stop}
    (h : result.map f = .error stop) : result = .error stop := by
  cases result with
  | error first =>
    cases h
    rfl
  | ok a => cases h

/-- The store in memory does not look at patterns. -/
theorem not_blames_once {α : Type} {s : MemoryStore} {now : Timestamp} {body : Tx α} {stop : Stop}
    (h : (memoryStore.once now body s).1 = .error stop) : ¬ stop.BlamesPattern := by
  rintro ⟨text, reason, rfl⟩
  cases hstaged : s.staged with
  | some t =>
    rw [MemoryStore.once_of_staged hstaged] at h
    cases h
  | none =>
    rw [MemoryStore.once_eq hstaged] at h
    split at h
    · cases h
    · cases h

/-- Neither does the deadline. -/
theorem Engine.not_blames_inTime {σ α : Type} {e : Engine σ} {operation : String}
    {result : Except Stop α} (h : ∀ stop, result = .error stop → ¬ stop.BlamesPattern)
    {stop : Stop} (hstop : e.inTime operation result = .error stop) : ¬ stop.BlamesPattern := by
  unfold inTime at hstop
  split at hstop
  · rintro ⟨text, reason, rfl⟩
    cases hstop
  · exact h stop hstop

/-! ### Well-formed path rules -/

/-- Every row stands under its own key, and every stored list of path rules is well-formed. -/
structure Tables.WellRuled (t : Tables) : Prop where
  keyed : t.Keyed
  rules : ∀ user repo overlay, t.overlayOf user repo = some overlay →
    ∃ rules, compileRules overlay.paths = .ok rules

namespace Tables

variable {t t' : Tables} {now : Timestamp} {user user' : UserId} {repo repo' : RepoId}
  {overlay : Overlay}

theorem wellRuled_empty : WellRuled {} := by
  refine ⟨keyed_empty, fun user repo overlay h => ?_⟩
  simp [overlayOf] at h

theorem overlayOf_insert :
    ({ t with overlays := t.overlays.insert ⟨user, repo⟩ overlay } : Tables).overlayOf user' repo' =
      if user' = user ∧ repo' = repo then some overlay else t.overlayOf user' repo' := by
  simp only [overlayOf, ExtTreeMap.getElem?_insert, LawfulEqOrd.compare_eq_iff_eq,
    OverlayKey.mk.injEq, @eq_comm _ user, @eq_comm _ repo]

/-- What is left after a deletion was there before. -/
theorem overlayOf_filter {keep : OverlayKey → Bool}
    (hoverlays : t'.overlays = t.overlays.filter fun key _ => keep key)
    (h : t'.overlayOf user repo = some overlay) : t.overlayOf user repo = some overlay := by
  rw [overlayOf, hoverlays, getElem?_filter_key] at h
  split at h
  · exact h
  · cases h

end Tables

/-- No deed but the storing of path rules puts any there. -/
theorem Deed.overlayOf_of_effect {now : Timestamp} {t t' : Tables} {d : Deed}
    (hd : d.Effect now t t')
    (hother : ∀ user repo overlay, d ≠ .wrote (.saveOverlay user repo overlay)) {user : UserId}
    {repo : RepoId} {overlay : Overlay} (h : t'.overlayOf user repo = some overlay) :
    t.overlayOf user repo = some overlay := by
  have hsame : t'.overlays = t.overlays → t.overlayOf user repo = some overlay := by
    intro hoverlays
    rwa [Tables.overlayOf, ← hoverlays]
  cases d with
  | wrote w =>
    cases w with
    | replaceHolders repo' perm users => exact hsame hd.promises.2.2
    | replaceInvited group repo' perm => exact hsame hd.access.2.2.2
    | replaceAccount user' account repos => exact hsame hd.promises.2.2
    | clearAliases holders => exact hsame hd.access.2.2.2
    | saveOverlay user' repo' overlay' => exact absurd rfl (hother user' repo' overlay')
    | deleteOverlays user' =>
      obtain rfl : t' = _ := hd
      exact Tables.overlayOf_filter rfl h
    | deleteUser user' => exact hsame hd.promises.2.2
  | granted user' perm candidates repos => exact hsame hd.2.overlays
  | revoked user' holders => exact Tables.overlayOf_filter hd.overlays h

/-! ### The storing of path rules -/

section Saving

variable {s : MemoryStore} {overlay : Overlay} {rules : List PathRule} (setup : Setup)
  (now : Timestamp) (user : UserId) (repo : RepoId)

/-- Malformed path rules never reach the store. -/
theorem saveOverlay_of_malformed {error : AccessError}
    (h : compileRules overlay.paths = .error error) :
    (setup.engine.saveOverlay now user repo overlay).effect s = (.error (.failed error), s) := by
  rw [Engine.effect_saveOverlay, h]

theorem saveOverlay_of_free (h : compileRules overlay.paths = .ok rules) (hfree : s.Free) :
    (setup.engine.saveOverlay now user repo overlay).effect s =
      (.ok (), { s with shared :=
        { s.shared with overlays := s.shared.overlays.insert ⟨user, repo⟩ overlay } }) := by
  have hran : setup.engine.store.once now (Tx.request (.saveOverlay user repo overlay)) s = _ :=
    MemoryStore.once_of_free hfree now _
  rw [Engine.effect_saveOverlay, h]
  simp only [hran, Engine.inTime_ok]
  rfl

theorem saveOverlay_of_not_free (h : compileRules overlay.paths = .ok rules) (hfree : ¬ s.Free) :
    ∃ stop, ¬ stop.BlamesPattern ∧
      (setup.engine.saveOverlay now user repo overlay).effect s = (.error stop, s) := by
  obtain ⟨stop, hran⟩ := MemoryStore.once_of_not_free hfree now
    (Tx.request (.saveOverlay user repo overlay))
  have hstore : setup.engine.store.once now (Tx.request (.saveOverlay user repo overlay)) s =
      (.error stop, s) := hran
  obtain ⟨stop', hstop⟩ := setup.engine.inTime_error (α := Unit) "upsert_sub_repo" stop
  refine ⟨stop', ?_, ?_⟩
  · refine Engine.not_blames_inTime (fun first hfirst => ?_) hstop
    exact not_blames_once ((congrArg Prod.fst hran).trans hfirst)
  · rw [Engine.effect_saveOverlay, h]
    simp only [hstore, hstop]

/-- How the storing of path rules ends that starts from one store and leaves another one. -/
structure MemoryStore.SavesOverlay (s : MemoryStore) (user : UserId) (repo : RepoId)
    (overlay : Overlay) (result : Except Stop Unit) (left : MemoryStore) : Prop where
  /-- A failure that blames a pattern names the first malformed rule. -/
  blames : ∀ text reason, result = .error (.failed (.invalidPattern text reason)) ↔
    FirstMalformed overlay.paths text reason
  /-- There is such a failure exactly if some rule is malformed. -/
  malformed : (∃ text reason, result = .error (.failed (.invalidPattern text reason))) ↔
    ∃ text ∈ overlay.paths, Malformed text
  succeeds : result = .ok () ↔ s.Free ∧ ∀ text ∈ overlay.paths, ¬ Malformed text
  replaced : result = .ok () → left.shared.overlayOf user repo = some overlay ∧
    ∀ user' repo', ¬ (user' = user ∧ repo' = repo) →
      left.shared.overlayOf user' repo' = s.shared.overlayOf user' repo'
  kept : result ≠ .ok () → left = s

theorem savesOverlay_saveOverlay (s : MemoryStore) (overlay : Overlay) :
    let saved := (setup.engine.saveOverlay now user repo overlay).effect s
    s.SavesOverlay user repo overlay saved.1 saved.2 := by
  intro saved
  -- Whether it is the first reading that fails is all that is to be found out.
  suffices h : (∀ text reason, saved.1 = .error (.failed (.invalidPattern text reason)) ↔
        compileRules overlay.paths = .error (.invalidPattern text reason)) ∧
      (saved.1 = .ok () ↔ s.Free ∧ ∃ rules, compileRules overlay.paths = .ok rules) ∧
      (saved.1 = .ok () → saved.2.shared =
        { s.shared with overlays := s.shared.overlays.insert ⟨user, repo⟩ overlay }) ∧
      (saved.1 ≠ .ok () → saved.2 = s) by
    obtain ⟨hblames, hok, hleft, hkept⟩ := h
    refine ⟨fun text reason => (hblames text reason).trans compileRules_eq_error_iff, ?_,
      hok.trans (and_congr_right fun _ => exists_compileRules_iff), fun hsaved => ?_, hkept⟩
    · simp only [hblames, compileRules_eq_error_iff, exists_firstMalformed_iff]
    · rw [hleft hsaved]
      refine ⟨?_, fun user' repo' hother => ?_⟩
      · rw [Tables.overlayOf_insert, if_pos ⟨rfl, rfl⟩]
      · rw [Tables.overlayOf_insert, if_neg hother]
  obtain ⟨rules, hrules⟩ | ⟨text, reason, hbad⟩ := compileRules_cases overlay.paths
  · by_cases hfree : s.Free
    · have hsaved : saved = _ := saveOverlay_of_free setup now user repo hrules hfree
      rw [hsaved, hrules]
      exact ⟨fun text reason => ⟨nofun, nofun⟩, ⟨fun _ => ⟨hfree, rules, rfl⟩, fun _ => rfl⟩,
        fun _ => rfl, fun hne => absurd rfl hne⟩
    · obtain ⟨stop, hblameless, hran⟩ := saveOverlay_of_not_free setup now user repo hrules hfree
      have hsaved : saved = (.error stop, s) := hran
      rw [hsaved, hrules]
      refine ⟨fun text reason => ⟨fun heq => ?_, nofun⟩,
        ⟨nofun, fun hboth => absurd hboth.1 hfree⟩, nofun, fun _ => rfl⟩
      exact absurd ⟨text, reason, Except.error.inj heq⟩ hblameless
  · have hsaved : saved = (.error (.failed (.invalidPattern text reason)), s) :=
      saveOverlay_of_malformed setup now user repo hbad
    rw [hsaved, hbad]
    refine ⟨fun text' reason' => ?_, ⟨nofun, ?_⟩, nofun, fun _ => rfl⟩
    · simp
    · rintro ⟨-, rules, hrules⟩
      cases hrules

end Saving

/-! ### Runs -/

/-- No client writes path rules past the engines. -/
def RulesByEngines (events : List Event) : Prop :=
  ∀ now user repo overlay, Event.write now (.saveOverlay user repo overlay) ∉ events

namespace Chronicle

/-- Path rules are written by a client, or by an engine that has read them. -/
theorem saved_note {c : Chronicle} {event : Event} {user : UserId} {repo : RepoId}
    {overlay : Overlay}
    (h : (c.note event).deeds = .wrote (.saveOverlay user repo overlay) :: c.deeds) :
    (∃ now, event = .write now (.saveOverlay user repo overlay)) ∨
      ∃ rules, compileRules overlay.paths = .ok rules := by
  cases event with
  | write now w =>
    obtain ⟨answer, hdeed⟩ := c.exists_of_deeds_close h
    cases hdeed
    exact .inl ⟨now, rfl⟩
  | saveOverlay now setup user' repo' overlay' =>
    obtain ⟨answer, hdeed⟩ := c.exists_of_deeds_close h
    cases hdeed
    obtain hgood | ⟨text, reason, hbad⟩ := compileRules_cases overlay.paths
    · exact .inr hgood
    · -- An engine that cannot read the rules gives up before, and then there is no deed.
      have hnote : c.note (.saveOverlay now setup user repo overlay) =
          c.close ((setup.engine.saveOverlay now user repo overlay).effect c.store).1
            ((setup.engine.saveOverlay now user repo overlay).effect c.store).2 fun _ =>
              some (.wrote (.saveOverlay user repo overlay)) := rfl
      rw [hnote, saveOverlay_of_malformed setup now user repo hbad] at h
      exact absurd h.symm (List.cons_ne_self _ c.deeds)
  | grant now setup request mode =>
    obtain ⟨answer, hdeed⟩ := c.exists_of_deeds_close h
    split at hdeed
    · cases hdeed
    · cases hdeed
  | revoke now setup request =>
    obtain ⟨answer, hdeed⟩ := c.exists_of_deeds_close h
    cases hdeed
  | ask now q => exact absurd h.symm (List.cons_ne_self _ c.deeds)
  | refuseCommits refuses => exact absurd h.symm (List.cons_ne_self _ c.deeds)
  | hold => exact absurd h.symm (List.cons_ne_self _ c.deeds)
  | release => exact absurd h.symm (List.cons_ne_self _ c.deeds)

theorem wellRuled_note {c : Chronicle} (hc : c.store.shared.WellRuled) {event : Event}
    (hevent : ∀ now user repo overlay, event ≠ .write now (.saveOverlay user repo overlay)) :
    (c.note event).store.shared.WellRuled := by
  rcases c.note_cases hc.keyed event with ⟨-, hshared⟩ | ⟨now, d, hdeeds, hd, α, x, hx⟩
  · rwa [hshared]
  · refine ⟨?_, fun user repo overlay h => ?_⟩
    · rw [hx]
      exact hc.keyed.exec now x
    · by_cases hsaved : ∃ user' repo' overlay', d = .wrote (.saveOverlay user' repo' overlay')
      · obtain ⟨user', repo', overlay', rfl⟩ := hsaved
        have heffect : (c.note event).store.shared = _ := hd
        rw [heffect, Tables.overlayOf_insert] at h
        split at h
        · obtain rfl := Option.some.inj h
          rcases saved_note hdeeds with ⟨now', hwrite⟩ | hgood
          · exact absurd hwrite (hevent now' user' repo' overlay')
          · exact hgood
        · exact hc.rules user repo overlay h
      · refine hc.rules user repo overlay (d.overlayOf_of_effect hd ?_ h)
        intro user' repo' overlay' heq
        exact hsaved ⟨user', repo', overlay', heq⟩

theorem wellRuled_foldl {events : List Event} (hevents : RulesByEngines events) {c : Chronicle}
    (hc : c.store.shared.WellRuled) : (events.foldl note c).store.shared.WellRuled := by
  induction events generalizing c with
  | nil => exact hc
  | cons event events ih =>
    rw [List.foldl_cons]
    refine ih (fun now user repo overlay hmem => ?_) (wellRuled_note hc ?_)
    · exact hevents now user repo overlay (List.mem_cons_of_mem _ hmem)
    · rintro now user repo overlay rfl
      exact hevents now user repo overlay List.mem_cons_self

end Chronicle

/-! ### Path checks -/

namespace Engine

variable {σ : Type} {e : Engine σ} {now : Timestamp} {user : UserId} {Fine : σ → Prop}

/-- The states in which neither of the two questions of a path check can blame a pattern, and the
second one answers with well-formed rules only. -/
structure Untroubled (e : Engine σ) (now : Timestamp) (user : UserId) (Fine : σ → Prop) :
    Prop where
  row : ∀ perm s, Fine s → ∀ stop,
    (e.store.once now (Tx.request (.loadUser user perm)) s).1 = .error stop → ¬ stop.BlamesPattern
  stays : ∀ perm s, Fine s → Fine (e.store.once now (Tx.request (.loadUser user perm)) s).2
  overlays : ∀ s, Fine s → ∀ stop,
    (e.store.once now (Tx.request (.loadOverlays user)) s).1 = .error stop → ¬ stop.BlamesPattern
  rules : ∀ s, Fine s → ∀ overlays,
    (e.store.once now (Tx.request (.loadOverlays user)) s).1 = .ok overlays →
      ∀ (repo : RepoId) (overlay : Overlay), overlays[repo]? = some overlay →
        ∃ rules, compileRules overlay.paths = .ok rules

/-- In such a state a path check does not fail because of a pattern. -/
theorem Untroubled.not_blames_filterPaths (h : e.Untroubled now user Fine) {s : σ} (hs : Fine s)
    (perm : Permission) (repo : RepoId) (paths : List String) {stop : Stop}
    (hstop : ((e.filterPaths now user perm repo paths).start s).1 = .error stop) :
    ¬ stop.BlamesPattern := by
  change ((e.filterPaths now user perm repo paths).effect s).1 = .error stop at hstop
  rw [effect_filterPaths] at hstop
  have hrow : ∀ first, ((e.authorizedRepos now { user, perm } id [repo]).effect s).1 =
      .error first → ¬ first.BlamesPattern := by
    intro first hfirst
    rw [effect_authorizedRepos] at hfirst
    refine not_blames_inTime (fun stop hmapped => h.row perm s hs stop ?_) hfirst
    exact eq_error_of_map hmapped
  have hfine : Fine ((e.authorizedRepos now { user, perm } id [repo]).effect s).2 := by
    rw [effect_authorizedRepos]
    exact h.stays perm s hs
  generalize (e.authorizedRepos now { user, perm } id [repo]).effect s = asked at hstop hrow hfine
  obtain ⟨granted, s'⟩ := asked
  split at hstop
  · cases hstop
  · cases granted with
    | error first =>
      cases hstop
      exact hrow _ rfl
    | ok granted =>
      dsimp only at hstop
      split at hstop
      · cases hstop
      · rw [effect_overlays] at hstop
        cases hresult : (e.store.once now (Tx.request (.loadOverlays user)) s').1 with
        | error second =>
          obtain ⟨third, hthird⟩ := e.inTime_error (α := ExtTreeMap RepoId Overlay) "get_sub_repo"
            second
          simp only [hresult, hthird] at hstop
          cases hstop
          refine not_blames_inTime (fun first hfirst => h.overlays s' hfine first ?_) hthird
          exact hresult.trans hfirst
        | ok overlays =>
          simp only [hresult, inTime_ok] at hstop
          -- What the store answers can be read, so the judgement has an answer.
          cases hoverlay : overlays[repo]? with
          | none =>
            rw [hoverlay] at hstop
            cases hstop
          | some overlay =>
            obtain ⟨rules, hrules⟩ := h.rules s' hfine overlays hresult repo overlay hoverlay
            rw [hoverlay, leftBy, hrules] at hstop
            cases hstop

theorem Untroubled.not_blames_canReadPath (h : e.Untroubled now user Fine) {s : σ} (hs : Fine s)
    (perm : Permission) (repo : RepoId) (path : String) {stop : Stop}
    (hstop : ((e.canReadPath now user perm repo path).start s).1 = .error stop) :
    ¬ stop.BlamesPattern := by
  rw [canReadPath_eq_map] at hstop
  exact h.not_blames_filterPaths hs perm repo [path] (eq_error_of_map hstop)

end Engine

theorem untroubled_engine (setup : Setup) (now : Timestamp) (user : UserId) :
    setup.engine.Untroubled now user fun s => s.shared.WellRuled where
  row := fun _ _ _ _ hstop => not_blames_once hstop
  stays := by
    intro perm s hs
    have hsame : (setup.engine.store.once now (Tx.request (.loadUser user perm)) s).2 = s :=
      once_request (fun _ _ => rfl) now s
    rwa [hsame]
  overlays := fun _ _ _ hstop => not_blames_once hstop
  rules := by
    intro s hs overlays hok repo overlay hoverlay
    have hanswer := (answers_request now s (.loadOverlays user)).2 overlays hok
    refine hs.rules user repo overlay ?_
    rw [Tables.overlayOf, ← Tables.getElem?_userOverlays, ← hoverlay, hanswer]
    rfl

/-- Others who do not write path rules past the engines leave well-formed ones. -/
theorem BusyStore.wellRuled_found {b : BusyStore} (hb : b.store.shared.WellRuled)
    (hturns : ∀ turn ∈ b.turns, RulesByEngines turn) : b.found.shared.WellRuled := by
  refine Chronicle.wellRuled_foldl (c := { store := b.store }) ?_ hb
  cases hnext : b.turns with
  | nil => exact fun _ _ _ _ hmem => absurd hmem List.not_mem_nil
  | cons turn turns => exact hturns turn (by rw [hnext]; exact List.mem_cons_self)

theorem untroubled_busyEngine (setup : Setup) (now : Timestamp) (user : UserId) :
    setup.busyEngine.Untroubled now user fun b =>
      b.store.shared.WellRuled ∧ ∀ turn ∈ b.turns, RulesByEngines turn where
  row := by
    intro perm b _ stop hstop
    change (busyStore.once now (Tx.request (.loadUser user perm)) b).1 = .error stop at hstop
    rw [once_busyStore] at hstop
    exact not_blames_once hstop
  stays := by
    rintro perm b ⟨hb, hturns⟩
    show (busyStore.once now (Tx.request (.loadUser user perm)) b).2.store.shared.WellRuled ∧
      ∀ turn ∈ (busyStore.once now (Tx.request (.loadUser user perm)) b).2.turns,
        RulesByEngines turn
    rw [once_busyStore]
    dsimp only
    rw [once_request fun _ _ => rfl]
    exact ⟨b.wellRuled_found hb hturns, fun turn hmem => hturns turn (List.mem_of_mem_tail hmem)⟩
  overlays := by
    intro b _ stop hstop
    change (busyStore.once now (Tx.request (.loadOverlays user)) b).1 = .error stop at hstop
    rw [once_busyStore] at hstop
    exact not_blames_once hstop
  rules := by
    rintro b ⟨hb, hturns⟩ overlays hok repo overlay hoverlay
    change (busyStore.once now (Tx.request (.loadOverlays user)) b).1 = .ok overlays at hok
    rw [once_busyStore] at hok
    exact (untroubled_engine setup now user).rules b.found (b.wellRuled_found hb hturns) overlays
      hok repo overlay hoverlay

/-- Engines that store path rules while no client writes any past them leave well-formed ones only.
To store path rules fails because of a pattern exactly if one of them is malformed, and then the
failure names the first one; if none is, it succeeds in a free store. Where it succeeds, the rules are
the given ones, and those of others stay as they are; where it fails, the store stays as it is. So a
path check never fails because of a pattern, whatever else engines and clients do between its
questions. -/
theorem stored_rules_always_compile (events : List Event) (hengines : RulesByEngines events)
    (setup : Setup) (now : Timestamp) (user : UserId) (repo : RepoId) :
    let s := (Chronicle.of events).store
    (∀ overlay, s.shared.overlayOf user repo = some overlay →
      ∃ rules, Denote overlay.paths rules) ∧
    (∀ overlay,
      let saved := (setup.engine.saveOverlay now user repo overlay).start s
      s.SavesOverlay user repo overlay saved.1 saved.2.1) ∧
    ∀ perm paths path turns, (∀ turn ∈ turns, RulesByEngines turn) → ∀ text reason,
      let failure := Stop.failed (.invalidPattern text reason)
      ((setup.engine.filterPaths now user perm repo paths).start s).1 ≠ .error failure ∧
      ((setup.engine.canReadPath now user perm repo path).start s).1 ≠ .error failure ∧
      ((setup.busyEngine.filterPaths now user perm repo paths).start ⟨s, turns⟩).1 ≠
        .error failure ∧
      ((setup.busyEngine.canReadPath now user perm repo path).start ⟨s, turns⟩).1 ≠
        .error failure := by
  intro s
  have hruled : s.shared.WellRuled :=
    Chronicle.wellRuled_foldl hengines (c := {}) Tables.wellRuled_empty
  refine ⟨fun overlay hoverlay => ?_, savesOverlay_saveOverlay setup now user repo s,
    fun perm paths path turns hturns text reason => ?_⟩
  · obtain ⟨rules, hrules⟩ := hruled.rules user repo overlay hoverlay
    exact ⟨rules, denote_of_compileRules hrules⟩
  · have halone := untroubled_engine setup now user
    have hamid := untroubled_busyEngine setup now user
    have hblames : (Stop.failed (.invalidPattern text reason)).BlamesPattern := ⟨text, reason, rfl⟩
    exact ⟨fun h => halone.not_blames_filterPaths hruled perm repo paths h hblames,
      fun h => halone.not_blames_canReadPath hruled perm repo path h hblames,
      fun h => hamid.not_blames_filterPaths ⟨hruled, hturns⟩ perm repo paths h hblames,
      fun h => hamid.not_blames_canReadPath ⟨hruled, hturns⟩ perm repo path h hblames⟩

/-- Rules that are stored, and malformed ones that do not take their place. A revocation comes between
the two questions of a path check. -/
theorem stored_rules_always_compile_despite_malformed :
    let setup : Setup := { identityOf := fun user => .ok (.unknown user) }
    let events : List Event := [.saveOverlay ⟨0, 0⟩ setup ⟨7⟩ ⟨1⟩ ⟨["-/s/**", "/**"]⟩,
      .write ⟨0, 0⟩ (.replaceHolders ⟨1⟩ .read {⟨7⟩}),
      .saveOverlay ⟨1, 0⟩ setup ⟨7⟩ ⟨1⟩ ⟨["/a", "[", "/***"]⟩]
    let s := (Chronicle.of events).store
    let revoked : Event := .revoke ⟨2, 0⟩ setup ⟨⟨7⟩, []⟩
    RulesByEngines events ∧ RulesByEngines [revoked] ∧
    s.shared.overlayOf ⟨7⟩ ⟨1⟩ = some ⟨["-/s/**", "/**"]⟩ ∧
    (∃ rules, Denote ["-/s/**", "/**"] rules) ∧
    (∃ reason, ((setup.engine.saveOverlay ⟨3, 0⟩ ⟨7⟩ ⟨1⟩ ⟨["/a", "[", "/***"]⟩).start s).1 =
      .error (.failed (.invalidPattern "[" reason))) ∧
    ((setup.engine.saveOverlay ⟨3, 0⟩ ⟨7⟩ ⟨1⟩ ⟨["/a", "[", "/***"]⟩).start s).2.1 = s ∧
    ∀ text reason,
      ((setup.busyEngine.filterPaths ⟨3, 0⟩ ⟨7⟩ .read ⟨1⟩ ["/s/x", "/y"]).start
        ⟨s, [[], [revoked]]⟩).1 ≠ .error (.failed (.invalidPattern text reason)) := by
  intro setup events s revoked
  have hengines : RulesByEngines events := by
    intro now user repo overlay hmem
    simp [events] at hmem
  have hrevoked : RulesByEngines [revoked] := by
    intro now user repo overlay hmem
    simp [revoked] at hmem
  have hoverlay : s.shared.overlayOf ⟨7⟩ ⟨1⟩ = some ⟨["-/s/**", "/**"]⟩ := by decide +kernel
  have hgood : ¬ Malformed "/a" := by decide +kernel
  have hbad : Malformed "[" := by decide +kernel
  obtain ⟨reason, hreason⟩ := PathRule.exists_reason_of_malformed hbad
  obtain ⟨hstored, hsaves, hchecks⟩ :=
    stored_rules_always_compile events hengines setup ⟨3, 0⟩ ⟨7⟩ ⟨1⟩
  have hfailed := ((hsaves ⟨["/a", "[", "/***"]⟩).blames "[" reason).2
    ⟨["/a"], ["/***"], rfl, by simpa using hgood, hreason⟩
  refine ⟨hengines, hrevoked, hoverlay, hstored _ hoverlay, ⟨reason, hfailed⟩,
    (hsaves ⟨["/a", "[", "/***"]⟩).kept ?_, fun text reason => ?_⟩
  · intro hok
    rw [hok] at hfailed
    cases hfailed
  · refine (hchecks .read ["/s/x", "/y"] "/y" [[], [revoked]] ?_ text reason).2.2.1
    intro turn hturn
    rcases List.mem_cons.1 hturn with rfl | hturn
    · exact fun _ _ _ _ hmem => absurd hmem List.not_mem_nil
    · rw [List.mem_singleton.1 hturn]
      exact hrevoked

end RepoAccess

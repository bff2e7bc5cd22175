/-
A path check asks twice, and others may act in between.

* `BusyStore`, `busyStore` — the store in memory with others who act before each of the next
  transactions, and `once_busyStore` — then a transaction finds the store as they have left it;
* `MemoryStore.Passes` — the tables at the beginning of a course of events, at the end of it, and
  at each moment in between;
* `Tables.judged` — what is answered from the access in some tables and the path rules in others;
* `filterPaths_undisturbed` — alone, a check answers from the same tables twice;
* `path_check_between_others` — otherwise, it takes access from the first tables and the rules from
  the last ones.

So a check agrees with the tables of one moment as long as some moment has both the access and the
rules that it has found. A revocation in between takes the rules away together with the access:
`path_check_amid_revocation` is a check that has found the access, does not find the rules any more,
and answers a path that nobody could read at any moment.
-/
import RepoAccess.Proofs.Revocation

namespace RepoAccess

open Std

/-! ### The two questions -/

/-- The path rules of a user in a repository. -/
def Tables.overlayOf (t : Tables) (user : UserId) (repo : RepoId) : Option Overlay :=
  t.overlays[(⟨user, repo⟩ : OverlayKey)]?

/-- What a path check answers that has found access in some tables and path rules in others. -/
def Tables.judged (granting ruling : Tables) (user : UserId) (perm : Permission) (repo : RepoId)
    (paths : List String) : Except Stop (List String) :=
  if paths.isEmpty then .ok []
  else if (granting.reposOf user perm).contains repo then
    Engine.leftBy (ruling.overlayOf user repo) paths
  else .ok []

namespace Tables

variable {granting ruling : Tables} {user : UserId} {perm : Permission} {repo : RepoId}

theorem judged_of_mem (h : repo ∈ granting.reposOf user perm) (paths : List String) :
    granting.judged ruling user perm repo paths =
      if paths.isEmpty then .ok []
      else Engine.leftBy (ruling.overlayOf user repo) paths := by
  rw [judged, if_pos (ExtTreeSet.contains_iff_mem.2 h)]

theorem judged_of_not_mem (h : repo ∉ granting.reposOf user perm) (paths : List String) :
    granting.judged ruling user perm repo paths = .ok [] := by
  rw [judged, if_neg (mt ExtTreeSet.contains_iff_mem.1 h), ite_self]

end Tables

/-- A path check over any store that answers the first question from some tables, and the second
one, if there is a second one, from others. -/
theorem Engine.filterPaths_eq_judged {σ : Type} {e : Engine σ} {now : Timestamp} {user : UserId}
    {perm : Permission} {repo : RepoId} {granting ruling : Tables} {s s' : σ}
    (hrow : e.store.once now (Tx.request (.loadUser user perm)) s =
      (.ok (granting.userRow user perm), s'))
    (hrules : (granting.reposOf user perm).contains repo = true →
      (e.store.once now (Tx.request (.loadOverlays user)) s').1 = .ok (ruling.userOverlays user))
    (paths : List String) :
    ((e.filterPaths now user perm repo paths).start s).1 =
      granting.judged ruling user perm repo paths := by
  show ((e.filterPaths now user perm repo paths).effect s).1 = _
  have hheld : heldOf id [repo] (granting.userRow user perm) =
      if (granting.reposOf user perm).contains repo then [repo] else [] :=
    List.filter_cons
  rw [effect_filterPaths, effect_authorizedRepos, Tables.judged]
  split
  · rfl
  · simp only [hrow, List.isEmpty_cons, Bool.false_eq_true, if_false, Except.map, inTime_ok, hheld]
    split
    · next hmem =>
      rw [effect_overlays, Tables.overlayOf, ← Tables.getElem?_userOverlays]
      generalize e.store.once now (Tx.request (.loadOverlays user)) s' = ran at hrules
      obtain ⟨result, s''⟩ := ran
      obtain rfl : result = .ok (ruling.userOverlays user) := hrules hmem
      rfl
    · rfl

/-- A check of one path. -/
theorem Engine.canReadPath_eq_map {σ : Type} {e : Engine σ} {now : Timestamp} {user : UserId}
    {perm : Permission} {repo : RepoId} (path : String) (s : σ) :
    ((e.canReadPath now user perm repo path).start s).1 =
      ((e.filterPaths now user perm repo [path]).start s).1.map fun paths => !paths.isEmpty :=
  congrArg Prod.fst (@effect_canReadPath σ e now s user perm repo path)

/-- Alone, a check answers both questions from the tables that are there. -/
theorem filterPaths_undisturbed {s : MemoryStore} (hfree : s.Free) (setup : Setup)
    (now : Timestamp) (user : UserId) (perm : Permission) (repo : RepoId) (paths : List String) :
    ((setup.engine.filterPaths now user perm repo paths).start s).1 =
      s.shared.judged s.shared user perm repo paths := by
  refine Engine.filterPaths_eq_judged (MemoryStore.once_of_free hfree now _) (fun _ => ?_) paths
  exact congrArg Prod.fst (MemoryStore.once_of_free hfree now (Tx.request (.loadOverlays user)))

/-! ### Others in between -/

/-- The store in memory, and what others do before each of the next transactions. -/
structure BusyStore where
  store : MemoryStore
  turns : List (List Event) := []

namespace MemoryStore

/-- The store after these events. -/
def after (s : MemoryStore) (events : List Event) : MemoryStore :=
  (events.foldl Chronicle.note { store := s }).store

/-- The tables at some moment while these events happen to the store. -/
def Passes (s : MemoryStore) (events : List Event) (t : Tables) : Prop :=
  ∃ earlier later, events = earlier ++ later ∧ t = (s.after earlier).shared

theorem passes_first (s : MemoryStore) (events : List Event) : s.Passes events s.shared :=
  ⟨[], events, rfl, rfl⟩

theorem passes_last (s : MemoryStore) (events : List Event) :
    s.Passes events (s.after events).shared :=
  ⟨events, [], (List.append_nil events).symm, rfl⟩

theorem passes_singleton {s : MemoryStore} {event : Event} {t : Tables} :
    s.Passes [event] t ↔ t = s.shared ∨ t = (s.after [event]).shared := by
  constructor
  · rintro ⟨earlier, later, hsplit, rfl⟩
    obtain ⟨rfl, -⟩ | ⟨rfl, -⟩ := List.singleton_eq_append_iff.1 hsplit
    · exact .inl rfl
    · exact .inr rfl
  · rintro (rfl | rfl)
    · exact s.passes_first [event]
    · exact s.passes_last [event]

end MemoryStore

/-- The store as a transaction finds it that is about to begin. -/
def BusyStore.found (b : BusyStore) : MemoryStore := b.store.after (b.turns.headD [])

/-- Transactions on the store in memory, with others who act before each of them. -/
def busyStore : Store BusyStore where
  backend := memoryStore.backend
  start b :=
    let (result, s) := memoryStore.start b.found
    (result, ⟨s, b.turns.tail⟩)
  perform now p b :=
    let (reply, s) := memoryStore.perform now p b.store
    (reply, { b with store := s })
  commit b :=
    let (result, s) := memoryStore.commit b.store
    (result, { b with store := s })
  rollBack b := { b with store := memoryStore.rollBack b.store }

/-- The engine of a setup over a store that others use too. -/
def Setup.busyEngine (setup : Setup) : Engine BusyStore where
  store := busyStore
  identityOf := setup.identityOf
  mode := setup.mode
  timeoutMs := setup.timeoutMs
  metrics := setup.metrics

theorem run_busyStore {α : Type} (body : Tx α) (now : Timestamp) (b : BusyStore) :
    body.run (busyStore.perform now) b =
      let ran := body.run (memoryStore.perform now) b.store
      (ran.1, { b with store := ran.2 }) := by
  induction body generalizing b with
  | done a => rfl
  | call p next ih => exact ih _ _

/-- Nobody acts while a transaction is open. -/
theorem once_busyStore {α : Type} (body : Tx α) (now : Timestamp) (b : BusyStore) :
    busyStore.once now body b =
      let ran := memoryStore.once now body b.found
      (ran.1, ⟨ran.2, b.turns.tail⟩) := by
  rw [Store.once, Store.once]
  generalize (do return Ending.commit (← body) : Tx (Ending α)) = program
  unfold Store.transact
  have hstart : busyStore.start b =
      ((memoryStore.start b.found).1, ⟨(memoryStore.start b.found).2, b.turns.tail⟩) := rfl
  rw [hstart]
  obtain ⟨started, s⟩ := memoryStore.start b.found
  cases started with
  | error stop => rfl
  | ok _ =>
    dsimp only
    rw [run_busyStore]
    dsimp only
    obtain ⟨ran, s'⟩ := program.run (memoryStore.perform now) s
    cases ran with
    | error error => rfl
    | ok ending =>
      cases ending with
      | rollBack answer => rfl
      | commit answer =>
        have hcommit : busyStore.commit ⟨s', b.turns.tail⟩ =
          ((memoryStore.commit s').1, ⟨(memoryStore.commit s').2, b.turns.tail⟩) := rfl
        dsimp only
        rw [hcommit]
        obtain ⟨committed, s''⟩ := memoryStore.commit s'
        cases committed <;> rfl

theorem once_busyStore_of_free {α : Type} {b : BusyStore} (h : b.found.Free) (now : Timestamp)
    (body : Tx α) :
    busyStore.once now body b =
      (.ok (body.exec now b.found.shared).1,
        ⟨{ b.found with shared := (body.exec now b.found.shared).2 }, b.turns.tail⟩) := by
  rw [once_busyStore, MemoryStore.once_of_free h now]

/-- With others in between, a check answers the two questions from the tables that are there when
it asks them. -/
theorem filterPaths_disturbed {s : MemoryStore} {between : List Event} {user : UserId}
    {perm : Permission} {repo : RepoId} (hfirst : s.Free)
    (hlast : repo ∈ s.shared.reposOf user perm → (s.after between).Free) (setup : Setup)
    (now : Timestamp) (paths : List String) :
    ((setup.busyEngine.filterPaths now user perm repo paths).start ⟨s, [[], between]⟩).1 =
      s.shared.judged (s.after between).shared user perm repo paths := by
  have hrow := once_busyStore_of_free (b := ⟨s, [[], between]⟩) hfirst now
    (Tx.request (.loadUser user perm))
  refine Engine.filterPaths_eq_judged hrow (fun hheld => ?_) paths
  have hrules := once_busyStore_of_free (b := ⟨s, [between]⟩)
    (hlast (ExtTreeSet.contains_iff_mem.1 hheld)) now (Tx.request (.loadOverlays user))
  exact congrArg Prod.fst hrules

/-- Whatever moment has the access that is there at first and the rules that are there at last
gives the answer that these two give. -/
theorem MemoryStore.judged_at_moment {s : MemoryStore} {between : List Event} {user : UserId}
    {perm : Permission} {repo : RepoId}
    (h : repo ∈ s.shared.reposOf user perm → ∃ t, s.Passes between t ∧
      repo ∈ t.reposOf user perm ∧
        t.overlayOf user repo = (s.after between).shared.overlayOf user repo) :
    ∃ t, s.Passes between t ∧ ∀ paths,
      s.shared.judged (s.after between).shared user perm repo paths =
        t.judged t user perm repo paths := by
  by_cases hheld : repo ∈ s.shared.reposOf user perm
  · obtain ⟨t, hpasses, hmem, hoverlay⟩ := h hheld
    refine ⟨t, hpasses, fun paths => ?_⟩
    rw [Tables.judged_of_mem hheld, Tables.judged_of_mem hmem, hoverlay]
  · refine ⟨s.shared, s.passes_first between, fun paths => ?_⟩
    rw [Tables.judged_of_not_mem hheld, Tables.judged_of_not_mem hheld]

/-- With others acting between its two questions, a check takes access from the first tables and the
path rules from the last ones. It answers as it would alone at one of the moments, unless it has
found access and at no moment there is access together with the last rules. So where it answers a
path that is readable at no moment, access has been lost and the rules have changed. -/
theorem path_check_between_others (s : MemoryStore) (between : List Event) (now : Timestamp)
    (setup : Setup) (user : UserId) (perm : Permission) (repo : RepoId) (hfirst : s.Free)
    (hlast : repo ∈ s.shared.reposOf user perm → (s.after between).Free) :
    let last := (s.after between).shared
    let amid := fun paths =>
      ((setup.busyEngine.filterPaths now user perm repo paths).start ⟨s, [[], between]⟩).1
    let alone := fun (t : Tables) paths =>
      ((setup.engine.filterPaths now user perm repo paths).start { shared := t }).1
    (∀ paths, amid paths = s.shared.judged last user perm repo paths) ∧
    ((repo ∈ s.shared.reposOf user perm → ∃ t, s.Passes between t ∧
        repo ∈ t.reposOf user perm ∧ t.overlayOf user repo = last.overlayOf user repo) →
      ∃ t, s.Passes between t ∧ (∀ paths, amid paths = alone t paths) ∧
        ∀ path,
          ((setup.busyEngine.canReadPath now user perm repo path).start ⟨s, [[], between]⟩).1 =
            ((setup.engine.canReadPath now user perm repo path).start { shared := t }).1) ∧
    (∀ paths readable, amid paths = .ok readable → ∀ path ∈ readable,
      (∀ t, s.Passes between t → ∀ answer, alone t paths = .ok answer → path ∉ answer) →
        repo ∉ last.reposOf user perm ∧
          s.shared.overlayOf user repo ≠ last.overlayOf user repo) := by
  intro last amid alone
  have hamid : ∀ paths, amid paths = s.shared.judged last user perm repo paths :=
    filterPaths_disturbed hfirst hlast setup now
  have halone : ∀ t paths, alone t paths = t.judged t user perm repo paths := fun t =>
    filterPaths_undisturbed (s := { shared := t }) ⟨rfl, rfl⟩ setup now user perm repo
  refine ⟨hamid, fun hshared => ?_, fun paths readable hok path hmem hnever => ?_⟩
  · obtain ⟨t, hpasses, hsame⟩ := MemoryStore.judged_at_moment hshared
    have hanswers : ∀ paths, amid paths = alone t paths := fun paths => by
      rw [hamid, halone, hsame]
    refine ⟨t, hpasses, hanswers, fun path => ?_⟩
    rw [Engine.canReadPath_eq_map, Engine.canReadPath_eq_map]
    exact congrArg _ (hanswers [path])
  · -- Otherwise the path is readable at the moment that has both.
    have hnone : ∀ t, s.Passes between t → repo ∈ t.reposOf user perm →
        t.overlayOf user repo ≠ last.overlayOf user repo := by
      intro t hpasses hheld hoverlay
      obtain ⟨t', hpasses', hsame⟩ :=
        MemoryStore.judged_at_moment fun _ => ⟨t, hpasses, hheld, hoverlay⟩
      have hok' : alone t' paths = .ok readable := by
        rw [halone, ← hsame, ← hamid, hok]
      exact hnever t' hpasses' readable hok' hmem
    refine ⟨fun hheld => hnone last (s.passes_last between) hheld rfl, ?_⟩
    by_cases hheld : repo ∈ s.shared.reposOf user perm
    · exact hnone s.shared (s.passes_first between) hheld
    · rw [hamid, Tables.judged_of_not_mem hheld] at hok
      cases hok
      cases hmem

/-- Results are compared by their answers. -/
theorem ok_of_toOption {ε α : Type} {x : Except ε α} {a : α} (h : x.toOption = some a) :
    x = .ok a := by
  cases x with
  | error e => cases h
  | ok b => exact congrArg Except.ok (Option.some.inj h)

/-- The rules are replaced in between, and the user keeps the repository. -/
theorem path_check_between_others_of_new_rules :
    let setup : Setup := { identityOf := fun user => .ok (.unknown user) }
    let s := (Chronicle.of [.write ⟨0, 0⟩ (.replaceHolders ⟨1⟩ .read {⟨7⟩})]).store
    let between : List Event := [.write ⟨1, 0⟩ (.saveOverlay ⟨7⟩ ⟨1⟩ ⟨["/docs/**"]⟩)]
    let amid := fun paths =>
      ((setup.busyEngine.filterPaths ⟨2, 0⟩ ⟨7⟩ .read ⟨1⟩ paths).start ⟨s, [[], between]⟩).1
    amid ["/docs/a", "/src/a"] = .ok ["/docs/a"] ∧
    (∃ t, s.Passes between t ∧ ∀ paths, amid paths =
      ((setup.engine.filterPaths ⟨2, 0⟩ ⟨7⟩ .read ⟨1⟩ paths).start { shared := t }).1) := by
  intro setup s between amid
  have hfirst : s.Free := by decide +kernel
  have hlast : (s.after between).Free := by decide +kernel
  have hheld : (⟨1⟩ : RepoId) ∈ s.shared.reposOf ⟨7⟩ .read := by decide +kernel
  have hstill : (⟨1⟩ : RepoId) ∈ (s.after between).shared.reposOf ⟨7⟩ .read := by decide +kernel
  have hrules : (s.after between).shared.overlayOf ⟨7⟩ ⟨1⟩ = some ⟨["/docs/**"]⟩ := by
    decide +kernel
  obtain ⟨hjudged, hmoment, -⟩ :=
    path_check_between_others s between ⟨2, 0⟩ setup ⟨7⟩ .read ⟨1⟩ hfirst fun _ => hlast
  obtain ⟨t, hpasses, hsame, -⟩ := hmoment fun _ => ⟨_, s.passes_last between, hstill, rfl⟩
  refine ⟨?_, t, hpasses, hsame⟩
  refine (hjudged _).trans ?_
  rw [Tables.judged_of_mem hheld, hrules]
  exact ok_of_toOption (by decide +kernel)

/-! ### A revocation in between -/

theorem MemoryStore.after_revoke {s : MemoryStore} (hs : s.shared.Keyed) (hfree : s.Free)
    (now : Timestamp) (setup : Setup) (asked : RevokeRequest) :
    s.after [.revoke now setup asked] =
      { s with shared := ((forget now asked).exec now s.shared).2 } := by
  show (Chronicle.note { store := s } (.revoke now setup asked)).store = _
  rw [Chronicle.note, start_revoke_of_free hs hfree]
  rfl

/-- A revocation takes the rules away together with the access. A check that has found access before
lets every path through, and alone it lets none through afterwards. -/
theorem filterPaths_amid_revocation {s : MemoryStore} (hs : s.shared.Keyed) (hfree : s.Free)
    {perm : Permission} {repo : RepoId} (asked : RevokeRequest)
    (hheld : repo ∈ s.shared.reposOf asked.user perm) (setup setup' : Setup)
    (now now' : Timestamp) (paths : List String) :
    ((setup.busyEngine.filterPaths now asked.user perm repo paths).start
      ⟨s, [[], [.revoke now' setup' asked]]⟩).1 = .ok paths ∧
    ((setup.engine.filterPaths now asked.user perm repo paths).start
      (s.after [.revoke now' setup' asked])).1 = .ok [] := by
  have hafter := MemoryStore.after_revoke hs hfree now' setup' asked
  have hforgotten := Tx.forgotten_forget hs now' asked
  have hfree' : (s.after [.revoke now' setup' asked]).Free := by
    rw [hafter]
    exact hfree
  have hrules : (s.after [.revoke now' setup' asked]).shared.overlayOf asked.user repo = none := by
    rw [hafter, Tables.overlayOf, hforgotten.overlays, getElem?_filter_key]
    simp
  have hlost : repo ∉ (s.after [.revoke now' setup' asked]).shared.reposOf asked.user perm := by
    rw [hafter, hforgotten.mem_reposOf]
    exact fun hboth => hboth.1 rfl
  constructor
  · rw [filterPaths_disturbed hfree (fun _ => hfree') setup now, Tables.judged_of_mem hheld, hrules]
    cases paths <;> rfl
  · rw [filterPaths_undisturbed hfree', Tables.judged_of_not_mem hlost]

/-- A user may read the documents of a repository and nothing else. The user is revoked during a
check of another path, and the check answers this path. -/
theorem path_check_amid_revocation :
    let setup : Setup := { identityOf := fun user => .ok (.unknown user) }
    let s := (Chronicle.of [.write ⟨0, 0⟩ (.replaceHolders ⟨1⟩ .read {⟨7⟩}),
      .write ⟨0, 0⟩ (.saveOverlay ⟨7⟩ ⟨1⟩ ⟨["/docs/**"]⟩)]).store
    let between : List Event := [.revoke ⟨1, 0⟩ setup ⟨⟨7⟩, []⟩]
    ((setup.busyEngine.filterPaths ⟨2, 0⟩ ⟨7⟩ .read ⟨1⟩ ["/secret/x"]).start
      ⟨s, [[], between]⟩).1 = .ok ["/secret/x"] ∧
    ∀ t, s.Passes between t →
      ((setup.engine.filterPaths ⟨2, 0⟩ ⟨7⟩ .read ⟨1⟩ ["/secret/x"]).start
        { shared := t }).1 = .ok [] := by
  intro setup s between
  have hkeyed : s.shared.Keyed := Chronicle.keyed_of _
  have hfree : s.Free := by decide +kernel
  have hheld : (⟨1⟩ : RepoId) ∈ s.shared.reposOf ⟨7⟩ .read := by decide +kernel
  have hrules : s.shared.overlayOf ⟨7⟩ ⟨1⟩ = some ⟨["/docs/**"]⟩ := by decide +kernel
  have hlost : (⟨1⟩ : RepoId) ∉ (s.after between).shared.reposOf ⟨7⟩ .read := by decide +kernel
  clear_value s
  have hamid := filterPaths_amid_revocation hkeyed hfree ⟨⟨7⟩, []⟩ hheld setup setup ⟨2, 0⟩ ⟨1, 0⟩
    ["/secret/x"]
  refine ⟨hamid.1, fun t hpasses => ?_⟩
  have halone := filterPaths_undisturbed (s := { shared := t }) ⟨rfl, rfl⟩ setup ⟨2, 0⟩ ⟨7⟩ .read
    ⟨1⟩ ["/secret/x"]
  -- The revocation is all that happens, so the moment is before it or after it.
  obtain rfl | rfl := MemoryStore.passes_singleton.1 hpasses
  · rw [halone, Tables.judged_of_mem hheld, hrules]
    exact ok_of_toOption (by decide +kernel)
  · rw [halone, Tables.judged_of_not_mem hlost]

end RepoAccess

/-
A call that fails changes nothing, and nothing is lost but the call.

* `Mishaps`, `frailStore` — the store in memory with anything failing that can fail: the start of a
  transaction, any of its requests, its commit;
* `frail_transact` — a transaction on it fails and changes nothing, or has an answer and goes as if
  nothing could fail;
* `MemoryStore.timeless`, `Mutation.effect_at_any_moment` — an operation does the same at any
  moment, but for moments;
* `Mutation.exists_answer` — an operation that can be carried out is carried out if the store is
  free;
* `failed_call_changes_nothing` — after a call that failed, everything goes as if it had not been
  made; and over a database server nothing is committed before all went well.
-/
import RepoAccess.Proofs.Dialogue
import RepoAccess.Proofs.Moments
import RepoAccess.Sql.Script

namespace RepoAccess

/-! ### A store where anything may fail -/

/-- What fails in a transaction, and how. -/
structure Mishaps where
  start : Option AccessError := none
  /-- A request fails at its place, counted from zero, and may leave the tables of the transaction
  in any shape. -/
  request : Nat → Primitive → Option (AccessError × (Tables → Tables)) := fun _ _ => none
  commit : Option AccessError := none

/-- The store in memory, and how many requests were made in the open transaction. -/
structure FrailStore where
  store : MemoryStore
  asked : Nat := 0

/-- Transactions on the store in memory in which these things fail. -/
def frailStore (mishaps : Mishaps) : Store FrailStore where
  backend := memoryStore.backend
  start f :=
    match mishaps.start with
    | some e => (.error (.failed e), f)
    | none =>
      let (result, store) := memoryStore.start f.store
      (result, { store })
  perform now p f :=
    match mishaps.request f.asked p with
    | some (e, spoil) =>
      (.error e,
        { store := { f.store with staged := f.store.staged.map spoil }, asked := f.asked + 1 })
    | none =>
      let (reply, store) := memoryStore.perform now p f.store
      (reply, { store, asked := f.asked + 1 })
  commit f :=
    match mishaps.commit with
    | some e => (.error e, { f with store := memoryStore.rollBack f.store })
    | none =>
      let (result, store) := memoryStore.commit f.store
      (result, { f with store })
  rollBack f := { f with store := memoryStore.rollBack f.store }

section Frail

variable {α : Type} (mishaps : Mishaps) (now : Timestamp)

/-- In an open transaction a program comes to its end, as if no request could fail, or one of them
fails; then the tables of the transaction are in some shape. -/
theorem frail_run (x : Tx α) {f : FrailStore} {t : Tables} (h : f.store.staged = some t) :
    (∃ e t' asked, x.run ((frailStore mishaps).perform now) f =
      (.error e, ⟨{ f.store with staged := some t' }, asked⟩)) ∨
    ∃ asked, x.run ((frailStore mishaps).perform now) f =
      (.ok (x.exec now t).1, ⟨{ f.store with staged := some (x.exec now t).2 }, asked⟩) := by
  induction x generalizing f t with
  | done a =>
    refine .inr ⟨f.asked, ?_⟩
    obtain ⟨⟨shared, staged, refuses⟩, asked⟩ := f
    cases h
    rfl
  | call p next ih =>
    rw [Tx.run, Tx.exec]
    simp only [frailStore]
    cases mishaps.request f.asked p with
    | some mishap =>
      obtain ⟨e, spoil⟩ := mishap
      refine .inl ⟨e, spoil t, f.asked + 1, ?_⟩
      dsimp only
      rw [h]
      rfl
    | none =>
      simp only [memoryStore, MemoryStore.perform, h, Option.getD_some]
      let left : MemoryStore := { f.store with staged := some (Tables.perform now p t).2 }
      exact ih _ (f := ⟨left, f.asked + 1⟩) rfl

/-- A transaction fails and changes nothing, or has an answer and goes as if nothing could fail. -/
theorem frail_transact (body : Tx (Ending α)) (f : FrailStore) :
    let ran := (frailStore mishaps).transact now body f
    (∃ stop, ran.1 = .error stop ∧ ran.2.store = f.store) ∨
      ∃ answer, ran.1 = .ok answer ∧
        memoryStore.transact now body f.store = (.ok answer, ran.2.store) := by
  obtain ⟨⟨shared, staged, refuses⟩, asked⟩ := f
  intro ran
  cases hstart : mishaps.start with
  | some e =>
    refine .inl ⟨.failed e, ?_⟩
    simp only [ran, Store.transact, frailStore, hstart, and_self]
  | none =>
  cases staged with
  | some t =>
    refine .inl ⟨.waiting, ?_⟩
    simp only [ran, Store.transact, frailStore, hstart, memoryStore, MemoryStore.start, and_self]
  | none =>
  have hbegun : (frailStore mishaps).start ⟨⟨shared, none, refuses⟩, asked⟩ =
      (.ok (), ⟨⟨shared, some shared, refuses⟩, 0⟩) := by
    simp only [frailStore, hstart, memoryStore, MemoryStore.start]
  simp only [ran]
  rw [Store.transact, hbegun]
  dsimp only
  obtain ⟨e, t, asked, hbroken⟩ | ⟨asked, hended⟩ := frail_run mishaps now body
    (f := ⟨⟨shared, some shared, refuses⟩, 0⟩) rfl
  · -- Whatever the tables of the transaction have become, they are dropped.
    rw [hbroken]
    exact .inl ⟨.failed e, rfl, rfl⟩
  rw [hended, MemoryStore.transact_eq rfl]
  obtain ⟨⟨answer⟩ | ⟨answer⟩, t⟩ := body.exec now shared
  · simp only [frailStore]
    cases mishaps.commit with
    | some e => exact .inl ⟨.failed e, rfl, rfl⟩
    | none => cases refuses with
      | true => exact .inl ⟨_, rfl, rfl⟩
      | false => exact .inr ⟨answer, rfl, rfl⟩
  · exact .inr ⟨answer, rfl, rfl⟩

end Frail

/-! ### The same call at another moment -/

namespace MemoryStore

/-- The store without moments. -/
def timeless (s : MemoryStore) : MemoryStore :=
  { s with shared := s.shared.timeless, staged := s.staged.map (·.timeless) }

end MemoryStore

/-- A transaction does the same at any moment, but for moments. -/
theorem Tx.Same.transact {α : Type} {now now' : Timestamp} {body body' : Tx (Ending α)}
    (h : Tx.Same now now' body body') (s : MemoryStore) :
    (memoryStore.transact now' body' s).1 = (memoryStore.transact now body s).1 ∧
      (memoryStore.transact now' body' s).2.timeless =
        (memoryStore.transact now body s).2.timeless := by
  cases hstaged : s.staged with
  | some t =>
    rw [MemoryStore.transact_of_staged hstaged, MemoryStore.transact_of_staged hstaged]
    exact ⟨rfl, rfl⟩
  | none =>
    obtain ⟨hanswer, hleft⟩ := h s.shared s.shared rfl
    rw [MemoryStore.transact_eq hstaged, MemoryStore.transact_eq hstaged]
    generalize body.exec now s.shared = ran at hanswer hleft
    generalize body'.exec now' s.shared = ran' at hanswer hleft
    obtain ⟨ending, t⟩ := ran
    obtain ⟨ending', t'⟩ := ran'
    obtain rfl : ending = ending' := hanswer
    cases ending with
    | rollBack answer => exact ⟨rfl, rfl⟩
    | commit answer =>
      cases s.refusesCommits with
      | true => exact ⟨rfl, rfl⟩
      | false =>
        refine ⟨rfl, ?_⟩
        simp only [Bool.false_eq_true, if_false, MemoryStore.timeless]
        rw [hleft]

namespace Mutation

/-- An operation does the same at any moment, but for moments. -/
theorem effect_at_any_moment (m : Mutation) (setup : Setup) (now now' : Timestamp)
    (s : MemoryStore) :
    let ran := (m.call setup.engine now).effect s
    let ran' := (m.call setup.engine now').effect s
    ran'.1 = ran.1 ∧ ran'.2.timeless = ran.2.timeless := by
  intro ran ran'
  have hsame : (m.plan setup.engine.identityOf now).Same now now'
      (m.plan setup.engine.identityOf now') := m.same_plan _
  have hran : ran = _ := m.effect_call setup.engine now s
  have hran' : ran' = _ := m.effect_call setup.engine now' s
  rw [hran, hran']
  generalize m.plan setup.engine.identityOf now = plan at hsame
  generalize m.plan setup.engine.identityOf now' = plan' at hsame
  cases hsame with
  | settled result => exact ⟨rfl, rfl⟩
  | transaction hbody =>
    obtain ⟨hanswer, hleft⟩ := hbody.transact s
    exact ⟨congrArg (m.inTime setup.engine) hanswer, hleft⟩

/-- An operation that can be carried out is carried out if the store is free. -/
theorem exists_answer (m : Mutation) (setup : Setup) (now : Timestamp) {s : MemoryStore}
    (hfree : s.Free) (hplan : (m.plan setup.identityOf now).Succeeds) :
    ∃ answer, ((m.call setup.engine now).effect s).1 = .ok answer := by
  rw [effect_call]
  change (m.plan setup.engine.identityOf now).Succeeds at hplan
  generalize m.plan setup.engine.identityOf now = plan at hplan
  cases plan with
  | settled result =>
    obtain ⟨answer, rfl⟩ := hplan
    exact ⟨answer, rfl⟩
  | transaction body =>
    have hran : ∃ answer, (memoryStore.transact now body s).1 = .ok answer := by
      rw [MemoryStore.transact_eq hfree.1, hfree.2]
      obtain ⟨⟨answer⟩ | ⟨answer⟩, t⟩ := body.exec now s.shared
      · exact ⟨answer, rfl⟩
      · exact ⟨answer, rfl⟩
    obtain ⟨answer, hanswer⟩ := hran
    refine ⟨answer, ?_⟩
    show m.inTime setup.engine (memoryStore.transact now body s).1 = _
    rw [hanswer, inTime_ok]

end Mutation

/-! ### The call that fails -/

/-- An operation on the store where things fail has the answer that it would have had, or changes
nothing. -/
theorem Mutation.frail_call (m : Mutation) (setup : Setup) (mishaps : Mishaps) (now : Timestamp)
    (f : FrailStore) :
    let ran := (m.call (setup.engineOver (frailStore mishaps)) now).effect f
    (∃ stop, ran.1 = .error stop ∧ ran.2.store = f.store) ∨
      ∃ answer, ran.1 = .ok answer ∧
        (m.call setup.engine now).effect f.store = (.ok answer, ran.2.store) := by
  intro ran
  have hran : ran = _ := m.effect_call (setup.engineOver (frailStore mishaps)) now f
  rw [hran, ← setup.engineOver_memoryStore, effect_call]
  simp only [Setup.engineOver_identityOf, Setup.engineOver_store]
  cases m.plan setup.identityOf now with
  | settled result =>
    cases result with
    | error e => exact .inl ⟨_, rfl, rfl⟩
    | ok answer => exact .inr ⟨answer, rfl, rfl⟩
  | transaction body =>
    dsimp only
    obtain ⟨stop, hstop, hstore⟩ | ⟨answer, hanswer, hsame⟩ := frail_transact mishaps now body f
    · rw [hstop]
      obtain ⟨stop', hstop'⟩ := m.inTime_error (setup.engineOver (frailStore mishaps)) stop
      exact .inl ⟨stop', hstop', hstore⟩
    · rw [hsame, hanswer]
      exact .inr ⟨answer, m.inTime_ok _ answer, congrArg (·, _) (m.inTime_ok _ answer)⟩

/-- Whatever fails in an operation that writes, in memory, a call without an answer leaves the store
as it was, with all its tables and not more locked than before. So whatever others do meanwhile, the
next call, the same or another one, goes as if the failed one had not been made: it has the result
and leaves the tables, but for moments, that it would have had and left without it, and it has an
answer if the store is free and nothing but the store can make it fail. A call with an answer has
done what it does where nothing fails.

Whatever a database server answers, it is told to commit only after all that the operation had to
ask was answered, and every answer made sense. -/
theorem failed_call_changes_nothing (m : Mutation) (setup : Setup) (now : Timestamp) :
    (∀ (mishaps : Mishaps) (f : FrailStore),
      let ran := (m.call (setup.engineOver (frailStore mishaps)) now).effect f
      (∀ answer, ran.1 = .ok answer →
        (m.call setup.engine now).effect f.store = (.ok answer, ran.2.store)) ∧
      ∀ stop, ran.1 = .error stop → ran.2.store = f.store ∧
        ∀ (others : MemoryStore → MemoryStore) (again : Mutation) (setup' : Setup)
          (now₁ now₂ : Timestamp),
          let unmarred := (again.call setup'.engine now₁).effect (others f.store)
          let retried := (again.call setup'.engine now₂).effect (others ran.2.store)
          retried.1 = unmarred.1 ∧ retried.2.timeless = unmarred.2.timeless ∧
          ((others f.store).Free → (again.plan setup'.identityOf now₂).Succeeds →
            ∃ answer, retried.1 = .ok answer)) ∧
    ∀ {σ : Type} (server : Server σ) (s : σ),
      let ran := (m.call (setup.engineOver (postgresStore server)) now).effect s
      ∃ said, (m.call (setup.engineOver (postgresStore server.recorded)) now).effect (s, []) =
          (ran.1, ran.2, said) ∧
        ∀ earlier kept later, said = earlier ++ ⟨.commit, kept⟩ :: later →
          (∀ exchange ∈ earlier, ∃ answer, exchange.result = .ok answer) ∧
          ∃ body started turns answer, m.plan setup.identityOf now = .transaction body ∧
            body.Leads turns (.done (.commit answer)) ∧
            earlier = ⟨.start, .ok started⟩ :: turns.flatMap (·.exchanges now) := by
  refine ⟨fun mishaps f => ?_, fun server s => ?_⟩
  · intro ran
    obtain ⟨stop, hstop, hstore⟩ | ⟨answer, hanswer, hsame⟩ := m.frail_call setup mishaps now f
    · refine ⟨fun answer hanswer => ?_, fun _ _ => ⟨hstore, ?_⟩⟩
      · cases hstop.symm.trans hanswer
      · intro others again setup' now₁ now₂
        rw [show ran.2.store = f.store from hstore]
        obtain ⟨hresult, hleft⟩ := again.effect_at_any_moment setup' now₁ now₂ (others f.store)
        exact ⟨hresult, hleft, again.exists_answer setup' now₂⟩
    · refine ⟨fun answer' hanswer' => ?_, fun stop hstop => ?_⟩
      · obtain rfl := Except.ok.inj (hanswer.symm.trans hanswer')
        exact hsame
      · cases hanswer.symm.trans hstop
  · obtain ⟨said, hnoted, hsaid⟩ := m.effect_recorded server setup now s
    refine ⟨said, hnoted, fun earlier kept later hcommit => ?_⟩
    generalize m.plan setup.identityOf now = plan at hsaid ⊢
    cases hsaid with
    | settled result => cases earlier <;> cases hcommit
    | transaction htranscript =>
      obtain ⟨started, turns, answer, hleads, rfl⟩ := htranscript.before_commit hcommit
      refine ⟨fun exchange hmem => ?_, _, started, turns, answer, rfl, hleads, rfl⟩
      rcases List.mem_cons.1 hmem with rfl | hmem
      · exact ⟨started, rfl⟩
      · obtain ⟨turn, -, hturn⟩ := List.mem_flatMap.1 hmem
        obtain ⟨statement, answer, rfl⟩ := turn.exists_statement hturn
        exact ⟨answer, rfl⟩

/-- A list of users is written. In memory the fifth request fails, which saves the first user's row,
and the list is written by the next call. Over a server all goes well, and nothing that was said
before it is told to commit has failed. -/
theorem failed_call_changes_nothing_amid_list :
    let m : Mutation := .write (.replaceHolders ⟨1⟩ .read {⟨7⟩, ⟨8⟩})
    let setup : Setup := { identityOf := fun user => .error (.userNotFound user.val) }
    let mishaps : Mishaps :=
      { request place _ := if place = 4 then some (.transaction "memory" "gone", id) else none }
    let s := (Chronicle.of [.write ⟨0, 0⟩ (.replaceHolders ⟨1⟩ .read {⟨9⟩})]).store
    let failed := (m.call (setup.engineOver (frailStore mishaps)) ⟨1, 0⟩).effect { store := s }
    let retried := (m.call setup.engine ⟨2, 0⟩).effect failed.2.store
    let noted := (m.call (setup.engineOver (postgresStore scriptedServer.recorded)) ⟨1, 0⟩).effect
      ({}, [])
    (∃ stop, failed.1 = .error stop) ∧ failed.2.asked = 5 ∧ failed.2.store = s ∧
    (∃ answer, retried.1 = .ok answer) ∧
    (⟨8⟩ : UserId) ∈ retried.2.shared.usersOf ⟨1⟩ .read ∧
    ∃ earlier kept, noted.2.2 = earlier ++ [⟨.commit, kept⟩] ∧
      ∀ exchange ∈ earlier, ∃ answer, exchange.result = .ok answer := by
  intro m setup mishaps s failed retried noted
  obtain ⟨hmemory, hserver⟩ := failed_call_changes_nothing m setup ⟨1, 0⟩
  have hnone : failed.1.toOption = none := by decide +kernel
  obtain ⟨stop, hstop⟩ : ∃ stop, failed.1 = .error stop := by
    cases hresult : failed.1 with
    | error stop => exact ⟨stop, rfl⟩
    | ok answer =>
      rw [hresult] at hnone
      cases hnone
  obtain ⟨hstore, hnext⟩ := (hmemory mishaps { store := s }).2 stop hstop
  have hretried := (hnext id m setup ⟨2, 0⟩ ⟨2, 0⟩).2.2 (by decide +kernel) trivial
  obtain ⟨said, hnoted, hcommit⟩ := hserver scriptedServer {}
  have hsaid : said = noted.2.2 := by
    show said = ((m.call (setup.engineOver (postgresStore scriptedServer.recorded)) ⟨1, 0⟩).effect
      ({}, [])).2.2
    rw [hnoted]
  refine ⟨⟨stop, hstop⟩, by decide +kernel, hstore, hretried, by decide +kernel, ?_⟩
  have hlast : noted.2.2.getLast?.map (·.command) = some .commit := by decide +kernel
  obtain ⟨⟨command, kept⟩, hexchange, rfl⟩ := Option.map_eq_some_iff.1 hlast
  obtain ⟨earlier, hsplit⟩ := List.getLast?_eq_some_iff.1 hexchange
  exact ⟨earlier, kept, hsplit, (hcommit earlier kept [] (hsaid.trans hsplit)).1⟩

end RepoAccess

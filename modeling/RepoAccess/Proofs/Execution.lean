/-
Programs on the tables in memory.

`Tx.exec` runs a program on tables directly: no request fails there, so it answers and leaves
tables behind, and nothing else.

* `Tx.exec_bind`, `Tx.run_bind` — one program after another;
* `Tx.exec_induction` — what every request keeps, every program keeps;
* `MemoryStore.start_eq_ok`, `MemoryStore.commit_eq_ok` — when a transaction starts, and when it
  commits;
* `MemoryStore.transact_eq` — a transaction of the store in memory is an execution on the shared
  tables, kept or dropped as a whole; `MemoryStore.transact_of_staged` — it waits while another one
  is open;
* `MemoryStore.Free` — no transaction is open and commits are not refused;
  `MemoryStore.free_of_once` — a call that has an answer has found the store so;
* `MemoryStore.Answers` — a call gives an answer if the store is free, and no other one at any time;
* `MemoryStore.Yields` — a call succeeds if the store is free, and what can then be said of its
  answer and of the tables it leaves.

So what is proved of `exec` holds of every operation of the store and of the engine, committed or
failed.
-/
import RepoAccess.Memory.Store

namespace RepoAccess

open Std

namespace Tx

variable {α β : Type} {now : Timestamp}

/-- The program on tables: its answer, and the tables after it. -/
def exec (now : Timestamp) : Tx α → Tables → α × Tables
  | .done a, t => (a, t)
  | .call p next, t =>
    let (reply, t) := Tables.perform now p t
    (next reply).exec now t

@[simp] theorem exec_pure (a : α) (t : Tables) : (pure a : Tx α).exec now t = (a, t) := rfl

@[simp] theorem exec_bind (x : Tx α) (f : α → Tx β) (t : Tables) :
    (x >>= f).exec now t = (f (x.exec now t).1).exec now (x.exec now t).2 := by
  show (x.bind f).exec now t = _
  induction x generalizing t with
  | done a => rfl
  | call p next ih => exact ih (Tables.perform now p t).1 (Tables.perform now p t).2

/-- One program after another, however requests are answered. -/
theorem run_bind {σ : Type} (perform : (p : Primitive) → σ → Except AccessError p.Reply × σ)
    (x : Tx α) (f : α → Tx β) (s : σ) :
    (x >>= f).run perform s =
      match x.run perform s with
      | (.ok a, s') => (f a).run perform s'
      | (.error e, s') => (.error e, s') := by
  show (x.bind f).run perform s = _
  induction x generalizing s with
  | done a => rfl
  | call p next ih =>
    simp only [bind, run]
    split
    · next reply s' h => exact ih reply s'
    · rfl

/-- What every request keeps, every program keeps. -/
theorem exec_induction {P : Tables → Prop}
    (keeps : ∀ p t, P t → P (Tables.perform now p t).2) (x : Tx α) {t : Tables} (ht : P t) :
    P (x.exec now t).2 := by
  induction x generalizing t with
  | done a => exact ht
  | call p next ih => exact ih _ (keeps p t ht)

/-- In an open transaction no request fails, so the program runs to its end. -/
theorem run_eq (x : Tx α) {s : MemoryStore} {t : Tables} (h : s.staged = some t) :
    x.run (memoryStore.perform now) s =
      (.ok (x.exec now t).1, { s with staged := some (x.exec now t).2 }) := by
  induction x generalizing s t with
  | done a =>
    obtain ⟨shared, staged, refuses⟩ := s
    cases h
    rfl
  | call p next ih =>
    rw [run]
    simp only [memoryStore, MemoryStore.perform, h, Option.getD_some]
    exact ih _ rfl

end Tx

namespace MemoryStore

variable {α : Type} {now : Timestamp} {s : MemoryStore}

/-- Why a commit of a store that refuses commits fails. -/
def refusal : AccessError := .transaction "memory" "injected commit failure"

theorem transact_of_staged {t : Tables} (h : s.staged = some t) (body : Tx (Ending α)) :
    memoryStore.transact now body s = (.error .waiting, s) := by
  simp only [Store.transact, memoryStore, start, h]

/-- A transaction starts if no other one is open. -/
theorem start_eq_ok {s' : MemoryStore} :
    memoryStore.start s = (.ok (), s') ↔
      s.staged = none ∧ s' = { s with staged := some s.shared } := by
  simp only [memoryStore, start]
  cases s.staged <;> simp [eq_comm]

theorem start_eq_error {stop : Stop} {s' : MemoryStore}
    (h : memoryStore.start s = (.error stop, s')) : s' = s := by
  simp only [memoryStore, start] at h
  cases hstaged : s.staged with
  | some t =>
    rw [hstaged] at h
    exact (congrArg Prod.snd h).symm
  | none =>
    rw [hstaged] at h
    cases h

/-- A commit puts the tables of the open transaction in the place of the shared ones. -/
theorem commit_eq_ok {s' : MemoryStore} {t : Tables} (hstaged : s.staged = some t) :
    memoryStore.commit s = (.ok (), s') ↔
      s.refusesCommits = false ∧ s' = { s with shared := t, staged := none } := by
  simp only [memoryStore, commit, hstaged]
  cases s.refusesCommits <;> simp [eq_comm]

theorem commit_eq_error {e : AccessError} {s' : MemoryStore}
    (h : memoryStore.commit s = (.error e, s')) :
    e = refusal ∧ s' = memoryStore.rollBack s := by
  simp only [memoryStore, commit] at h
  split at h
  · cases h
    exact ⟨rfl, rfl⟩
  · cases h

/-- A transaction is one execution on the shared tables. It takes their place if it commits, and
leaves no trace otherwise. -/
theorem transact_eq (h : s.staged = none) (body : Tx (Ending α)) :
    memoryStore.transact now body s =
      match body.exec now s.shared with
      | (.rollBack answer, _) => (.ok answer, s)
      | (.commit answer, t) =>
        if s.refusesCommits then (.error (.failed refusal), s)
        else (.ok answer, { s with shared := t }) := by
  obtain ⟨shared, staged, refuses⟩ := s
  cases h
  have hrun : body.run (memoryStore.perform now) ⟨shared, some shared, refuses⟩ = _ :=
    body.run_eq rfl
  rw [Store.transact]
  simp only [memoryStore, start] at hrun ⊢
  rw [hrun]
  rcases body.exec now shared with ⟨⟨answer⟩ | ⟨answer⟩, t⟩
  · cases refuses <;> rfl
  · rfl

/-- A program that wants to give up leaves no trace. -/
theorem transact_of_rollBack {body : Tx (Ending α)} {answer : α} {t : Tables}
    (h : s.staged = none) (hbody : body.exec now s.shared = (.rollBack answer, t)) :
    memoryStore.transact now body s = (.ok answer, s) := by
  rw [transact_eq h, hbody]

/-- A program that wants to commit, and cannot, leaves no trace either. -/
theorem transact_of_refused {body : Tx (Ending α)} {answer : α} {t : Tables}
    (h : s.staged = none) (hrefuses : s.refusesCommits = true)
    (hbody : body.exec now s.shared = (.commit answer, t)) :
    memoryStore.transact now body s = (.error (.failed refusal), s) := by
  rw [transact_eq h, hbody]
  simp only [hrefuses, if_true]

/-- A program that wants to commit, and can, puts its tables in the place of the shared ones. -/
theorem transact_of_commit {body : Tx (Ending α)} {answer : α} {t : Tables}
    (h : s.staged = none) (hkeeps : s.refusesCommits = false)
    (hbody : body.exec now s.shared = (.commit answer, t)) :
    memoryStore.transact now body s = (.ok answer, { s with shared := t }) := by
  rw [transact_eq h, hbody]
  simp only [hkeeps, Bool.false_eq_true, if_false]

theorem once_of_staged {t : Tables} (h : s.staged = some t) (body : Tx α) :
    memoryStore.once now body s = (.error .waiting, s) :=
  transact_of_staged h _

theorem once_eq (h : s.staged = none) (body : Tx α) :
    memoryStore.once now body s =
      if s.refusesCommits then (.error (.failed refusal), s)
      else (.ok (body.exec now s.shared).1, { s with shared := (body.exec now s.shared).2 }) := by
  rw [Store.once, transact_eq h, Tx.exec_bind, Tx.exec_pure]

/-- No transaction is open, and commits are not refused. -/
def Free (s : MemoryStore) : Prop := s.staged = none ∧ s.refusesCommits = false

instance : Decidable s.Free := inferInstanceAs (Decidable (_ ∧ _))

theorem once_of_free (h : s.Free) (now : Timestamp) (body : Tx α) :
    memoryStore.once now body s =
      (.ok (body.exec now s.shared).1, { s with shared := (body.exec now s.shared).2 }) := by
  rw [once_eq h.1, h.2]
  rfl

theorem once_of_not_free (h : ¬ s.Free) (now : Timestamp) (body : Tx α) :
    ∃ stop, memoryStore.once now body s = (.error stop, s) := by
  cases hstaged : s.staged with
  | some t => exact ⟨.waiting, once_of_staged hstaged body⟩
  | none =>
    cases hrefuses : s.refusesCommits with
    | true => exact ⟨.failed refusal, by rw [once_eq hstaged, hrefuses]; rfl⟩
    | false => exact absurd ⟨hstaged, hrefuses⟩ h

/-- A call that has an answer has found the store free. -/
theorem free_of_once {answer : α} {left : MemoryStore} {body : Tx α}
    (h : memoryStore.once now body s = (.ok answer, left)) : s.Free := by
  refine Decidable.byContradiction fun hbusy => ?_
  obtain ⟨stop, hstop⟩ := once_of_not_free hbusy now body
  rw [hstop] at h
  cases h

/-- A call fails and changes nothing, or does what its program does. -/
theorem once_cases (now : Timestamp) (s : MemoryStore) (body : Tx α) :
    (∃ stop, memoryStore.once now body s = (.error stop, s)) ∨
    memoryStore.once now body s =
      (.ok (body.exec now s.shared).1, { s with shared := (body.exec now s.shared).2 }) := by
  by_cases hfree : s.Free
  · exact .inr (once_of_free hfree now body)
  · exact .inl (once_of_not_free hfree now body)

/-- While no transaction is open and commits are not refused, the result is this answer; and if
there is an answer at all, it is this one. -/
def Answers (s : MemoryStore) (result : Except Stop α) (answer : α) : Prop :=
  (s.staged = none → s.refusesCommits = false → result = .ok answer) ∧
    ∀ other, result = .ok other → other = answer

theorem answers_once (now : Timestamp) (s : MemoryStore) (body : Tx α) :
    s.Answers (memoryStore.once now body s).1 (body.exec now s.shared).1 := by
  constructor
  · intro hstaged hrefuses
    rw [once_eq hstaged, hrefuses]
    rfl
  · intro other hother
    rcases once_cases now s body with ⟨stop, hran⟩ | hran
    · rw [hran] at hother
      cases hother
    · rw [hran] at hother
      exact (Except.ok.inj hother).symm

/-- The call succeeds exactly if the store is free, and this then holds of its answer and of the
tables it leaves. -/
def Yields (s : MemoryStore) (now : Timestamp) (body : Tx α) (P : α → Tables → Prop) : Prop :=
  ((∃ answer, (memoryStore.once now body s).1 = .ok answer) ↔ s.Free) ∧
    ∀ answer, (memoryStore.once now body s).1 = .ok answer →
      P answer (memoryStore.once now body s).2.shared

theorem yields_of_exec {body : Tx α} {P : α → Tables → Prop}
    (h : P (body.exec now s.shared).1 (body.exec now s.shared).2) : s.Yields now body P := by
  by_cases hfree : s.Free
  · rw [Yields, once_of_free hfree]
    refine ⟨⟨fun _ => hfree, fun _ => ⟨_, rfl⟩⟩, fun answer hanswer => ?_⟩
    rw [← Except.ok.inj hanswer]
    exact h
  · obtain ⟨stop, hran⟩ := once_of_not_free hfree now body
    rw [Yields, hran]
    exact ⟨⟨nofun, fun hfree' => absurd hfree' hfree⟩, nofun⟩

end MemoryStore

end RepoAccess

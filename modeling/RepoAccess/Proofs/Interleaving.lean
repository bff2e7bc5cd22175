/-
Clients whose transactions run between one another's steps.

* `Errand`, `Session` — what a client wants done in one transaction, and such a transaction on its
  way;
* `Crowd`, `Crowd.Move` — any number of clients with one store in memory, and what may happen next:
  a client begins or waits, makes one request, commits, gives up, or drops its transaction; at any
  time commits may come to be refused, or no longer so;
* `MemoryStore.serial` — the store after the committed errands alone, one whole transaction after
  another; `Tables.published` — the tables that their programs leave behind;
* `Crowd.Orderly` — what is true all the time, `Crowd.Move.orderly` — each move keeps it;
* `Crowd.exists_moves` — a whole transaction is a run of moves;
* `transactions_are_serializable` — the tables and all answers are those of the serial run.

An open transaction works on the tables that it has found, and nobody else can begin meanwhile, so
they are still the shared ones when it ends. What it has left to do goes on from where the whole
program would be by then.
-/
import Mathlib.Logic.Function.Basic
import Mathlib.Logic.Relation
import RepoAccess.Proofs.Execution

namespace RepoAccess

open Relation

/-! ### Clients -/

/-- What a client wants done in one transaction. -/
structure Errand where
  {Answer : Type}
  now : Timestamp
  body : Tx (Ending Answer)

/-- A transaction on its way: what is left to do, and the shared tables that it has found. -/
structure Session where
  errand : Errand
  left : Tx (Ending errand.Answer)
  origin : Tables

/-- How a transaction has ended. -/
inductive Fate (Answer : Type) where
  | committed (answer : Answer)
  | gaveUp (answer : Answer)
  /-- The commit has failed. -/
  | refused (e : AccessError)
  /-- The client has dropped the transaction on its way. -/
  | dropped

/-- How a transaction ends that is neither refused nor dropped. -/
def Fate.ofEnding {Answer : Type} : Ending Answer → Fate Answer
  | .commit answer => .committed answer
  | .rollBack answer => .gaveUp answer

/-- A transaction that has ended. -/
structure Receipt where
  errand : Errand
  fate : Fate errand.Answer

/-- Clients with one store in memory: who has a transaction open, and which have ended, in the order
in which they did. -/
structure Crowd (ι : Type) where
  store : MemoryStore
  sessions : ι → Option Session
  log : List Receipt

namespace Crowd

variable {ι : Type} [DecidableEq ι]

/-- Nobody has begun yet. -/
def idle (s : MemoryStore) : Crowd ι := ⟨s, fun _ => none, []⟩

/-- A client's transaction goes on like this. -/
def carry (c : Crowd ι) (i : ι) (s : MemoryStore) (session : Session) : Crowd ι :=
  { c with store := s, sessions := Function.update c.sessions i (some session) }

/-- A client's transaction has ended. -/
def close (c : Crowd ι) (i : ι) (s : MemoryStore) (receipt : Receipt) : Crowd ι :=
  ⟨s, Function.update c.sessions i none, c.log ++ [receipt]⟩

/-- What may happen next. -/
inductive Move : Crowd ι → Crowd ι → Prop where
  | begin {c : Crowd ι} {s : MemoryStore} (i : ι) (errand : Errand) (idle : c.sessions i = none)
      (started : memoryStore.start c.store = (.ok (), s)) :
    Move c (c.carry i s ⟨errand, errand.body, c.store.shared⟩)
  /-- A client cannot begin yet. -/
  | wait {c : Crowd ι} {s : MemoryStore} {stop : Stop} (i : ι) (idle : c.sessions i = none)
      (stopped : memoryStore.start c.store = (.error stop, s)) :
    Move c { c with store := s }
  | request {c : Crowd ι} {s : MemoryStore} (i : ι) {errand : Errand} {p : Primitive}
      {next : p.Reply → Tx (Ending errand.Answer)} {origin : Tables} {reply : p.Reply}
      (busy : c.sessions i = some ⟨errand, .call p next, origin⟩)
      (answered : memoryStore.perform errand.now p c.store = (.ok reply, s)) :
    Move c (c.carry i s ⟨errand, next reply, origin⟩)
  | commit {c : Crowd ι} {s : MemoryStore} (i : ι) {errand : Errand} {answer : errand.Answer}
      {origin : Tables} (busy : c.sessions i = some ⟨errand, .done (.commit answer), origin⟩)
      (kept : memoryStore.commit c.store = (.ok (), s)) :
    Move c (c.close i s ⟨errand, .committed answer⟩)
  | refuse {c : Crowd ι} {s : MemoryStore} {e : AccessError} (i : ι) {errand : Errand}
      {answer : errand.Answer} {origin : Tables}
      (busy : c.sessions i = some ⟨errand, .done (.commit answer), origin⟩)
      (failed : memoryStore.commit c.store = (.error e, s)) :
    Move c (c.close i s ⟨errand, .refused e⟩)
  | giveUp {c : Crowd ι} (i : ι) {errand : Errand} {answer : errand.Answer} {origin : Tables}
      (busy : c.sessions i = some ⟨errand, .done (.rollBack answer), origin⟩) :
    Move c (c.close i (memoryStore.rollBack c.store) ⟨errand, .gaveUp answer⟩)
  | drop {c : Crowd ι} (i : ι) {session : Session} (busy : c.sessions i = some session) :
    Move c (c.close i (memoryStore.rollBack c.store) ⟨session.errand, .dropped⟩)
  /-- From now on commits are refused, or no longer so. -/
  | refuseCommits {c : Crowd ι} (refuses : Bool) :
    Move c { c with store := { c.store with refusesCommits := refuses } }

end Crowd

/-! ### One transaction after another -/

/-- Whether the transaction has committed. -/
def Receipt.isCommitted (r : Receipt) : Bool :=
  match r.fate with
  | .committed _ => true
  | _ => false

/-- The tables after the programs of the committed errands alone, each run on those that the ones
before it have left. -/
def Tables.published (t : Tables) (log : List Receipt) : Tables :=
  (log.filter Receipt.isCommitted).foldl (fun t r => (r.errand.body.exec r.errand.now t).2) t

theorem Tables.published_append (t : Tables) (log : List Receipt) (r : Receipt) :
    t.published (log ++ [r]) =
      if r.isCommitted then (r.errand.body.exec r.errand.now (t.published log)).2
      else t.published log := by
  rw [published, List.filter_append, List.foldl_append, published]
  cases h : r.isCommitted <;> simp [h]

namespace MemoryStore

/-- The store after the committed errands alone, each in a transaction from beginning to end. -/
def serial (s : MemoryStore) (log : List Receipt) : MemoryStore :=
  (log.filter Receipt.isCommitted).foldl
    (fun s r => (memoryStore.transact r.errand.now r.errand.body s).2) s

/-- What a transaction was told is what it is told alone in this store. -/
def Tells (s : MemoryStore) (r : Receipt) : Prop :=
  match r.fate with
  | .committed answer =>
    (r.errand.body.exec r.errand.now s.shared).1 = .commit answer ∧
      (memoryStore.transact r.errand.now r.errand.body s).1 = .ok answer
  | .gaveUp answer => memoryStore.transact r.errand.now r.errand.body s = (.ok answer, s)
  | .refused e =>
    let refusing := { s with refusesCommits := true }
    memoryStore.transact r.errand.now r.errand.body refusing = (.error (.failed e), refusing)
  | .dropped => True

variable {s : MemoryStore}

theorem free_transact {α : Type} (hs : s.Free) (now : Timestamp) (body : Tx (Ending α)) :
    (memoryStore.transact now body s).2.Free := by
  rcases hbody : body.exec now s.shared with ⟨⟨answer⟩ | ⟨answer⟩, t⟩
  · rw [transact_of_commit hs.1 hs.2 hbody]
    exact hs
  · rw [transact_of_rollBack hs.1 hbody]
    exact hs

theorem free_serial (hs : s.Free) (log : List Receipt) : (s.serial log).Free := by
  rw [serial]
  induction log.filter Receipt.isCommitted generalizing s with
  | nil => exact hs
  | cons r log ih => exact ih (free_transact hs r.errand.now r.errand.body)

theorem serial_append (s : MemoryStore) (log : List Receipt) (r : Receipt) :
    s.serial (log ++ [r]) =
      if r.isCommitted then (memoryStore.transact r.errand.now r.errand.body (s.serial log)).2
      else s.serial log := by
  rw [serial, List.filter_append, List.foldl_append, serial]
  cases h : r.isCommitted <;> simp [h]

end MemoryStore

namespace Crowd

variable {ι : Type} [DecidableEq ι] {c c' : Crowd ι} {s : MemoryStore}

/-! ### What is true all the time -/

/-- A client has a transaction open, and nobody else has. It works on these tables, which the rest
of its program takes to where the whole program takes those that it has found; and those are still
the shared ones. -/
structure Holds (c : Crowd ι) (i : ι) (session : Session) (t : Tables) : Prop where
  busy : c.sessions i = some session
  others : ∀ j, j ≠ i → c.sessions j = none
  origin : session.origin = c.store.shared
  exec : session.errand.body.exec session.errand.now session.origin =
    session.left.exec session.errand.now t

/-- All clients together have done to the store what the committed errands alone do to it, and were
told what these are told. At most one of them has a transaction open. -/
structure Orderly (s : MemoryStore) (c : Crowd ι) : Prop where
  idle : c.store.staged = none → ∀ i, c.sessions i = none
  busy : ∀ t, c.store.staged = some t → ∃ i session, c.Holds i session t
  shared : c.store.shared = (s.serial c.log).shared
  published : c.store.shared = s.shared.published c.log
  tells : ∀ earlier r later, c.log = earlier ++ r :: later → (s.serial earlier).Tells r

/-- Who has a transaction open is the one who holds the store. -/
theorem Orderly.holds (hc : c.Orderly s) {i : ι} {session : Session}
    (h : c.sessions i = some session) :
    ∃ t, c.store.staged = some t ∧ c.Holds i session t := by
  cases hstaged : c.store.staged with
  | none =>
    rw [hc.idle hstaged i] at h
    cases h
  | some t =>
    obtain ⟨j, session', hholds⟩ := hc.busy t hstaged
    by_cases hsame : i = j
    · subst hsame
      cases h.symm.trans hholds.busy
      exact ⟨t, rfl, hholds⟩
    · rw [hholds.others i hsame] at h
      cases h

/-- The other clients are idle, and so is this one now. -/
theorem Holds.idle_after {i : ι} {session : Session} {t : Tables} (h : c.Holds i session t)
    (j : ι) : Function.update c.sessions i none j = none := by
  by_cases hsame : j = i
  · rw [hsame, Function.update_self]
  · rw [Function.update_of_ne hsame]
    exact h.others j hsame

omit [DecidableEq ι] in
/-- One more receipt that tells what the serial run tells. -/
theorem Orderly.tells_append (hc : c.Orderly s) {r : Receipt} (hr : (s.serial c.log).Tells r)
    (earlier : List Receipt) (r' : Receipt) (later : List Receipt)
    (h : c.log ++ [r] = earlier ++ r' :: later) : (s.serial earlier).Tells r' := by
  rcases List.eq_nil_or_concat later with rfl | ⟨before, last, rfl⟩
  · obtain ⟨rfl, hlast⟩ := List.append_inj' h rfl
    cases hlast
    exact hr
  · have hsplit : c.log ++ [r] = (earlier ++ r' :: before) ++ [last] := by
      rw [h, List.concat_eq_append, List.append_assoc, List.cons_append]
    obtain ⟨hlog, -⟩ := List.append_inj' hsplit rfl
    exact hc.tells earlier r' before hlog

omit [DecidableEq ι] in
/-- The whole program of a transaction that has come to its end, run on what the serial run has
left. -/
theorem Orderly.exec_of_done (hc : c.Orderly s) {i : ι} {errand : Errand}
    {ending : Ending errand.Answer} {origin t : Tables}
    (h : c.Holds i ⟨errand, .done ending, origin⟩ t) :
    errand.body.exec errand.now (s.serial c.log).shared = (ending, t) := by
  rw [← hc.shared, ← h.origin]
  exact h.exec

/-- A transaction has ended without a trace. -/
theorem Orderly.close_without_trace (hc : c.Orderly s) {i : ι} {session : Session} {t : Tables}
    (hholds : c.Holds i session t) {r : Receipt} (hr : r.isCommitted = false)
    (htells : (s.serial c.log).Tells r) :
    (c.close i (memoryStore.rollBack c.store) r).Orderly s where
  idle := fun _ => hholds.idle_after
  busy := nofun
  shared := by
    show c.store.shared = (s.serial (c.log ++ [r])).shared
    rw [hc.shared, s.serial_append, hr, if_neg Bool.false_ne_true]
  published := by
    show c.store.shared = s.shared.published (c.log ++ [r])
    rw [hc.published, Tables.published_append, hr, if_neg Bool.false_ne_true]
  tells := hc.tells_append htells

/-! ### One move -/

/-- A transaction has committed. -/
theorem Orderly.commit (hc : c.Orderly s) (hs : s.Free) {i : ι} {errand : Errand}
    {answer : errand.Answer} {origin t : Tables}
    (hholds : c.Holds i ⟨errand, .done (.commit answer), origin⟩ t) :
    (c.close i { c.store with shared := t, staged := none } ⟨errand, .committed answer⟩).Orderly
      s := by
  have hserial := MemoryStore.free_serial hs c.log
  -- The whole program, run on what the serial run has left, ends where the open transaction is.
  have hexec := hc.exec_of_done hholds
  have hran := MemoryStore.transact_of_commit hserial.1 hserial.2 hexec
  refine ⟨fun _ => hholds.idle_after, nofun, ?_, ?_, hc.tells_append ⟨?_, ?_⟩⟩
  · show t = (s.serial (c.log ++ [_])).shared
    rw [s.serial_append, Receipt.isCommitted, if_pos rfl, hran]
  · show t = s.shared.published (c.log ++ [_])
    rw [Tables.published_append, Receipt.isCommitted, if_pos rfl, ← hc.published, hc.shared]
    exact (congrArg Prod.snd hexec).symm
  · rw [hexec]
  · rw [hran]

/-- Each move keeps the crowd in order. -/
theorem Move.orderly (h : Move c c') (hs : s.Free) (hc : c.Orderly s) : c'.Orderly s := by
  have hserial := MemoryStore.free_serial hs c.log
  cases h with
  | @begin s' i errand _ started =>
    obtain ⟨hstaged, rfl⟩ := MemoryStore.start_eq_ok.1 started
    refine ⟨fun h => absurd h (Option.some_ne_none _), fun t ht => ?_, hc.shared, hc.published,
      hc.tells⟩
    cases ht
    refine ⟨i, _, Function.update_self .., fun j hj => ?_, rfl, rfl⟩
    exact (Function.update_of_ne hj ..).trans (hc.idle hstaged j)
  | wait i _ stopped =>
    obtain rfl := MemoryStore.start_eq_error stopped
    exact hc
  | @request s' i errand p next origin reply busy answered =>
    obtain ⟨t, hstaged, hholds⟩ := hc.holds busy
    simp only [memoryStore, MemoryStore.perform, hstaged, Option.getD_some] at answered
    cases answered
    -- One step of the rest is one step of the whole: `hholds.exec` still holds.
    refine ⟨fun h => absurd h (Option.some_ne_none _), fun t' ht' => ?_, hc.shared,
      hc.published, hc.tells⟩
    cases ht'
    refine ⟨i, _, Function.update_self .., fun j hj => ?_, hholds.origin, hholds.exec⟩
    exact (Function.update_of_ne hj ..).trans (hholds.others j hj)
  | commit i busy kept =>
    obtain ⟨t, hstaged, hholds⟩ := hc.holds busy
    obtain ⟨-, rfl⟩ := (MemoryStore.commit_eq_ok hstaged).1 kept
    exact hc.commit hs hholds
  | @refuse s' e i errand answer origin busy failed =>
    obtain ⟨t, hstaged, hholds⟩ := hc.holds busy
    -- A commit that fails drops the transaction, as if the client had done so.
    obtain ⟨rfl, rfl⟩ := MemoryStore.commit_eq_error failed
    refine hc.close_without_trace hholds rfl ?_
    exact MemoryStore.transact_of_refused (s := { s.serial c.log with refusesCommits := true })
      hserial.1 rfl (hc.exec_of_done hholds)
  | giveUp i busy =>
    obtain ⟨t, hstaged, hholds⟩ := hc.holds busy
    refine hc.close_without_trace hholds rfl ?_
    exact MemoryStore.transact_of_rollBack hserial.1 (hc.exec_of_done hholds)
  | drop i busy =>
    obtain ⟨t, hstaged, hholds⟩ := hc.holds busy
    exact hc.close_without_trace hholds rfl trivial
  | refuseCommits refuses =>
    refine ⟨hc.idle, fun t ht => ?_, hc.shared, hc.published, hc.tells⟩
    obtain ⟨i, session, hholds⟩ := hc.busy t ht
    exact ⟨i, session, ⟨hholds.busy, hholds.others, hholds.origin, hholds.exec⟩⟩

/-- What has ended stays in the log. -/
theorem Move.log_prefix (h : Move c c') : ∃ later, c'.log = c.log ++ later := by
  cases h with
  | commit | refuse | giveUp | drop => exact ⟨[_], rfl⟩
  | _ => exact ⟨[], (List.append_nil _).symm⟩

/-! ### Runs -/

omit [DecidableEq ι] in
theorem orderly_idle (hs : s.staged = none) :
    (idle s : Crowd ι).Orderly { s with refusesCommits := false } where
  idle := fun _ _ => rfl
  busy := fun t ht => absurd (hs.symm.trans ht) nofun
  shared := rfl
  published := rfl
  tells := by
    intro earlier r later h
    simp [Crowd.idle] at h

theorem orderly_of_moves (hs : s.Free) (hc : c.Orderly s) (hrun : ReflTransGen Move c c') :
    c'.Orderly s := by
  induction hrun with
  | refl => exact hc
  | tail _ hmove ih => exact hmove.orderly hs ih

theorem log_prefix_of_moves (hrun : ReflTransGen Move c c') :
    ∃ later, c'.log = c.log ++ later := by
  induction hrun with
  | refl => exact ⟨[], (List.append_nil _).symm⟩
  | tail _ hmove ih =>
    obtain ⟨first, hfirst⟩ := ih
    obtain ⟨last, hlast⟩ := hmove.log_prefix
    exact ⟨first ++ last, by rw [hlast, hfirst, List.append_assoc]⟩

/-- A client makes the requests of its program one after another. -/
theorem exists_requests {i : ι} {errand : Errand} {origin : Tables}
    (left : Tx (Ending errand.Answer)) {t : Tables}
    (busy : c.sessions i = some ⟨errand, left, origin⟩) (hstaged : c.store.staged = some t) :
    ∃ c', ReflTransGen Move c c' ∧
      c'.sessions i = some ⟨errand, .done (left.exec errand.now t).1, origin⟩ ∧
      c'.store = { c.store with staged := some (left.exec errand.now t).2 } ∧
      c'.log = c.log := by
  induction left generalizing c t with
  | done ending =>
    refine ⟨c, .refl, busy, ?_, rfl⟩
    show c.store = { c.store with staged := some t }
    rw [← hstaged]
  | call p next ih =>
    have hperform : memoryStore.perform errand.now p c.store =
        (.ok (Tables.perform errand.now p t).1,
          { c.store with staged := some (Tables.perform errand.now p t).2 }) := by
      simp only [memoryStore, MemoryStore.perform, hstaged, Option.getD_some]
    obtain ⟨c', hrun, hbusy, hstore, hlog⟩ := ih (Tables.perform errand.now p t).1
      (c := c.carry i { c.store with staged := some (Tables.perform errand.now p t).2 } _)
      (Function.update_self ..) rfl
    exact ⟨c', .head (.request i busy hperform) hrun, hbusy, hstore, hlog⟩

/-- A whole transaction is a run of moves. -/
theorem exists_moves (hidle : ∀ j, c.sessions j = none) (hfree : c.store.Free) (i : ι)
    (errand : Errand) :
    ∃ c', ReflTransGen Move c c' ∧
      c'.store = (memoryStore.transact errand.now errand.body c.store).2 ∧
      c'.log = c.log ++
        [⟨errand, .ofEnding (errand.body.exec errand.now c.store.shared).1⟩] := by
  obtain ⟨⟨shared, staged, refuses⟩, sessions, log⟩ := c
  obtain ⟨rfl, rfl⟩ : staged = none ∧ refuses = false := hfree
  obtain ⟨c', hrun, hbusy, hstore, hlog⟩ := exists_requests (i := i) errand.body
    (c := carry ⟨⟨shared, none, false⟩, sessions, log⟩ i ⟨shared, some shared, false⟩
      ⟨errand, errand.body, shared⟩) (Function.update_self ..) rfl
  have hbegin := ReflTransGen.head
    (.begin i errand (hidle i) (MemoryStore.start_eq_ok.2 ⟨rfl, rfl⟩)) hrun
  have hclose : ∀ receipt, c'.log ++ [receipt] = log ++ [receipt] := fun receipt => by
    rw [hlog]
    rfl
  rcases hbody : errand.body.exec errand.now shared with ⟨⟨answer⟩ | ⟨answer⟩, t⟩
  · rw [hbody] at hbusy hstore
    have hkept : memoryStore.commit c'.store = (.ok (), ⟨t, none, false⟩) := by
      rw [hstore]
      rfl
    refine ⟨_, hbegin.tail (.commit i hbusy hkept), ?_, hclose _⟩
    rw [MemoryStore.transact_of_commit rfl rfl hbody]
    rfl
  · rw [hbody] at hbusy hstore
    refine ⟨_, hbegin.tail (.giveUp i hbusy), ?_, hclose _⟩
    rw [MemoryStore.transact_of_rollBack rfl hbody, close, hstore]
    rfl

end Crowd

/-- Whatever clients do in whatever order, at most one of them has a transaction open, the tables
that it has found are the shared ones as long as it is open, and nobody can begin meanwhile, but
otherwise everybody can. The shared tables are those of the committed errands alone, each in a
transaction from beginning to end, in the order in which they have committed: a commit publishes all
that the program of its errand has done. The answer of a transaction, or its failure to commit, is
the one that it has alone after those that have committed before it. What has committed stays so.
And where nobody has a transaction open and commits are not refused, every client can have every
errand done. -/
theorem transactions_are_serializable {ι : Type} [DecidableEq ι] {s : MemoryStore}
    (hs : s.staged = none) {c : Crowd ι} (hrun : ReflTransGen Crowd.Move (.idle s) c) :
    let alone : MemoryStore := { s with refusesCommits := false }
    (∀ i j a b, c.sessions i = some a → c.sessions j = some b → i = j) ∧
    (∀ i session, c.sessions i = some session → session.origin = c.store.shared) ∧
    ((memoryStore.start c.store).1 = .ok () ↔ ∀ i, c.sessions i = none) ∧
    c.store.shared = (alone.serial c.log).shared ∧
    c.store.shared = s.shared.published c.log ∧
    (∀ earlier r later, c.log = earlier ++ r :: later → (alone.serial earlier).Tells r) ∧
    (∀ c', ReflTransGen Crowd.Move c c' → ∃ later, c'.log = c.log ++ later) ∧
    ((∀ i, c.sessions i = none) → c.store.refusesCommits = false → ∀ (_ : ι) (errand : Errand),
      ∃ c', ReflTransGen Crowd.Move c c' ∧
        c'.store = (memoryStore.transact errand.now errand.body c.store).2 ∧
        c'.log = c.log ++
          [⟨errand, .ofEnding (errand.body.exec errand.now c.store.shared).1⟩]) := by
  intro alone
  have hc : c.Orderly alone := Crowd.orderly_of_moves ⟨hs, rfl⟩ (Crowd.orderly_idle hs) hrun
  have hidle : (memoryStore.start c.store).1 = .ok () ↔ ∀ i, c.sessions i = none := by
    constructor
    · intro hstart
      exact hc.idle (MemoryStore.start_eq_ok.1 (Prod.ext hstart rfl)).1
    · intro hnobody
      cases hstaged : c.store.staged with
      | none => rw [MemoryStore.start_eq_ok.2 ⟨hstaged, rfl⟩]
      | some t =>
        obtain ⟨i, session, hholds⟩ := hc.busy t hstaged
        exact absurd (hholds.busy.symm.trans (hnobody i)) nofun
  refine ⟨fun i j a b ha hb => ?_, fun i session h => ?_, hidle, hc.shared,
    hc.published, hc.tells, fun _ => Crowd.log_prefix_of_moves, fun hnobody hkeeps i errand => ?_⟩
  · obtain ⟨t, -, hholds⟩ := hc.holds ha
    by_cases hsame : i = j
    · exact hsame
    · exact absurd (hb.symm.trans (hholds.others j (Ne.symm hsame))) nofun
  · obtain ⟨t, -, hholds⟩ := hc.holds h
    exact hholds.origin
  · have hstaged := (MemoryStore.start_eq_ok.1 (Prod.ext (hidle.2 hnobody) rfl)).1
    exact Crowd.exists_moves hnobody ⟨hstaged, hkeeps⟩ i errand

/-- Three clients: one commits while another waits, that one then drops its transaction after a
write, and the third one's commit is refused. -/
theorem transactions_are_serializable_for_three :
    let rules : Errand := ⟨⟨0, 0⟩, do
      Tx.request (.saveOverlay ⟨7⟩ ⟨1⟩ ⟨["/docs/**"]⟩)
      return .commit (1 : Nat)⟩
    let count : Errand := ⟨⟨1, 0⟩, do
      let deleted ← Tx.request (.deleteOverlays ⟨7⟩)
      return .commit deleted⟩
    let refusal := MemoryStore.refusal
    ∃ c c' : Crowd (Fin 3), ReflTransGen Crowd.Move (.idle {}) c ∧
      c.log = [⟨rules, .committed (1 : Nat)⟩, ⟨count, .dropped⟩, ⟨count, .refused refusal⟩] ∧
      c.store.shared = (({} : MemoryStore).serial c.log).shared ∧
      c.store.shared = ({} : Tables).published c.log ∧
      c.store.shared.overlays = {(⟨⟨7⟩, ⟨1⟩⟩, ⟨["/docs/**"]⟩)} ∧
      ReflTransGen Crowd.Move c c' ∧ c'.log = c.log ++ [⟨count, .committed (1 : Nat)⟩] := by
  intro rules count refusal
  let written : Tables := { overlays := {(⟨⟨7⟩, ⟨1⟩⟩, ⟨["/docs/**"]⟩)} }
  obtain ⟨c, hrun, hnobody, hstore, hlog⟩ : ∃ c : Crowd (Fin 3),
      ReflTransGen Crowd.Move (.idle {}) c ∧ (∀ i, c.sessions i = none) ∧
      c.store = { shared := written } ∧
      c.log = [⟨rules, .committed (1 : Nat)⟩, ⟨count, .dropped⟩, ⟨count, .refused refusal⟩] := by
    have h : ReflTransGen Crowd.Move (.idle {} : Crowd (Fin 3)) _ :=
      .single (.begin 0 rules rfl (MemoryStore.start_eq_ok.2 ⟨rfl, rfl⟩))
    have h := h.tail (.wait 1 rfl rfl)
    have h := h.tail (.request 0 rfl rfl)
    have h := h.tail (.commit 0 rfl rfl)
    have h := h.tail (.begin 1 count rfl (MemoryStore.start_eq_ok.2 ⟨rfl, rfl⟩))
    have h := h.tail (.request 1 rfl rfl)
    have h := h.tail (.drop 1 rfl)
    have h := h.tail (.refuseCommits true)
    have h := h.tail (.begin 2 count rfl (MemoryStore.start_eq_ok.2 ⟨rfl, rfl⟩))
    have h := h.tail (.request 2 rfl rfl)
    have h := h.tail (.refuse 2 rfl rfl)
    have h := h.tail (.refuseCommits false)
    exact ⟨_, h, by decide +kernel, rfl, rfl⟩
  obtain ⟨-, -, -, hshared, hpublished, -, -, hmore⟩ := transactions_are_serializable rfl hrun
  obtain ⟨c', hrun', -, hlog'⟩ := hmore hnobody (by rw [hstore]) 2 count
  have hcount : (Tables.perform ⟨1, 0⟩ (.deleteOverlays ⟨7⟩) c.store.shared).1 = (1 : Nat) := by
    rw [hstore]
    decide +kernel
  have hending : (count.body.exec count.now c.store.shared).1 = .commit (1 : Nat) :=
    congrArg Ending.commit hcount
  rw [hending] at hlog'
  exact ⟨c, c', hrun, hlog, hshared, hpublished, by rw [hstore], hrun', hlog'⟩

end RepoAccess

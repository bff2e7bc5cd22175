/-
What is said to a database server in a transaction.

* `Exchange`, `Server.recorded` — a command with its answer, and a server that notes them all;
* `Turn` — a request that was answered, with `Turn.exchanges`, what was said for it;
* `Tx.Leads` — the program, answered turn by turn, goes on as another one;
* `Tx.Goes`, `Transcript` — all that is said for a program and in a transaction, by how it ends;
* `Server.transact_recorded`, `Mutation.effect_recorded` — a transaction, and an operation that
  writes, of a recorded server is one of the server, and what was noted is a transcript of it.

A transcript knows nothing of the server but its answers: what holds of all transcripts holds
whatever the server answers.
-/
import RepoAccess.Proofs.Mutation
import RepoAccess.Sql.Server

namespace RepoAccess

/-! ### Recorded servers -/

/-- A command with its answer. -/
structure Exchange where
  command : Command
  result : Except DatabaseError Answer

/-- A server, and what was said to it. -/
def Server.recorded {σ : Type} (server : Server σ) : Server (σ × List Exchange) where
  connect s :=
    let (result, left) := server.connect s.1
    (result, (left, s.2))
  send command s :=
    let (result, left) := server.send command s.1
    (result, (left, s.2 ++ [⟨command, result⟩]))

/-! ### Requests -/

namespace Primitive

/-- What is said to take the lock of a request, if it has one. -/
def lockExchanges (p : Primitive) (locked : Answer) : List Exchange :=
  match p.lock? with
  | some key => [⟨.run key.statement, .ok locked⟩]
  | none => []

theorem lockExchanges_of_lock {p : Primitive} {key : LockKey} (h : p.lock? = some key)
    (locked : Answer) : p.lockExchanges locked = [⟨.run key.statement, .ok locked⟩] := by
  rw [lockExchanges, h]

/-- How a request fails at a moment, and what is said until then. -/
inductive Breaks (now : Timestamp) (p : Primitive) : AccessError → List Exchange → Prop
  | lock {key : LockKey} (h : p.lock? = some key) (e : DatabaseError) :
    p.Breaks now (.database e) [⟨.run key.statement, .error e⟩]
  | statement (locked : Answer) (e : DatabaseError) :
    p.Breaks now (.database e) (p.lockExchanges locked ++ [⟨.run (p.statement now), .error e⟩])
  | decoding (locked : Answer) {answer : Answer} {e : AccessError}
    (h : p.decode answer = .error e) :
    p.Breaks now e (p.lockExchanges locked ++ [⟨.run (p.statement now), .ok answer⟩])

end Primitive

/-- A request that was answered: the answers to its lock, if it has one, and to its statement, and
what the latter says. -/
structure Turn where
  request : Primitive
  locked : Answer
  answer : Answer
  reply : request.Reply
  decoded : request.decode answer = .ok reply

/-- What is said in a turn. -/
def Turn.exchanges (now : Timestamp) (turn : Turn) : List Exchange :=
  turn.request.lockExchanges turn.locked ++
    [⟨.run (turn.request.statement now), .ok turn.answer⟩]

theorem Primitive.mem_lockExchanges {p : Primitive} {locked : Answer} {x : Exchange} :
    x ∈ p.lockExchanges locked ↔
      ∃ key, p.lock? = some key ∧ x = ⟨.run key.statement, .ok locked⟩ := by
  rw [lockExchanges]
  cases p.lock? <;> simp

/-- All that is said for a request that fails is a statement. -/
theorem Primitive.Breaks.exists_statement {now : Timestamp} {p : Primitive} {e : AccessError}
    {said : List Exchange} (h : p.Breaks now e said) {x : Exchange} (hx : x ∈ said) :
    ∃ statement, x.command = .run statement := by
  cases h with
  | lock hlock e =>
    obtain rfl := List.mem_singleton.1 hx
    exact ⟨_, rfl⟩
  | statement | decoding =>
    rcases List.mem_append.1 hx with hx | hx
    · obtain ⟨key, -, rfl⟩ := mem_lockExchanges.1 hx
      exact ⟨_, rfl⟩
    · obtain rfl := List.mem_singleton.1 hx
      exact ⟨_, rfl⟩

/-- All that is said in a turn is a statement that the server answers. -/
theorem Turn.exists_statement {now : Timestamp} {turn : Turn} {x : Exchange}
    (hx : x ∈ turn.exchanges now) :
    ∃ statement answer, x = ⟨.run statement, .ok answer⟩ := by
  rcases List.mem_append.1 hx with hx | hx
  · obtain ⟨key, -, rfl⟩ := Primitive.mem_lockExchanges.1 hx
    exact ⟨_, _, rfl⟩
  · obtain rfl := List.mem_singleton.1 hx
    exact ⟨_, _, rfl⟩

/-- So it is with all that is said in many turns. -/
theorem exists_statement_of_turns {now : Timestamp} {turns : List Turn} {x : Exchange}
    (hx : x ∈ turns.flatMap (·.exchanges now)) :
    ∃ statement answer, x = ⟨.run statement, .ok answer⟩ := by
  obtain ⟨turn, -, hturn⟩ := List.mem_flatMap.1 hx
  exact turn.exists_statement hturn

/-! ### Programs -/

namespace Tx

variable {α β : Type} {now : Timestamp}

/-- The program makes these requests, gets these replies, and goes on as the other one. -/
inductive Leads : Tx α → List Turn → Tx α → Prop
  | here (x : Tx α) : x.Leads [] x
  | turn (turn : Turn) {next : turn.request.Reply → Tx α} {turns : List Turn} {y : Tx α}
    (h : (next turn.reply).Leads turns y) : (call turn.request next).Leads (turn :: turns) y

/-- How a program goes, and what is said: it comes to its end, or a request of it fails. -/
inductive Goes (now : Timestamp) (x : Tx α) : Except AccessError α → List Exchange → Prop
  | ends {turns : List Turn} {a : α} (h : x.Leads turns (.done a)) :
    x.Goes now (.ok a) (turns.flatMap (·.exchanges now))
  | breaks {turns : List Turn} {p : Primitive} {next : p.Reply → Tx α}
    (h : x.Leads turns (.call p next)) {e : AccessError} {last : List Exchange}
    (hlast : p.Breaks now e last) :
    x.Goes now (.error e) (turns.flatMap (·.exchanges now) ++ last)

theorem Goes.turn (turn : Turn) {next : turn.request.Reply → Tx α}
    {result : Except AccessError α} {said : List Exchange}
    (h : (next turn.reply).Goes now result said) :
    (call turn.request next).Goes now result (turn.exchanges now ++ said) := by
  cases h with
  | ends h => exact .ends (.turn turn h)
  | breaks h hlast =>
    rw [← List.append_assoc]
    exact .breaks (.turn turn h) hlast

/-- All that is said for a program are statements. -/
theorem Goes.exists_statement {x : Tx α} {result : Except AccessError α} {said : List Exchange}
    (h : x.Goes now result said) {exchange : Exchange} (hmem : exchange ∈ said) :
    ∃ statement, exchange.command = .run statement := by
  cases h with
  | ends h =>
    obtain ⟨statement, answer, rfl⟩ := exists_statement_of_turns hmem
    exact ⟨statement, rfl⟩
  | breaks h hlast =>
    rcases List.mem_append.1 hmem with hmem | hmem
    · obtain ⟨statement, answer, rfl⟩ := exists_statement_of_turns hmem
      exact ⟨statement, rfl⟩
    · exact hlast.exists_statement hmem

/-- The program comes to send this statement when this was said for it. -/
inductive Sends (now : Timestamp) (x : Tx α) : List Exchange → Statement → Prop
  | lock {turns : List Turn} {p : Primitive} {next : p.Reply → Tx α}
    (h : x.Leads turns (.call p next)) {key : LockKey} (hlock : p.lock? = some key) :
    x.Sends now (turns.flatMap (·.exchanges now)) key.statement
  | request {turns : List Turn} {p : Primitive} {next : p.Reply → Tx α}
    (h : x.Leads turns (.call p next)) (locked : Answer) :
    x.Sends now (turns.flatMap (·.exchanges now) ++ p.lockExchanges locked) (p.statement now)

theorem Sends.turn (turn : Turn) {next : turn.request.Reply → Tx α} {before : List Exchange}
    {statement : Statement} (h : (next turn.reply).Sends now before statement) :
    (call turn.request next).Sends now (turn.exchanges now ++ before) statement := by
  cases h with
  | lock h hlock => exact .lock (.turn turn h) hlock
  | request h locked =>
    rw [← List.append_assoc]
    exact .request (.turn turn h) locked

/-- What was said before a statement is sent are statements, and the server has answered them. -/
theorem Sends.answered {x : Tx α} {before : List Exchange} {statement : Statement}
    (h : x.Sends now before statement) {exchange : Exchange} (hmem : exchange ∈ before) :
    ∃ statement answer, exchange = ⟨.run statement, .ok answer⟩ := by
  cases h with
  | lock h hlock => exact exists_statement_of_turns hmem
  | request h locked =>
    rcases List.mem_append.1 hmem with hmem | hmem
    · exact exists_statement_of_turns hmem
    · obtain ⟨key, -, rfl⟩ := Primitive.mem_lockExchanges.1 hmem
      exact ⟨_, _, rfl⟩

/-- What is said for one request is its lock, if it has one, and then its statement. -/
theorem sends_of_request {p : Primitive} {next : p.Reply → Tx α} {locked : Answer}
    {result result' : Except DatabaseError Answer} {before later : List Exchange}
    {statement : Statement}
    (h : p.lockExchanges locked ++ [⟨.run (p.statement now), result'⟩] =
      before ++ ⟨.run statement, result⟩ :: later) :
    (call p next).Sends now before statement := by
  have hrequest : (call p next).Sends now (p.lockExchanges locked) (p.statement now) :=
    .request (.here _) locked
  have hlast : ∀ {before : List Exchange}, [⟨.run (p.statement now), result'⟩] =
      before ++ (⟨.run statement, result⟩ : Exchange) :: later →
        before = [] ∧ statement = p.statement now := by
    intro before h
    obtain ⟨rfl, hrest⟩ | ⟨-, hrest⟩ := List.singleton_eq_append_iff.1 h
    · cases hrest
      exact ⟨rfl, rfl⟩
    · cases hrest
  cases hlock : p.lock? with
  | none =>
    rw [Primitive.lockExchanges, hlock] at h hrequest
    obtain ⟨rfl, rfl⟩ := hlast h
    exact hrequest
  | some key =>
    rw [Primitive.lockExchanges_of_lock hlock] at h hrequest
    cases before with
    | nil =>
      cases h
      exact .lock (.here _) hlock
    | cons exchange before =>
      obtain ⟨rfl, hrest⟩ := List.cons.inj h
      obtain ⟨rfl, rfl⟩ := hlast hrest
      exact hrequest

/-- What is said until a request fails is its lock, if it has one, and then its statement. -/
theorem sends_of_breaks {p : Primitive} {next : p.Reply → Tx α} {e : AccessError}
    {last : List Exchange} (hbreaks : p.Breaks now e last) {before later : List Exchange}
    {statement : Statement} {result : Except DatabaseError Answer}
    (h : last = before ++ ⟨.run statement, result⟩ :: later) :
    (call p next).Sends now before statement := by
  cases hbreaks with
  | lock hlock e =>
    obtain ⟨rfl, hrest⟩ | ⟨-, hrest⟩ := List.singleton_eq_append_iff.1 h
    · cases hrest
      exact .lock (.here _) hlock
    · cases hrest
  | statement locked e => exact sends_of_request h
  | decoding locked hdecode => exact sends_of_request h

/-- What is said for a program is what it sends turn by turn, and then what it sends from there. -/
theorem Leads.sends {x y : Tx α} {turns : List Turn} (hleads : x.Leads turns y)
    {last : List Exchange} {statement : Statement} {result : Except DatabaseError Answer}
    {later : List Exchange}
    (hlast : ∀ before, last = before ++ ⟨.run statement, result⟩ :: later →
      y.Sends now before statement)
    {before : List Exchange} (h : turns.flatMap (·.exchanges now) ++ last =
      before ++ ⟨.run statement, result⟩ :: later) :
    x.Sends now before statement := by
  induction hleads generalizing before with
  | here x => exact hlast before h
  | turn turn hleads ih =>
    rw [List.flatMap_cons, List.append_assoc] at h
    obtain ⟨rest, rfl, hrest⟩ | ⟨rest, hturn, hrest⟩ := List.append_eq_append_iff.1 h
    · exact (ih hlast hrest).turn turn
    · cases rest with
      | nil =>
        obtain rfl : turn.exchanges now = before := hturn.trans (List.append_nil before)
        have hnext : _ = [] ++ (⟨.run statement, result⟩ : Exchange) :: later := hrest.symm
        have hsends := (ih hlast hnext).turn turn
        rwa [List.append_nil] at hsends
      | cons exchange rest =>
        obtain ⟨rfl, -⟩ := List.cons.inj hrest
        exact sends_of_request hturn

/-- Whatever was said for a program was sent by it. -/
theorem Goes.sends {x : Tx α} {ran : Except AccessError α} {said : List Exchange}
    (hgoes : x.Goes now ran said) {before later : List Exchange} {statement : Statement}
    {result : Except DatabaseError Answer}
    (h : said = before ++ ⟨.run statement, result⟩ :: later) :
    x.Sends now before statement := by
  cases hgoes with
  | ends hleads =>
    refine hleads.sends (fun before hnil => ?_) ((List.append_nil _).trans h)
    cases before <;> cases hnil
  | breaks hleads hbreaks => exact hleads.sends (fun before => sends_of_breaks hbreaks) h

end Tx

/-! ### Transactions -/

/-- All that is said in a transaction at a moment, by how it ends. -/
inductive Transcript {α : Type} (now : Timestamp) (body : Tx (Ending α)) :
    Except Stop α → List Exchange → Prop
  /-- It cannot be started. -/
  | unstarted (e : DatabaseError) :
    Transcript now body (.error (.failed (.database e))) [⟨.start, .error e⟩]
  /-- A request fails. -/
  | broken (started : Answer) {e : AccessError} {said : List Exchange}
    (h : body.Goes now (.error e) said) (dropped : Except DatabaseError Answer) :
    Transcript now body (.error (.failed e))
      (⟨.start, .ok started⟩ :: (said ++ [⟨.rollBack, dropped⟩]))
  /-- The program gives up. -/
  | givenUp (started : Answer) {answer : α} {said : List Exchange}
    (h : body.Goes now (.ok (.rollBack answer)) said) (dropped : Except DatabaseError Answer) :
    Transcript now body (.ok answer) (⟨.start, .ok started⟩ :: (said ++ [⟨.rollBack, dropped⟩]))
  /-- It cannot be committed. -/
  | refused (started : Answer) {answer : α} {said : List Exchange}
    (h : body.Goes now (.ok (.commit answer)) said) (e : DatabaseError)
    (dropped : Except DatabaseError Answer) :
    Transcript now body (.error (.failed (.database e)))
      (⟨.start, .ok started⟩ :: (said ++ [⟨.commit, .error e⟩, ⟨.rollBack, dropped⟩]))
  | committed (started : Answer) {answer : α} {said : List Exchange}
    (h : body.Goes now (.ok (.commit answer)) said) (kept : Answer) :
    Transcript now body (.ok answer) (⟨.start, .ok started⟩ :: (said ++ [⟨.commit, .ok kept⟩]))

/-- Where a list is cut at its only element with a property. -/
theorem cut_unique {ι : Type} {P : ι → Prop} {a b earlier later : List ι} {c c' : ι}
    (h : a ++ c :: b = earlier ++ c' :: later) (ha : ∀ x ∈ a, ¬ P x) (hb : ∀ x ∈ b, ¬ P x)
    (hc : P c') : earlier = a := by
  rcases places_cases h with ⟨rfl, -, -⟩ | ⟨m, -, rfl⟩ | ⟨m, rfl, -⟩
  · rfl
  · exact absurd hc (hb c' (by simp))
  · exact absurd hc (ha c' (by simp))

/-- A transaction is committed, or the server refuses that, only after its program has come to its
end: each of its requests was answered, and each answer made sense. -/
theorem Transcript.before_commit {α : Type} {now : Timestamp} {body : Tx (Ending α)}
    {result : Except Stop α} {said earlier later : List Exchange}
    {kept : Except DatabaseError Answer} (h : Transcript now body result said)
    (hcommit : said = earlier ++ ⟨.commit, kept⟩ :: later) :
    ∃ started turns answer, body.Leads turns (.done (.commit answer)) ∧
      earlier = ⟨.start, .ok started⟩ :: turns.flatMap (·.exchanges now) := by
  have hmem : (⟨.commit, kept⟩ : Exchange) ∈ said := by
    rw [hcommit]
    exact List.mem_append_right _ List.mem_cons_self
  have hstarted : ∀ {started : Answer} {ran said}, body.Goes now ran said →
      ∀ x ∈ ⟨.start, .ok started⟩ :: said, x.command ≠ .commit := by
    intro started ran said hgoes x hx hcommand
    rcases List.mem_cons.1 hx with rfl | hx
    · cases hcommand
    · obtain ⟨statement, hstatement⟩ := hgoes.exists_statement hx
      rw [hcommand] at hstatement
      cases hstatement
  have hdropped : ∀ dropped, ∀ x ∈ [(⟨.rollBack, dropped⟩ : Exchange)], x.command ≠ .commit := by
    intro dropped x hx hcommand
    obtain rfl := List.mem_singleton.1 hx
    cases hcommand
  cases h with
  | unstarted e => cases List.mem_singleton.1 hmem
  | broken started hgoes dropped | givenUp started hgoes dropped =>
    rcases List.mem_append.1 (List.cons_append ▸ hmem) with hmem | hmem
    · exact absurd rfl (hstarted hgoes _ hmem)
    · exact absurd rfl (hdropped dropped _ hmem)
  | @refused started answer said hgoes e dropped =>
    obtain rfl := cut_unique (P := fun x : Exchange => x.command = .commit)
      (a := ⟨.start, .ok started⟩ :: said) hcommit (hstarted hgoes) (hdropped dropped) rfl
    cases hgoes with | ends hleads => exact ⟨started, _, answer, hleads, rfl⟩
  | @committed started answer said hgoes kept =>
    obtain rfl := cut_unique (P := fun x : Exchange => x.command = .commit)
      (a := ⟨.start, .ok started⟩ :: said) hcommit (hstarted hgoes) (fun _ hx => nomatch hx) rfl
    cases hgoes with | ends hleads => exact ⟨started, _, answer, hleads, rfl⟩

/-- Every statement in a transaction is sent by its program, after the transaction was started. -/
theorem Transcript.sends {α : Type} {now : Timestamp} {body : Tx (Ending α)}
    {result : Except Stop α} {said earlier later : List Exchange} {statement : Statement}
    {answer : Except DatabaseError Answer} (h : Transcript now body result said)
    (hsaid : said = earlier ++ ⟨.run statement, answer⟩ :: later) :
    ∃ started before, earlier = ⟨.start, .ok started⟩ :: before ∧
      body.Sends now before statement := by
  have hmiddle : ∀ {started : Answer} {ran : Except AccessError (Ending α)}
      {said ends : List Exchange}, body.Goes now ran said →
      (∀ exchange ∈ ends, exchange.command ≠ .run statement) →
      ⟨.start, .ok started⟩ :: (said ++ ends) = earlier ++ ⟨.run statement, answer⟩ :: later →
      ∃ started before, earlier = ⟨.start, .ok started⟩ :: before ∧
        body.Sends now before statement := by
    intro started ran said ends hgoes hends hsaid
    cases earlier with
    | nil => cases hsaid
    | cons exchange before =>
      obtain ⟨rfl, hmiddle⟩ := List.cons.inj hsaid
      refine ⟨started, before, rfl, ?_⟩
      -- The statement is not among the last commands, so it was said for the program.
      obtain ⟨rest, -, hrest⟩ | ⟨rest, hbefore, hrest⟩ := List.append_eq_append_iff.1 hmiddle
      · refine absurd rfl (hends ⟨.run statement, answer⟩ ?_)
        rw [hrest]
        exact List.mem_append_right rest List.mem_cons_self
      · cases rest with
        | nil =>
          refine absurd rfl (hends ⟨.run statement, answer⟩ ?_)
          rw [← show _ = ends from hrest]
          exact List.mem_cons_self
        | cons exchange rest =>
          obtain ⟨rfl, -⟩ := List.cons.inj hrest
          exact hgoes.sends hbefore
  cases h with
  | unstarted e =>
    obtain ⟨-, hrest⟩ | ⟨-, hrest⟩ := List.singleton_eq_append_iff.1 hsaid <;> cases hrest
  | broken started hgoes dropped | givenUp started hgoes dropped =>
    exact hmiddle hgoes (by simp) hsaid
  | refused started hgoes e dropped => exact hmiddle hgoes (by simp) hsaid
  | committed started hgoes kept => exact hmiddle hgoes (by simp) hsaid

/-! ### What is noted -/

namespace Server

variable {σ α : Type} (server : Server σ) (now : Timestamp)

theorem ask_eq (command : Command) (s : σ) :
    server.ask command s =
      ((server.send command s).1.mapError .database, (server.send command s).2) := rfl

theorem send_recorded (command : Command) (s : σ) (log : List Exchange) :
    server.recorded.send command (s, log) =
      ((server.send command s).1, (server.send command s).2,
        log ++ [⟨command, (server.send command s).1⟩]) := rfl

theorem ask_recorded (command : Command) (s : σ) (log : List Exchange) :
    server.recorded.ask command (s, log) =
      ((server.ask command s).1, (server.ask command s).2,
        log ++ [⟨command, (server.send command s).1⟩]) := rfl

/-- The lock of a request is taken, or the request fails. -/
theorem lockFor_recorded (p : Primitive) (s : σ) (log : List Exchange) :
    ∃ said,
      server.recorded.lockFor p (s, log) =
        ((server.lockFor p s).1, (server.lockFor p s).2, log ++ said) ∧
      ((∃ locked, (server.lockFor p s).1 = .ok () ∧ said = p.lockExchanges locked) ∨
        ∃ e, (server.lockFor p s).1 = .error e ∧ p.Breaks now e said) := by
  unfold lockFor
  cases hlock : p.lock? with
  | none =>
    refine ⟨[], by rw [List.append_nil], .inl ⟨{}, rfl, ?_⟩⟩
    rw [Primitive.lockExchanges, hlock]
  | some key =>
    refine ⟨_, rfl, ?_⟩
    simp only [ask]
    cases (server.send (.run key.statement) s).1 with
    | ok locked => exact .inl ⟨locked, rfl, (Primitive.lockExchanges_of_lock hlock locked).symm⟩
    | error e => exact .inr ⟨_, rfl, .lock hlock e⟩

/-- A request is answered in a turn, or fails. -/
theorem perform_recorded (p : Primitive) (s : σ) (log : List Exchange) :
    ∃ said,
      server.recorded.perform now p (s, log) =
        ((server.perform now p s).1, (server.perform now p s).2, log ++ said) ∧
      ((∃ locked answer reply, ∃ hreply : p.decode answer = .ok reply,
          (server.perform now p s).1 = .ok reply ∧
          said = Turn.exchanges now ⟨p, locked, answer, reply, hreply⟩) ∨
        ∃ e, (server.perform now p s).1 = .error e ∧ p.Breaks now e said) := by
  obtain ⟨said, hran, hlock⟩ := server.lockFor_recorded now p s log
  unfold perform
  rw [hran]
  generalize server.lockFor p s = ran at hlock
  obtain ⟨result, s₁⟩ := ran
  obtain ⟨locked, rfl, rfl⟩ | ⟨e, rfl, hbreaks⟩ := hlock
  · refine ⟨p.lockExchanges locked ++
      [⟨.run (p.statement now), (server.send (.run (p.statement now)) s₁).1⟩], ?_, ?_⟩
    · rw [← List.append_assoc]
      rfl
    · simp only [ask]
      cases (server.send (.run (p.statement now)) s₁).1 with
      | error e => exact .inr ⟨_, rfl, .statement locked e⟩
      | ok answer =>
        have hdecode : ((Except.ok answer).mapError AccessError.database).bind p.decode =
            p.decode answer := rfl
        rw [hdecode]
        cases hreply : p.decode answer with
        | error e => exact .inr ⟨e, rfl, .decoding locked hreply⟩
        | ok reply => exact .inl ⟨locked, answer, reply, hreply, rfl, rfl⟩
  · exact ⟨said, rfl, .inr ⟨e, rfl, hbreaks⟩⟩

/-- A program runs as over the server, and goes as it is noted. -/
theorem run_recorded (x : Tx α) (s : σ) (log : List Exchange) :
    ∃ said,
      x.run (server.recorded.perform now) (s, log) =
        ((x.run (server.perform now) s).1, (x.run (server.perform now) s).2, log ++ said) ∧
      x.Goes now (x.run (server.perform now) s).1 said := by
  induction x generalizing s log with
  | done a => exact ⟨[], by rw [List.append_nil]; rfl, .ends (.here _)⟩
  | call p next ih =>
    obtain ⟨said, hran, hreply⟩ := server.perform_recorded now p s log
    rw [Tx.run, Tx.run, hran]
    generalize server.perform now p s = ran at hreply
    obtain ⟨result, s₁⟩ := ran
    obtain ⟨locked, answer, reply, hdecoded, rfl, rfl⟩ | ⟨e, rfl, hbreaks⟩ := hreply
    · obtain ⟨rest, hrest, hgoes⟩ :=
        ih reply s₁ (log ++ Turn.exchanges now ⟨p, locked, answer, _, hdecoded⟩)
      rw [List.append_assoc] at hrest
      exact ⟨_, hrest, hgoes.turn ⟨p, locked, answer, _, hdecoded⟩⟩
    · exact ⟨said, rfl, .breaks (.here _) hbreaks⟩

/-- A transaction is started, or is not. -/
theorem start_recorded (s : σ) (log : List Exchange) :
    ∃ s', (∃ e, server.start s = (.error (.failed (.database e)), s') ∧
        server.recorded.start (s, log) =
          (.error (.failed (.database e)), s', log ++ [⟨.start, .error e⟩])) ∨
      ∃ started, server.start s = (.ok (), s') ∧
        server.recorded.start (s, log) = (.ok (), s', log ++ [⟨.start, .ok started⟩]) := by
  simp only [start, ask_eq, send_recorded]
  obtain ⟨e | started, s'⟩ := server.send .start s
  · exact ⟨s', .inl ⟨e, rfl, rfl⟩⟩
  · exact ⟨s', .inr ⟨started, rfl, rfl⟩⟩

/-- A transaction is committed, or is given up. -/
theorem commit_recorded (s : σ) (log : List Exchange) :
    ∃ s', (∃ e dropped, server.commit s = (.error (.database e), s') ∧
        server.recorded.commit (s, log) =
          (.error (.database e), s', log ++ [⟨.commit, .error e⟩, ⟨.rollBack, dropped⟩])) ∨
      ∃ kept, server.commit s = (.ok (), s') ∧
        server.recorded.commit (s, log) = (.ok (), s', log ++ [⟨.commit, .ok kept⟩]) := by
  simp only [commit, rollBack, ask_eq, send_recorded]
  obtain ⟨e | kept, s'⟩ := server.send .commit s
  · refine ⟨_, .inl ⟨e, (server.send .rollBack s').1, rfl, ?_⟩⟩
    have hnoted : server.recorded.send .rollBack (s', log ++ [⟨.commit, .error e⟩]) =
        ((server.send .rollBack s').1, (server.send .rollBack s').2,
          log ++ [⟨.commit, .error e⟩, ⟨.rollBack, (server.send .rollBack s').1⟩]) := by
      rw [send_recorded, List.append_assoc, List.singleton_append]
    exact congrArg (Except.error (AccessError.database e), ·.2) hnoted
  · exact ⟨s', .inr ⟨kept, rfl, rfl⟩⟩

/-- A transaction runs as over the server, and what is noted is a transcript of it. -/
theorem transact_recorded (body : Tx (Ending α)) (s : σ) (log : List Exchange) :
    ∃ said,
      (postgresStore server.recorded).transact now body (s, log) =
        (((postgresStore server).transact now body s).1,
          ((postgresStore server).transact now body s).2, log ++ said) ∧
      Transcript now body ((postgresStore server).transact now body s).1 said := by
  simp only [Store.transact, postgresStore]
  obtain ⟨s₁, ⟨e, hstart, hnoted⟩ | ⟨started, hstart, hnoted⟩⟩ := server.start_recorded s log
  · rw [hstart, hnoted]
    exact ⟨_, rfl, .unstarted e⟩
  rw [hstart, hnoted]
  obtain ⟨said, hran, hgoes⟩ := server.run_recorded now body s₁ (log ++ [⟨.start, .ok started⟩])
  dsimp only
  rw [hran]
  generalize body.run (server.perform now) s₁ = ran at hgoes
  obtain ⟨e | ⟨answer⟩ | ⟨answer⟩, s₂⟩ := ran
  · refine ⟨_, ?_, .broken started hgoes (server.send .rollBack s₂).1⟩
    simp only [rollBack, ask_recorded, List.append_assoc, List.cons_append, List.nil_append]
  · obtain ⟨s₃, ⟨e, dropped, hcommit, hnoted⟩ | ⟨kept, hcommit, hnoted⟩⟩ :=
      server.commit_recorded s₂ (log ++ [⟨.start, .ok started⟩] ++ said)
    · dsimp only
      rw [hcommit, hnoted]
      refine ⟨_, ?_, .refused started hgoes e dropped⟩
      simp only [List.append_assoc, List.cons_append, List.nil_append]
    · dsimp only
      rw [hcommit, hnoted]
      refine ⟨_, ?_, .committed started hgoes kept⟩
      simp only [List.append_assoc, List.cons_append, List.nil_append]
  · refine ⟨_, ?_, .givenUp started hgoes (server.send .rollBack s₂).1⟩
    simp only [rollBack, ask_recorded, List.append_assoc, List.cons_append, List.nil_append]

end Server

/-! ### Operations -/

/-- All that is said for a plan: nothing, or a transaction. -/
inductive Plan.Said {Answer : Type} (now : Timestamp) : Plan Answer → List Exchange → Prop
  | settled (result : Except AccessError Answer) : Said now (.settled result) []
  | transaction {body : Tx (Ending Answer)} {result : Except Stop Answer} {said : List Exchange}
    (h : Transcript now body result said) : Said now (.transaction body) said

/-- An operation does what it does over the server, and what is noted belongs to its plan. -/
theorem Mutation.effect_recorded {σ : Type} (server : Server σ) (setup : Setup) (m : Mutation)
    (now : Timestamp) (s : σ) :
    let ran := (m.call (setup.engineOver (postgresStore server)) now).effect s
    ∃ said, (m.call (setup.engineOver (postgresStore server.recorded)) now).effect (s, []) =
        (ran.1, ran.2, said) ∧
      (m.plan setup.identityOf now).Said now said := by
  intro ran
  have hran : ran = _ := m.effect_call (setup.engineOver (postgresStore server)) now s
  rw [hran, effect_call]
  simp only [Setup.engineOver_identityOf, Setup.engineOver_store]
  cases m.plan setup.identityOf now with
  | settled result => exact ⟨[], rfl, .settled result⟩
  | transaction body =>
    obtain ⟨said, hnoted, hsaid⟩ := server.transact_recorded now body s []
    dsimp only
    rw [hnoted, m.inTime_engineOver setup (postgresStore server.recorded) (postgresStore server)]
    exact ⟨said, rfl, .transaction hsaid⟩

end RepoAccess

/-
The store together with what it is not told: who users are, and which binding mode is in force.

* `IdentityChange` — a change of the known identities; one that fails changes nothing;
* `System`, `Step` — identities, mode and store, and what may happen to them;
* `Step.event` — what a step does to the store, and `Step.asksFor` — the claim that it asks for;
* `System.of` — the system after a list of steps, and `System.exists_events` — its store is one
  after a list of events;
* `System.exists_step` — every deed is done by one of the steps, from the system before it.

A call of an engine sees the identities and the mode of its moment. Its deadline and its
measurements are its own.
-/
import Mathlib.Data.List.Induction
import RepoAccess.IdentityStore
import RepoAccess.Proofs.Course.Effect

namespace RepoAccess

/-! ### Identities -/

/-- Something that is done to the known identities. -/
inductive IdentityChange where
  | put (identity : Identity)
  | createUser (user : UserId) (username : String)
  | addEmail (user : UserId) (address : String) (verified : Bool)
  | setEmailVerified (user : UserId) (address : String) (verified : Bool)
  | setUsername (user : UserId) (username : Option String)
  | linkAccount (user : UserId) (spec : AccountSpec)
  | remove (user : UserId)
deriving DecidableEq

/-- The identities after a change. -/
def IdentityStore.change (s : IdentityStore) : IdentityChange → IdentityStore
  | .put identity => s.put identity
  | .createUser user username => (s.createUser user username).2
  | .addEmail user address verified => (s.addEmail user address verified).toOption.getD s
  | .setEmailVerified user address verified =>
    (s.setEmailVerified user address verified).toOption.getD s
  | .setUsername user username => (s.setUsername user username).toOption.getD s
  | .linkAccount user spec => ((s.linkAccount user spec).toOption.map (·.2)).getD s
  | .remove user => (s.remove user).2

/-! ### Systems -/

/-- The known identities, the mode in force, and the store with its deeds. -/
structure System where
  identities : IdentityStore := {}
  mode : BindingMode := .unset
  chronicle : Chronicle := {}

/-- Something that may happen to a system. -/
inductive Step where
  | identify (change : IdentityChange)
  | setMode (mode : BindingMode)
  /-- A claim under the mode in force, which is what `Engine.grant` makes. -/
  | claim (now : Timestamp) (setup : Setup) (request : GrantRequest)
  /-- Anything that happens to the store, a claim under a given mode included. -/
  | happen (event : Event)

namespace System

/-- The tables that everybody sees. -/
def tables (sys : System) : Tables := sys.chronicle.store.shared

/-- The engine's setup at a moment: identities and mode are those of the system. -/
def setup (sys : System) (setup : Setup) : Setup :=
  { setup with identityOf := sys.identities.identity, mode := sys.mode }

/-- What happens to the store, with the system's identities and mode in it. Questions look at
neither. -/
def event (sys : System) : Event → Event
  | .grant now setup request mode => .grant now (sys.setup setup) request mode
  | .revoke now setup request => .revoke now (sys.setup setup) request
  | .saveOverlay now setup user repo overlay =>
    .saveOverlay now (sys.setup setup) user repo overlay
  | event => event

end System

/-- What a step does to the store, if anything. -/
def Step.event (sys : System) : Step → Option Event
  | .identify _ => none
  | .setMode _ => none
  | .claim now setup request => some (.grant now (sys.setup setup) request sys.mode)
  | .happen event => some (sys.event event)

/-- The claim that a step asks for, and the mode it asks under. -/
def Step.asksFor (sys : System) (step : Step) : Option (GrantRequest × BindingMode) :=
  match step.event sys with
  | some (.grant _ _ request mode) => some (request, mode)
  | _ => none

namespace System

/-- The system after a step. -/
def take (sys : System) (step : Step) : System :=
  match step with
  | .identify change => { sys with identities := sys.identities.change change }
  | .setMode mode => { sys with mode }
  | step => { sys with chronicle := (step.event sys).elim sys.chronicle sys.chronicle.note }

/-- All these steps are taken, one after another, from a system of which nothing is known. -/
def of (steps : List Step) : System := steps.foldl take {}

/-! ### Steps and deeds -/

theorem of_concat (steps : List Step) (step : Step) :
    of (steps ++ [step]) = (of steps).take step := List.foldl_append

theorem chronicle_take (sys : System) (step : Step) :
    (sys.take step).chronicle = (step.event sys).elim sys.chronicle sys.chronicle.note := by
  cases step <;> rfl

/-- A claim looks up a user whom the system knows at that moment. -/
theorem identityOf_of_event {sys : System} {step : Step} {now : Timestamp} {setup : Setup}
    {request : GrantRequest} {mode : BindingMode}
    (h : step.event sys = some (.grant now setup request mode)) :
    setup.identityOf = sys.identities.identity := by
  cases step with
  | identify change => cases h
  | setMode mode' => cases h
  | claim now' setup' request' =>
    cases h
    rfl
  | happen event =>
    cases event <;> cases h
    rfl

/-- The store is one after a list of events. -/
theorem exists_events (steps : List Step) :
    ∃ events, (of steps).chronicle = Chronicle.of events := by
  induction steps using List.reverseRecOn with
  | nil => exact ⟨[], rfl⟩
  | append_singleton steps step ih =>
    obtain ⟨events, hevents⟩ := ih
    rw [of_concat, chronicle_take, hevents]
    cases step.event (of steps) with
    | none => exact ⟨events, rfl⟩
    | some event =>
      refine ⟨events ++ [event], ?_⟩
      rw [Option.elim_some, Chronicle.of, Chronicle.of, List.foldl_append]
      rfl

theorem keyed_of (steps : List Step) : (of steps).tables.Keyed := by
  obtain ⟨events, hevents⟩ := exists_events steps
  rw [tables, hevents]
  exact Chronicle.keyed_of events

/-- A step does at most one deed. -/
theorem deeds_take {sys : System} (hsys : sys.tables.Keyed) (step : Step) :
    (sys.take step).chronicle.deeds = sys.chronicle.deeds ∨
      ∃ d, (sys.take step).chronicle.deeds = d :: sys.chronicle.deeds := by
  rw [chronicle_take]
  cases step.event sys with
  | none => exact .inl rfl
  | some event =>
    rcases sys.chronicle.note_cases hsys event with ⟨hdeeds, -⟩ | ⟨-, d, hdeeds, -⟩
    · exact .inl hdeeds
    · exact .inr ⟨d, hdeeds⟩

/-- Every deed is done by one of the steps. -/
theorem exists_step {steps : List Step} {d : Deed} {later earlier : List Deed}
    (h : (of steps).chronicle.deeds = later ++ d :: earlier) :
    ∃ before step after, steps = before ++ step :: after ∧
      (of before).chronicle.deeds = earlier ∧
      ((of before).take step).chronicle.deeds = d :: earlier := by
  induction steps using List.reverseRecOn generalizing later with
  | nil => simp [of] at h
  | append_singleton steps last ih =>
    -- The last step has done the deed, or the deed has been there before it.
    have hbefore : ∀ {later'}, (of steps).chronicle.deeds = later' ++ d :: earlier →
        ∃ before step after, steps ++ [last] = before ++ step :: after ∧
          (of before).chronicle.deeds = earlier ∧
          ((of before).take step).chronicle.deeds = d :: earlier := by
      intro later' hdeeds
      obtain ⟨before, step, after, rfl, hdone⟩ := ih hdeeds
      exact ⟨before, step, after ++ [last], by simp, hdone⟩
    rw [of_concat] at h
    rcases deeds_take (keyed_of steps) last with hsame | ⟨d', hnew⟩
    · exact hbefore (hsame.symm.trans h)
    · rw [hnew] at h
      cases later with
      | nil =>
        obtain ⟨rfl, hdeeds⟩ := List.cons.inj h
        exact ⟨steps, last, [], rfl, hdeeds, hnew.trans (by rw [hdeeds])⟩
      | cons d'' later' => exact hbefore (List.cons.inj h).2

end System

end RepoAccess

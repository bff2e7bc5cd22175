/-
Programs that write under locks.

* `Locked`, `Loaded` — a lock was taken earlier in the transaction; a row was loaded under its lock,
  and its table was not written to since;
* `Permits` — after what was done so far, a request names a key whose lock is held, and saves only
  rows that come from loaded ones;
* `Tx.Careful` — a program all of whose requests are permitted, whatever is answered to them, with
  what it leaves behind;
* `Tx.Careful.bind`, `Tx.careful_foldlM`, `Tx.careful_loadUser` and its like — how such programs are
  put together;
* `Tx.careful_replaceHolders` and its like, `careful_claim`, `careful_forget` — the writers, a claim
  and a revocation are careful;
* `Mutation.careful_plan` — so is every operation that writes.

A program is looked at after any turns before it, so its lemma names the locks that it relies on. A
row that is loaded first and saved last stays as it was loaded if what is done in between writes to
other tables only: that is why a lemma names the tables of its program.
-/
import RepoAccess.Proofs.Locking.Keys

namespace RepoAccess

open Std

/-! ### What was done so far -/

/-- The table that a request writes to. -/
def Primitive.written? (now : Timestamp) (p : Primitive) : Option Table :=
  (p.statement now).kind.written?

/-- The rows that answered the turn meet the conditions of its statement. -/
def Turn.Truthful (turn : Turn) : Prop :=
  ∀ row ∈ turn.answer.rows, row.Meets turn.request.conditions

/-- The lock was taken in one of these turns. -/
def Locked (turns : List Turn) (key : LockKey) : Prop :=
  ∃ turn ∈ turns, turn.request.lock? = some key

/-- The row was loaded in one of these turns, as it was or empty, and its table was not written to
afterwards. -/
def Loaded (now : Timestamp) (turns : List Turn) (image : Image) : Prop :=
  ∃ earlier locked answer found, ∃ hfound : image.load.decode answer = .ok found, ∃ later,
    turns = earlier ++ ⟨image.load, locked, answer, found, hfound⟩ :: later ∧
      image.found now found = image ∧
      ∀ turn ∈ later, turn.request.written? now ≠ some image.table

/-- These turns write to no other tables. -/
def Within (now : Timestamp) (tables : List Table) (turns : List Turn) : Prop :=
  ∀ turn ∈ turns, ∀ table ∈ turn.request.written? now, table ∈ tables

section Done

variable {now : Timestamp} {turns new : List Turn} {key : LockKey} {image : Image} {turn : Turn}

theorem Locked.append (h : Locked turns key) (new : List Turn) : Locked (turns ++ new) key := by
  obtain ⟨turn, hmem, hlock⟩ := h
  exact ⟨turn, List.mem_append_left new hmem, hlock⟩

theorem locked_snoc (turns : List Turn) (h : turn.request.lock? = some key) :
    Locked (turns ++ [turn]) key :=
  ⟨turn, List.mem_append_right turns List.mem_cons_self, h⟩

/-- A row that is loaded in the last turn. -/
theorem loaded_last (image : Image) {locked answer : Answer} {found : image.load.Reply}
    (hfound : image.load.decode answer = .ok found) (himage : image.found now found = image) :
    Loaded now (turns ++ [⟨image.load, locked, answer, found, hfound⟩]) image :=
  ⟨turns, locked, answer, found, hfound, [], rfl, himage, fun _ hmem => nomatch hmem⟩

theorem Loaded.locked (h : Loaded now turns image) : Locked turns image.key := by
  obtain ⟨earlier, locked, answer, found, hfound, later, rfl, -, -⟩ := h
  exact ⟨_, List.mem_append_right earlier List.mem_cons_self, image.lock_load⟩

theorem Loaded.append (h : Loaded now turns image) {tables : List Table}
    (hnew : Within now tables new) (htable : image.table ∉ tables) :
    Loaded now (turns ++ new) image := by
  obtain ⟨earlier, locked, answer, found, hfound, later, rfl, himage, hlater⟩ := h
  refine ⟨earlier, locked, answer, found, hfound, later ++ new, by simp, himage, ?_⟩
  intro turn hmem
  rcases List.mem_append.1 hmem with hmem | hmem
  · exact hlater turn hmem
  · exact fun hwritten => htable (hnew turn hmem image.table hwritten)

end Done

/-! ### What may be asked next -/

/-- After these turns the request names a key whose lock is held, if it needs a lock, and if it
saves a row whole, the row comes from one that was loaded. -/
def Permits (touch : Touch) (now : Timestamp) (turns : List Turn) (p : Primitive) : Prop :=
  ((p.statement now).kind.NeedsLock → ∃ key, (p.statement now).key? = some key ∧
    (p.lock? = some key ∨ Locked turns key)) ∧
  ∀ image : Image, p = image.save →
    ∃ old, Loaded now turns old ∧ old.Renews touch now image

section Permits

variable {touch : Touch} {now : Timestamp} {turns : List Turn} {p : Primitive}

theorem needsLock_save (image : Image) (now : Timestamp) :
    (image.save.statement now).kind.NeedsLock := by
  rw [image.kind_save]
  refine ⟨⟨image.table, rfl, ?_⟩, fun h => nomatch h⟩
  cases image <;> nofun

/-- What goes without a lock is always permitted. -/
theorem permits_of_free (h : ¬ (p.statement now).kind.NeedsLock) : Permits touch now turns p := by
  refine ⟨fun hneeds => absurd hneeds h, ?_⟩
  rintro image rfl
  exact absurd (needsLock_save image now) h

/-- What only reads is always permitted. -/
theorem permits_of_read (h : p.written? now = none) : Permits touch now turns p := by
  refine permits_of_free ?_
  rintro ⟨⟨table, hwritten, -⟩, -⟩
  cases h.symm.trans hwritten

/-- What saves no row whole is permitted under the lock of its key. -/
theorem permits_of_key {key : LockKey} (hsave : ∀ image : Image, p ≠ image.save)
    (hkey : (p.statement now).key? = some key) (hlock : p.lock? = some key ∨ Locked turns key) :
    Permits touch now turns p :=
  ⟨fun _ => ⟨key, hkey, hlock⟩, fun image hp => absurd hp (hsave image)⟩

/-- A row is saved that comes from one that was loaded. -/
theorem permits_save {old image : Image} (hloaded : Loaded now turns old)
    (hrenews : old.Renews touch now image) : Permits touch now turns image.save := by
  refine ⟨fun _ => ⟨image.key, image.key_save now, .inr ?_⟩, fun image' himage => ?_⟩
  · rw [hrenews.key_eq]
    exact hloaded.locked
  · obtain rfl : image = image' := by
      cases image <;> cases image' <;> cases himage <;> rfl
    exact ⟨old, hloaded, hrenews⟩

end Permits

/-! ### Programs -/

namespace Tx

variable {α β : Type}

/-- After these turns every request of the program is permitted, and writes to one of these tables,
whatever truthful answers the ones before it get; and the program leaves what it should. -/
def Careful (touch : Touch) (now : Timestamp) (tables : List Table)
    (leaves : List Turn → α → Prop) : Tx α → List Turn → Prop
  | .done a, turns => leaves turns a
  | .call p next, turns =>
    Permits touch now turns p ∧ (∀ table ∈ p.written? now, table ∈ tables) ∧
      ∀ locked answer reply, ∀ hreply : p.decode answer = .ok reply,
        (∀ row ∈ answer.rows, row.Meets p.conditions) →
        (next reply).Careful touch now tables leaves (turns ++ [⟨p, locked, answer, reply, hreply⟩])

variable {touch : Touch} {now : Timestamp} {tables : List Table} {turns : List Turn}
  {leaves : List Turn → α → Prop}

theorem careful_pure {a : α} (h : leaves turns a) :
    (pure a : Tx α).Careful touch now tables leaves turns := h

theorem Careful.mono {tables' : List Table} {leaves' : List Turn → α → Prop} {x : Tx α}
    (h : x.Careful touch now tables leaves turns) (htables : tables ⊆ tables')
    (hleaves : ∀ turns a, leaves turns a → leaves' turns a) :
    x.Careful touch now tables' leaves' turns := by
  induction x generalizing turns with
  | done a => exact hleaves turns a h
  | call p next ih =>
    obtain ⟨hpermits, hwrites, hnext⟩ := h
    exact ⟨hpermits, fun table hmem => htables (hwrites table hmem),
      fun locked answer reply hreply hmeets => ih reply (hnext locked answer reply hreply hmeets)⟩

/-- One program after another. -/
theorem Careful.bind {x : Tx α} {f : α → Tx β} {tables' : List Table}
    {leaves' : List Turn → β → Prop} (hx : x.Careful touch now tables leaves turns)
    (htables : tables ⊆ tables')
    (hf : ∀ new a, Within now tables new → leaves (turns ++ new) a →
      (f a).Careful touch now tables' leaves' (turns ++ new)) :
    (x >>= f).Careful touch now tables' leaves' turns := by
  show (x.bind f).Careful touch now tables' leaves' turns
  induction x generalizing turns with
  | done a =>
    have hnone : Within now tables [] := fun _ hmem => absurd hmem List.not_mem_nil
    have h := hf [] a hnone (by rwa [List.append_nil])
    rwa [List.append_nil] at h
  | call p next ih =>
    obtain ⟨hpermits, hwrites, hnext⟩ := hx
    refine ⟨hpermits, fun table hmem => htables (hwrites table hmem), ?_⟩
    intro locked answer reply hreply hmeets
    refine ih reply (hnext locked answer reply hreply hmeets) fun new a hnew hleaves => ?_
    rw [List.append_assoc] at hleaves ⊢
    refine hf _ a (fun turn hmem => ?_) hleaves
    rcases List.mem_cons.1 hmem with rfl | hmem
    · exact hwrites
    · exact hnew turn hmem

/-- A request first. -/
theorem careful_call {p : Primitive} {f : p.Reply → Tx α} (hpermits : Permits touch now turns p)
    (hwrites : ∀ table ∈ p.written? now, table ∈ tables)
    (hf : ∀ locked answer reply, ∀ hreply : p.decode answer = .ok reply,
      (∀ row ∈ answer.rows, row.Meets p.conditions) →
      (f reply).Careful touch now tables leaves (turns ++ [⟨p, locked, answer, reply, hreply⟩])) :
    (request p >>= f).Careful touch now tables leaves turns :=
  ⟨hpermits, hwrites, hf⟩

/-- A request alone. -/
theorem careful_request {p : Primitive} {leaves : List Turn → p.Reply → Prop}
    (hpermits : Permits touch now turns p)
    (hwrites : ∀ table ∈ p.written? now, table ∈ tables)
    (hleaves : ∀ new reply, leaves (turns ++ new) reply) :
    (request p).Careful touch now tables leaves turns :=
  ⟨hpermits, hwrites, fun _ _ reply _ _ => hleaves _ reply⟩

theorem careful_ite {p : Prop} [Decidable p] {x y : Tx α}
    (hx : p → x.Careful touch now tables leaves turns)
    (hy : ¬ p → y.Careful touch now tables leaves turns) :
    (if p then x else y).Careful touch now tables leaves turns := by
  by_cases h : p
  · rw [if_pos h]
    exact hx h
  · rw [if_neg h]
    exact hy h

/-- A loop whose turns keep something about its state. -/
theorem careful_foldlM {ι σ : Type} (tables : List Table) (keeps : σ → Prop) {turn : σ → ι → Tx σ}
    {xs : List ι}
    (h : ∀ new s i, i ∈ xs → keeps s →
      (turn s i).Careful touch now tables (fun _ => keeps) (turns ++ new))
    {s : σ} (hs : keeps s) :
    (xs.foldlM turn s).Careful touch now tables (fun _ => keeps) turns := by
  induction xs generalizing s turns with
  | nil => exact careful_pure hs
  | cons i xs ih =>
    rw [List.foldlM_cons]
    have hfirst := h [] s i List.mem_cons_self hs
    rw [List.append_nil] at hfirst
    refine hfirst.bind (List.Subset.refl _) fun new s' _ hs' => ih ?_ hs'
    intro new' s'' i' hmem hs''
    rw [List.append_assoc]
    exact h _ s'' i' (List.mem_cons_of_mem i hmem) hs''

theorem careful_forM {ι : Type} (tables : List Table) {turn : ι → Tx Unit} {xs : List ι}
    (h : ∀ new i, i ∈ xs → (turn i).Careful touch now tables (fun _ _ => True) (turns ++ new)) :
    (xs.forM turn).Careful touch now tables (fun _ _ => True) turns := by
  induction xs generalizing turns with
  | nil => exact careful_pure trivial
  | cons i xs ih =>
    have hfirst := h [] i List.mem_cons_self
    rw [List.append_nil] at hfirst
    refine hfirst.bind (List.Subset.refl _) fun new _ _ _ => ih fun new' i' hmem => ?_
    rw [List.append_assoc]
    exact h _ i' (List.mem_cons_of_mem i hmem)

/-! ### Requests -/

section Requests

variable {user : UserId} {repo : RepoId} {perm : Permission} {holder : Alias} {provider : Provider}

/-- A request that only reads. -/
theorem careful_read {p : Primitive} (h : p.written? now = none) :
    (request p).Careful touch now [] (fun _ _ => True) turns := by
  refine careful_request (permits_of_read h) (fun table hmem => ?_) fun _ _ => trivial
  rw [h] at hmem
  cases hmem

theorem careful_loadUser {f : Option UserHoldings → Tx α}
    (hf : ∀ new found, Locked (turns ++ new) (.user user) →
      Loaded now (turns ++ new) (.user (found.getD { user, perm, updatedAt := now })) →
      (f found).Careful touch now tables leaves (turns ++ new)) :
    (request (.loadUser user perm) >>= f).Careful touch now tables leaves turns := by
  refine careful_call (permits_of_read rfl) (fun _ hmem => nomatch hmem) ?_
  intro locked answer found hfound hmeets
  refine hf [_] found (locked_snoc turns rfl) ?_
  cases found with
  | none => exact loaded_last (.user _) hfound rfl
  | some row =>
    obtain ⟨rfl, rfl⟩ := UserHoldings.key_of_decode hfound hmeets
    exact loaded_last (.user _) hfound rfl

theorem careful_loadRepo {f : Option RepoHolders → Tx α}
    (hf : ∀ new found,
      Loaded now (turns ++ new) (.repo (found.getD { repo, perm, updatedAt := now })) →
      (f found).Careful touch now tables leaves (turns ++ new)) :
    (request (.loadRepo repo perm) >>= f).Careful touch now tables leaves turns := by
  refine careful_call (permits_of_read rfl) (fun _ hmem => nomatch hmem) ?_
  intro locked answer found hfound _
  refine hf [_] found ?_
  cases found with
  | none => exact loaded_last (.repo _) hfound rfl
  | some row =>
    obtain ⟨rfl, rfl⟩ := RepoHolders.key_of_decode hfound
    exact loaded_last (.repo _) hfound rfl

theorem careful_loadPending {f : Option PendingHoldings → Tx α}
    (hf : ∀ new found, Locked (turns ++ new) (.holder holder) →
      Loaded now (turns ++ new) (.pending (found.getD { holder, perm, updatedAt := now })) →
      (f found).Careful touch now tables leaves (turns ++ new)) :
    (request (.loadPending holder perm) >>= f).Careful touch now tables leaves turns := by
  refine careful_call (permits_of_read rfl) (fun _ hmem => nomatch hmem) ?_
  intro locked answer found hfound hmeets
  refine hf [_] found (locked_snoc turns rfl) ?_
  cases found with
  | none => exact loaded_last (.pending _) hfound rfl
  | some row =>
    obtain ⟨rfl, rfl⟩ := PendingHoldings.key_of_decode hfound hmeets
    exact loaded_last (.pending _) hfound rfl

theorem careful_loadInvited {f : Option PendingHolders → Tx α}
    (hf : ∀ new found,
      let row := found.getD { repo, perm, provider, updatedAt := now }
      Loaded now (turns ++ new) (.invited row) →
      row.repo = repo ∧ row.perm = perm ∧ row.provider = provider →
      (f found).Careful touch now tables leaves (turns ++ new)) :
    (request (.loadInvited repo perm provider) >>= f).Careful touch now tables leaves turns := by
  refine careful_call (permits_of_read rfl) (fun _ hmem => nomatch hmem) ?_
  intro locked answer found hfound _
  cases found with
  | none =>
    refine hf [_] none ?_ ⟨rfl, rfl, rfl⟩
    exact loaded_last (.invited _) hfound rfl
  | some row =>
    obtain ⟨rfl, rfl, rfl⟩ := PendingHolders.key_of_decode hfound
    refine hf [_] (some row) ?_ ⟨rfl, rfl, rfl⟩
    exact loaded_last (.invited _) hfound rfl

/-- A row is saved that comes from one that was loaded. -/
theorem careful_save {old : Image} (image : Image) (hloaded : Loaded now turns old)
    (hrenews : old.Renews touch now image) :
    (request image.save).Careful touch now [image.table] (fun _ _ => True) turns := by
  refine careful_request (permits_save hloaded hrenews) (fun table hmem => ?_) fun _ _ => trivial
  rw [Primitive.written?, image.kind_save] at hmem
  obtain rfl : image.table = table := Option.some.inj hmem
  exact List.mem_cons_self

/-- A write that saves no row whole is made under the lock of its key. -/
theorem careful_write {p : Primitive} {key : LockKey} {table : Table}
    (hsave : ∀ image : Image, p ≠ image.save) (hkey : (p.statement now).key? = some key)
    (hlock : p.lock? = some key ∨ Locked turns key) (hwritten : p.written? now = some table) :
    (request p).Careful touch now [table] (fun _ _ => True) turns := by
  refine careful_request (permits_of_key hsave hkey hlock) (fun table' hmem => ?_)
    fun _ _ => trivial
  obtain rfl : table = table' := Option.some.inj (hwritten.symm.trans hmem)
  exact List.mem_cons_self

theorem careful_addSource (hlocked : Locked turns (.user user)) (source : Source) :
    (request (.addSource user perm repo source)).Careful touch now [.sources] (fun _ _ => True)
      turns := by
  refine careful_write (fun image => ?_) rfl (.inr hlocked) rfl
  cases image <;> nofun

theorem careful_removeSource (hlocked : Locked turns (.user user)) (source : Source) :
    (request (.removeSource user perm repo source)).Careful touch now [.sources] (fun _ _ => True)
      turns := by
  refine careful_write (fun image => ?_) rfl (.inr hlocked) rfl
  cases image <;> nofun

theorem careful_deletePending (hlocked : Locked turns (.holder holder)) :
    (request (.deletePending holder perm)).Careful touch now [.pending] (fun _ _ => True)
      turns := by
  refine careful_write (fun image => ?_) rfl (.inr hlocked) rfl
  cases image <;> nofun

theorem careful_deleteSources (hlocked : Locked turns (.user user)) :
    (request (.deleteSources user)).Careful touch now [.sources] (fun _ _ => True) turns := by
  refine careful_write (fun image => ?_) rfl (.inr hlocked) rfl
  cases image <;> nofun

/-- Overlays are written without a lock. -/
theorem careful_overlays {p : Primitive} (h : p.written? now = some .overlays) :
    (request p).Careful touch now [.overlays] (fun _ _ => True) turns := by
  refine careful_request (permits_of_free ?_) (fun table hmem => ?_) fun _ _ => trivial
  · rintro ⟨⟨table, hwritten, htable⟩, -⟩
    exact htable (Option.some.inj (hwritten.symm.trans h))
  · obtain rfl : Table.overlays = table := Option.some.inj (h.symm.trans hmem)
    exact List.mem_cons_self

end Requests

/-! ### Writers -/

section Writers

variable {user : UserId} {repo : RepoId} {perm : Permission} {holder : Alias}

/-- A user's row, stored or new. -/
theorem careful_userRow (user : UserId) (perm : Permission) :
    (userRow now user perm).Careful touch now []
      (fun turns row => Locked turns (.user user) ∧ Loaded now turns (.user row)) turns :=
  careful_loadUser fun _ _ hlocked hloaded => careful_pure ⟨hlocked, hloaded⟩

/-- An alias's row, stored or new. -/
theorem careful_pendingRow (holder : Alias) (perm : Permission) :
    (pendingRow now holder perm).Careful touch now []
      (fun turns row => Loaded now turns (.pending row)) turns :=
  careful_loadPending fun _ _ _ hloaded => careful_pure hloaded

theorem careful_addSynced {change : Change UserId} {old : UserSet} {progress : UserSet × Nat}
    (hrepo : touch.users.mayGain repo) (hallows : change.Allows old progress.1)
    (huser : change.mayGain user) :
    (addSynced now repo perm progress user).Careful touch now [.users, .sources]
      (fun _ progress => change.Allows old progress.1) turns := by
  unfold addSynced
  refine (careful_userRow user perm).bind (List.nil_subset _) fun new row _ ⟨hlocked, hloaded⟩ => ?_
  refine (careful_addSource hlocked .repoSync).bind (by simp) fun new' _ hnew' _ => ?_
  have hloaded' := hloaded.append hnew' (by simp [Image.table])
  refine careful_ite (fun _ => ?_) fun _ => careful_pure (hallows.insert huser)
  have hrenews : (Image.user row).Renews touch now
      (.user { row with repos := row.repos.insert repo, updatedAt := now }) :=
    ⟨(Change.Allows.refl _ _).insert hrepo, row.syncedAt, .inl rfl, rfl⟩
  exact (careful_save _ hloaded' hrenews).bind (by simp [Image.table]) fun _ _ _ _ =>
    careful_pure (hallows.insert huser)

theorem careful_dismiss {change : Change UserId} {old : UserSet} {progress : UserSet × Nat}
    (hrepo : touch.users.mayLose repo) (hallows : change.Allows old progress.1)
    (huser : change.mayLose user) :
    (dismiss now repo perm progress user).Careful touch now [.users, .sources]
      (fun _ progress => change.Allows old progress.1) turns := by
  unfold dismiss
  refine careful_loadUser fun new found hlocked hloaded => ?_
  refine (careful_removeSource hlocked .repoSync).bind (by simp) fun new' _ hnew' _ => ?_
  refine (careful_read rfl).bind (List.nil_subset _) fun new'' sources hnew'' _ => ?_
  have hloaded' := (hloaded.append hnew' (by simp [Image.table])).append hnew'' List.not_mem_nil
  refine careful_ite (fun _ => ?_) fun _ => careful_pure hallows
  cases found with
  | none => exact careful_pure (hallows.erase huser)
  | some row =>
    have hrenews : (Image.user row).Renews touch now
        (.user { row with repos := row.repos.erase repo, updatedAt := now }) :=
      ⟨(Change.Allows.refl _ _).erase hrepo, row.syncedAt, .inl rfl, rfl⟩
    exact (careful_save _ hloaded' hrenews).bind (by simp [Image.table]) fun _ _ _ _ =>
      careful_pure (hallows.erase huser)

/-- The repository's row is loaded first and saved last; in between only users are looked at. -/
theorem careful_replaceHolders {users : UserSet} (husers : touch.users = .only repo)
    (hrepos : touch.repos = .toward users) :
    (replaceHolders now repo perm users).Careful touch now [.users, .sources, .repos]
      (fun _ _ => True) turns := by
  have hgain : touch.users.mayGain repo := husers ▸ rfl
  have hlose : touch.users.mayLose repo := husers ▸ rfl
  unfold replaceHolders
  refine careful_loadRepo fun new existing hloaded => ?_
  generalize existing.getD { repo, perm, updatedAt := now } = row at hloaded
  refine (careful_read rfl).bind (List.nil_subset _) fun new₁ sources hnew₁ _ => ?_
  have hloaded₁ := hloaded.append hnew₁ List.not_mem_nil
  -- Both loops keep the members on the way from those of the row to those who are named.
  let keeps : UserSet × Nat → Prop := fun progress =>
    (Change.toward users).Allows row.users progress.1
  refine (careful_foldlM [.users, .sources] keeps
    (fun new progress user hmem hallows => ?_)
    (Change.Allows.refl _ _)).bind ?_ fun new₂ (members, added) hnew₂ hallows => ?_
  · have hnamed : user ∈ users := ExtTreeSet.mem_toList.1 hmem
    exact careful_addSynced hgain hallows hnamed
  · simp
  have hloaded₂ := hloaded₁.append hnew₂ (by simp [Image.table])
  refine (careful_foldlM [.users, .sources] keeps
    (fun new progress user hmem hallows => ?_)
    (s := (members, 0)) hallows).bind ?_ fun new₃ (members, removed) hnew₃ hallows => ?_
  · have hdropped : user ∉ users := by
      simpa using (mem_filter_iff.1 (ExtTreeSet.mem_toList.1 hmem)).2
    exact careful_dismiss hlose hallows hdropped
  · simp
  have hloaded₃ := hloaded₂.append hnew₃ (by simp [Image.table])
  have hrenews : (Image.repo row).Renews touch now
      (.repo { row with users := members, updatedAt := now, syncedAt := some now }) :=
    ⟨hrepos ▸ hallows, some now, .inr rfl, rfl⟩
  exact (careful_save _ hloaded₃ hrenews).bind (by simp [Image.table]) fun _ _ _ _ =>
    careful_pure trivial

theorem careful_promise (hrepo : touch.pending.mayGain repo) (holder : Alias) :
    (promise now repo perm holder).Careful touch now [.pending] (fun _ _ => True) turns := by
  unfold promise
  refine (careful_pendingRow holder perm).bind (List.nil_subset _) fun new row _ hloaded => ?_
  exact careful_save
    (.pending { row with repos := row.repos.insert repo, updatedAt := now })
    hloaded ⟨(Change.Allows.refl _ _).insert hrepo, rfl⟩

theorem careful_retract (hrepo : touch.pending.mayLose repo) (holder : Alias) :
    (retract now repo perm holder).Careful touch now [.pending] (fun _ _ => True) turns := by
  unfold retract
  refine careful_loadPending fun new found _ hloaded => ?_
  cases found with
  | none => exact careful_pure trivial
  | some row =>
    exact careful_save
      (.pending { row with repos := row.repos.erase repo, updatedAt := now })
      hloaded ⟨(Change.Allows.refl _ _).erase hrepo, rfl⟩

/-- The repository's list is loaded first and saved last; in between only aliases are looked at. -/
theorem careful_replaceInvited {group : AliasGroup} (hpending : touch.pending = .only repo)
    (hinvited : touch.invited = .toward (ExtTreeSet.ofList group.bindIds)) :
    (replaceInvited now group repo perm).Careful touch now [.pending, .invited]
      (fun _ _ => True) turns := by
  have hgain : touch.pending.mayGain repo := hpending ▸ rfl
  have hlose : touch.pending.mayLose repo := hpending ▸ rfl
  unfold replaceInvited
  refine careful_loadInvited fun new existing hloaded hkey => ?_
  refine (careful_forM [.pending] fun new _ _ => careful_promise hgain _).bind (by simp)
    fun new₁ _ hnew₁ _ => ?_
  have hloaded₁ := hloaded.append hnew₁ (by simp [Image.table])
  refine (careful_forM [.pending] fun new _ _ => careful_retract hlose _).bind (by simp)
    fun new₂ _ hnew₂ _ => ?_
  have hloaded₂ := hloaded₁.append hnew₂ (by simp [Image.table])
  generalize existing.getD _ = row at hloaded₂ hkey
  obtain ⟨rfl, rfl, hprovider⟩ := hkey
  have hrenews : (Image.invited row).Renews touch now (.invited
      { repo := row.repo, perm := row.perm, provider := group.provider,
        bindIds := ExtTreeSet.ofList group.bindIds, updatedAt := now }) := by
    rw [← hprovider]
    exact ⟨hinvited ▸ Change.Allows.toward _ _, rfl⟩
  exact (careful_save _ hloaded₂ hrenews).bind (by simp [Image.table]) fun _ _ _ _ =>
    careful_pure trivial

theorem careful_addHolder (huser : touch.repos.mayGain user) (repo : RepoId) :
    (addHolder now repo perm user).Careful touch now [.repos] (fun _ _ => True) turns := by
  unfold addHolder
  refine careful_loadRepo fun new existing hloaded => ?_
  generalize existing.getD { repo, perm, updatedAt := now } = row at hloaded
  refine careful_ite (fun _ => ?_) fun _ => careful_pure trivial
  exact careful_save
    (.repo { row with users := row.users.insert user, updatedAt := now }) hloaded
    ⟨(Change.Allows.refl _ _).insert huser, row.syncedAt, .inl rfl, rfl⟩

theorem careful_removeHolder (huser : touch.repos.mayLose user) (repo : RepoId) :
    (removeHolder now repo perm user).Careful touch now [.repos] (fun _ _ => True) turns := by
  unfold removeHolder
  refine careful_loadRepo fun new existing hloaded => ?_
  cases existing with
  | none => exact careful_pure trivial
  | some row =>
    refine careful_ite (fun _ => ?_) fun _ => careful_pure trivial
    exact careful_save
      (.repo { row with users := row.users.erase user, updatedAt := now }) hloaded
      ⟨(Change.Allows.refl _ _).erase huser, row.syncedAt, .inl rfl, rfl⟩

theorem careful_mergeGranted {repos : RepoSet} (hrepos : ∀ repo ∈ repos, touch.users.mayGain repo)
    (source : Source) :
    (mergeGranted now user perm repos source).Careful touch now [.users, .sources]
      (fun _ _ => True) turns := by
  unfold mergeGranted
  refine (careful_userRow user perm).bind (List.nil_subset _) fun new row _ ⟨hlocked, hloaded⟩ => ?_
  refine (careful_forM [.sources] fun new' _ _ =>
    careful_addSource (hlocked.append new') source).bind (by simp) fun new₁ _ hnew₁ _ => ?_
  have hrenews : (Image.user row).Renews touch now
      (.user { row with repos := row.repos ∪ repos, updatedAt := now }) :=
    ⟨(Change.Allows.refl _ _).union hrepos, row.syncedAt, .inl rfl, rfl⟩
  exact (careful_save _ (hloaded.append hnew₁ (by simp [Image.table])) hrenews).bind
    (by simp [Image.table]) fun _ _ _ _ => careful_pure trivial

theorem careful_bring {change : Change RepoId} {old : RepoSet} {progress : RepoSet × Nat}
    (hlocked : Locked turns (.user user)) (huser : touch.repos.mayGain user) (account : AccountId)
    (hallows : change.Allows old progress.1) (hrepo : change.mayGain repo) :
    (bring now user account progress repo).Careful touch now [.sources, .repos]
      (fun _ progress => change.Allows old progress.1) turns := by
  unfold bring
  refine (careful_addSource hlocked (.account account)).bind (by simp) fun new _ _ _ => ?_
  refine careful_ite (fun _ => careful_pure hallows) fun _ => ?_
  exact (careful_addHolder huser repo).bind (by simp) fun _ _ _ _ =>
    careful_pure (hallows.insert hrepo)

theorem careful_drop {change : Change RepoId} {old : RepoSet} {progress : RepoSet × Nat}
    (hlocked : Locked turns (.user user)) (huser : touch.repos.mayLose user) (account : AccountId)
    (before : ExtTreeMap RepoId SourceSet) (hallows : change.Allows old progress.1)
    (hrepo : change.mayLose repo) :
    (drop now user account before progress repo).Careful touch now [.sources, .repos]
      (fun _ progress => change.Allows old progress.1) turns := by
  unfold drop
  refine (careful_removeSource hlocked (.account account)).bind (by simp) fun new _ _ _ => ?_
  refine careful_ite (fun _ => careful_pure hallows) fun _ => ?_
  exact (careful_removeHolder huser repo).bind (by simp) fun _ _ _ _ =>
    careful_pure (hallows.erase hrepo)

/-- The user's row is loaded first and saved last; in between only repositories are looked at. -/
theorem careful_replaceAccount {repos : RepoSet} (huser : touch.repos = .only user)
    (husers : touch.users = .toward repos) (account : AccountId) :
    (replaceAccount now user account repos).Careful touch now [.sources, .repos, .users]
      (fun _ _ => True) turns := by
  have hgain : touch.repos.mayGain user := huser ▸ rfl
  have hlose : touch.repos.mayLose user := huser ▸ rfl
  unfold replaceAccount
  refine careful_loadUser fun new existing hlocked hloaded => ?_
  generalize existing.getD { user, perm := .read, updatedAt := now } = row at hloaded
  refine (careful_read rfl).bind (List.nil_subset _) fun new₁ sources hnew₁ _ => ?_
  have hlocked₁ := hlocked.append new₁
  have hloaded₁ := hloaded.append hnew₁ List.not_mem_nil
  -- Both loops keep the members on the way from those of the row to those that are named.
  let keeps : RepoSet × Nat → Prop := fun progress =>
    (Change.toward repos).Allows row.repos progress.1
  refine (careful_foldlM [.sources, .repos] keeps
    (fun new progress repo hmem hallows => ?_)
    (Change.Allows.refl _ _)).bind ?_ fun new₂ (members, added) hnew₂ hallows => ?_
  · have hnamed : repo ∈ repos := ExtTreeSet.mem_toList.1 hmem
    exact careful_bring (hlocked₁.append new) hgain account hallows hnamed
  · simp
  have hlocked₂ := hlocked₁.append new₂
  have hloaded₂ := hloaded₁.append hnew₂ (by simp [Image.table])
  refine (careful_foldlM [.sources, .repos] keeps
    (fun new progress repo hmem hallows => ?_)
    (s := (members, 0)) hallows).bind ?_ fun new₃ (members, removed) hnew₃ hallows => ?_
  · have hdropped : repo ∉ repos := by
      obtain ⟨⟨repo', reasons⟩, -, hpicked⟩ := List.mem_filterMap.1 hmem
      obtain ⟨hreason, hrepo⟩ := Option.ite_none_right_eq_some.1 hpicked
      obtain rfl := Option.some.inj hrepo
      simpa using (Bool.and_eq_true_iff.1 hreason).2
    exact careful_drop (hlocked₂.append new) hlose account sources hallows hdropped
  · simp
  have hloaded₃ := hloaded₂.append hnew₃ (by simp [Image.table])
  have hrenews : (Image.user row).Renews touch now
      (.user { row with repos := members, updatedAt := now, syncedAt := some now }) :=
    ⟨husers ▸ hallows, some now, .inr rfl, rfl⟩
  exact (careful_save _ hloaded₃ hrenews).bind (by simp [Image.table]) fun _ _ _ _ =>
    careful_pure trivial

theorem careful_uninvite (hholder : touch.invited.mayLose holder.bindId) (repo : RepoId) :
    (uninvite now holder perm repo).Careful touch now [.invited] (fun _ _ => True) turns := by
  unfold uninvite
  refine careful_loadInvited fun new existing hloaded _ => ?_
  cases existing with
  | none => exact careful_pure trivial
  | some row =>
    refine careful_ite (fun _ => ?_) fun _ => careful_pure trivial
    exact careful_save
      (.invited { row with bindIds := row.bindIds.erase holder.bindId, updatedAt := now })
      hloaded ⟨(Change.Allows.refl _ _).erase hholder, rfl⟩

theorem careful_clearPending (hholder : touch.invited.mayLose holder.bindId) (perm : Permission) :
    (clearPending now holder perm).Careful touch now [.invited, .pending] (fun _ _ => True)
      turns := by
  unfold clearPending
  refine careful_loadPending fun new existing hlocked _ => ?_
  cases existing with
  | none => exact careful_pure trivial
  | some row =>
    refine (careful_forM [.invited] fun new' _ _ => careful_uninvite hholder _).bind (by simp)
      fun new₁ _ _ _ => ?_
    exact (careful_deletePending (hlocked.append new₁)).bind (by simp) fun _ _ _ _ =>
      careful_pure trivial

theorem careful_clearAliases {holders : List Alias}
    (hholders : ∀ holder ∈ holders, touch.invited.mayLose holder.bindId) :
    (clearAliases now holders).Careful touch now [.invited, .pending] (fun _ _ => True) turns := by
  unfold clearAliases
  refine careful_foldlM _ (fun _ => True) (fun new cleared holder hmem _ => ?_) trivial
  refine (careful_read rfl).bind (List.nil_subset _) fun new₁ rows _ _ => ?_
  refine careful_foldlM _ (fun _ => True) (fun new₂ cleared row _ _ => ?_) trivial
  exact (careful_clearPending (hholders holder hmem) row.perm).bind (List.Subset.refl _)
    fun _ _ _ _ => careful_pure trivial

theorem careful_deleteUser :
    (deleteUser user).Careful touch now [.users, .sources] (fun _ _ => True) turns := by
  unfold deleteUser
  -- The first deletion takes the lock under which the second one is made.
  refine careful_call (permits_of_key (fun image => ?_) rfl (.inl rfl)) (fun table hmem => ?_)
    fun locked answer count hcount _ => ?_
  · cases image <;> nofun
  · obtain rfl : Table.users = table := Option.some.inj hmem
    exact .head _
  have hlocked : Locked (turns ++ [⟨.deleteUserRows user, locked, answer, count, hcount⟩])
    (.user user) := locked_snoc turns rfl
  exact (careful_deleteSources hlocked).bind (by simp) fun _ _ _ _ => careful_pure trivial

end Writers

end Tx

/-! ### Operations -/

open Tx

section Operations

variable {touch : Touch} {now : Timestamp} {turns : List Turn}

theorem Table.mem_all (table : Table) : table ∈ (Named.all : List Table) := by
  cases table <;> decide

/-- A careful program may be part of one that writes to any table. -/
theorem Tx.Careful.widen {α : Type} {tables : List Table} {leaves : List Turn → α → Prop}
    {x : Tx α} (h : x.Careful touch now tables leaves turns) :
    x.Careful touch now Named.all leaves turns :=
  h.mono (fun table _ => table.mem_all) fun _ _ => id

theorem careful_matchPending (perm : Permission) (found : List Alias × RepoSet) (holder : Alias) :
    (matchPending perm found holder).Careful touch now [] (fun _ _ => True) turns := by
  unfold matchPending
  refine careful_loadPending fun new existing _ _ => ?_
  cases existing with
  | none => exact careful_pure trivial
  | some row => exact careful_ite (fun _ => careful_pure trivial) fun _ => careful_pure trivial

theorem careful_claim {request : GrantRequest} {mode : BindingMode} {candidates : List Alias}
    (husers : ∀ repo, touch.users.mayGain repo) (hrepos : touch.repos.mayGain request.user)
    (hinvited : ∀ bindId, touch.invited.mayLose bindId) :
    (claim now request mode candidates).Careful touch now Named.all (fun _ _ => True) turns := by
  unfold claim
  refine (careful_foldlM [] (fun _ => True) (fun _ _ _ _ _ => careful_matchPending _ _ _)
    trivial).bind (List.nil_subset _) fun new₁ (matched, repos) _ _ => ?_
  refine careful_ite (fun _ => careful_pure trivial) fun _ => ?_
  refine (careful_mergeGranted (fun repo _ => husers repo) .grant).bind (by decide)
    fun new₂ added _ _ => ?_
  refine (careful_forM [.repos] fun _ repo _ => careful_addHolder hrepos repo).bind (by decide)
    fun new₃ _ _ _ => ?_
  refine (careful_forM [.invited, .pending] fun _ holder _ => ?_).bind (by decide)
    fun new₄ _ _ _ => careful_pure trivial
  exact (careful_clearPending (hinvited holder.bindId) request.perm).bind (List.Subset.refl _)
    fun _ _ _ _ => careful_pure trivial

theorem careful_forget {request : RevokeRequest}
    (hinvited : ∀ holder ∈ request.aliases, touch.invited.mayLose holder.bindId) :
    (forget now request).Careful touch now Named.all (fun _ _ => True) turns := by
  unfold forget
  refine careful_deleteUser.bind (by decide) fun new₁ users _ _ => ?_
  -- Taking the user out of all rows of repositories is the one write without a lock.
  refine careful_call (permits_of_free fun hneeds => hneeds.2 rfl) (fun table _ => table.mem_all)
    fun _ _ repos _ _ => ?_
  refine (careful_clearAliases hinvited).bind (by decide) fun new₂ pending _ _ => ?_
  exact (careful_overlays rfl).bind (by decide) fun new₃ overlays _ _ => careful_pure trivial

/-- A write of a client is careful. -/
theorem Write.careful_call (w : Write) :
    (w.call now).Careful (Mutation.write w).touch now Named.all (fun _ _ => True) turns := by
  cases w with
  | replaceHolders repo perm users => exact (careful_replaceHolders rfl rfl).widen
  | replaceInvited group repo perm => exact (careful_replaceInvited rfl rfl).widen
  | replaceAccount user account repos => exact (careful_replaceAccount rfl rfl account).widen
  | clearAliases holders =>
    have hholders : ∀ holder ∈ holders,
        (Mutation.write (.clearAliases holders)).touch.invited.mayLose holder.bindId :=
      fun holder hmem => ⟨holder, hmem, rfl⟩
    exact (careful_clearAliases hholders).widen
  | saveOverlay user repo overlay => exact (careful_overlays rfl).widen
  | deleteOverlays user => exact (careful_overlays rfl).widen
  | deleteUser user => exact careful_deleteUser.widen

/-- An operation that is a transaction is a careful one. -/
theorem Mutation.careful_plan {m : Mutation} {identityOf : UserId → Except AccessError Identity}
    {body : Tx (Ending m.Answer)} (h : m.plan identityOf now = .transaction body) :
    body.Careful m.touch now Named.all (fun _ _ => True) turns := by
  cases m with
  | write w =>
    obtain rfl := Plan.transaction.inj h
    exact w.careful_call.bind (List.Subset.refl _) fun _ _ _ _ => careful_pure trivial
  | grant request mode =>
    simp only [plan] at h
    split at h
    · cases h
    · split at h
      · cases h
      · obtain rfl := Plan.transaction.inj h
        exact careful_claim (fun _ => trivial) rfl fun _ => trivial
  | revoke request =>
    obtain rfl := Plan.transaction.inj h
    have hholders : ∀ holder ∈ request.aliases,
        (Mutation.revoke request).touch.invited.mayLose holder.bindId :=
      fun holder hmem => ⟨holder, hmem, rfl⟩
    exact (careful_forget hholders).bind (List.Subset.refl _) fun _ _ _ _ => careful_pure trivial
  | saveOverlay user repo overlay =>
    simp only [plan] at h
    split at h
    · cases h
    · obtain rfl := Plan.transaction.inj h
      exact (careful_overlays rfl).bind (by decide) fun _ _ _ _ => careful_pure trivial

end Operations

end RepoAccess

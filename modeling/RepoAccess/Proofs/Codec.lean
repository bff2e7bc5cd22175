/-
Reading undoes writing, for every type of the core.

* lawful codecs for enumerations, identifiers, principals, records of the store and requests;
* `UserHoldings.Proper` and its like — the records whose moments and counts can be written;
* `CoreType` — the types that are written as JSON, each with its values;
* `core_types_read_back` — every proper value is read back from its text, and what is read from any
  text is proper.
-/
import RepoAccess.Proofs.Codec.Law

namespace RepoAccess

open LawfulCodec

/-! ### Names and numbers -/

instance : LawfulCodec Permission fun _ => True :=
  ofNames (fun _ => rfl) (fun _ => rfl) fun a => by cases a <;> decide

instance : LawfulCodec ResourceKind fun _ => True :=
  ofNames (fun _ => rfl) (fun _ => rfl) fun a => by cases a; decide

instance : LawfulCodec BindingMode fun _ => True :=
  ofNames (fun _ => rfl) (fun _ => rfl) fun a => by cases a <;> decide

instance : LawfulCodec UserId fun _ => True :=
  ofNumber (fun _ => rfl) (fun _ => rfl) fun _ => rfl

instance : LawfulCodec RepoId fun _ => True :=
  ofNumber (fun _ => rfl) (fun _ => rfl) fun _ => rfl

instance : LawfulCodec AccountId fun _ => True :=
  ofNumber (fun _ => rfl) (fun _ => rfl) fun _ => rfl

/-- A source with an account is an object of one member, which is never taken for a plain name. -/
instance : LawfulCodec Source fun _ => True where
  readable s := by
    cases s with
    | repoSync => exact .string _
    | grant => exact .string _
    | account id => exact .object (by simp)
  as?_toJson s _ := by
    cases s with
    | repoSync => rfl
    | grant => rfl
    | account id =>
      show ((toJson id).as? AccountId).map Source.account = some (.account id)
      rw [as?_toJson id trivial]
      rfl
  proper_of_as? _ _ _ := trivial

/-! ### Principals -/

instance : LawfulCodec Provider fun _ => True :=
  ofRecord (fun _ => rfl) (fun _ => rfl) (fun _ => rfl) (by decide) (by simp)
    (by simp [Json.Record.required, List.lookup_cons]) fun _ _ _ => trivial

instance : LawfulCodec Alias fun _ => True :=
  ofRecord (fun _ => rfl) (fun _ => rfl) (fun _ => rfl) (by decide) (by simp)
    (by simp [Json.Record.required, List.lookup_cons]) fun _ _ _ => trivial

instance : LawfulCodec AliasGroup fun _ => True :=
  ofRecord (fun _ => rfl) (fun _ => rfl) (fun _ => rfl) (by decide) (by simp)
    (by simp [Json.Record.required, List.lookup_cons]) fun _ _ _ => trivial

instance : LawfulCodec AccountSpec fun _ => True :=
  ofRecord (fun _ => rfl) (fun _ => rfl) (fun _ => rfl) (by decide) (by simp)
    (by simp [Json.Record.required, List.lookup_cons]) fun _ _ _ => trivial

instance : LawfulCodec Account fun _ => True :=
  ofRecord (fun _ => rfl) (fun _ => rfl) (fun _ => rfl) (by decide) (by simp)
    (by simp [Json.Record.required, List.lookup_cons]) fun _ _ _ => trivial

instance : LawfulCodec EmailAddress fun _ => True :=
  ofRecord (fun _ => rfl) (fun _ => rfl) (fun _ => rfl) (by decide) (by simp)
    (by simp [Json.Record.required, List.lookup_cons]) fun _ _ _ => trivial

instance : LawfulCodec Identity fun _ => True :=
  ofRecord (fun _ => rfl) (fun _ => rfl) (fun _ => rfl) (by decide) (by simp)
    (by simp [Json.Record.required, Json.Record.optional, List.lookup_cons]) fun _ _ _ => trivial

instance : LawfulCodec Repo fun _ => True :=
  ofRecord (fun _ => rfl) (fun _ => rfl) (fun _ => rfl) (by decide) (by simp)
    (by simp [Json.Record.required, List.lookup_cons]) fun _ _ _ => trivial

/-! ### Records of the store -/

/-- The moments of the row can be written. -/
structure UserHoldings.Proper (h : UserHoldings) : Prop where
  updatedAt : h.updatedAt.Proper
  syncedAt : ∀ t ∈ h.syncedAt, t.Proper

instance : LawfulCodec UserHoldings UserHoldings.Proper :=
  ofRecord (fun _ => rfl) (fun _ => rfl) (fun _ => rfl) (by decide) (by simp)
    (fun h hp => by
      simp [Json.Record.required, Json.Record.optional, List.lookup_cons, hp.updatedAt,
        as?_toJson h.syncedAt hp.syncedAt])
    fun r h hbuild => by
      simp only [Option.bind_eq_bind, Option.bind_eq_some_iff] at hbuild
      obtain ⟨_, -, _, -, _, -, _, -, updatedAt, hupdated, syncedAt, hsynced, hsome⟩ := hbuild
      cases hsome
      exact ⟨proper_of_required hupdated, proper_of_optional hsynced⟩

/-- The moments of the row can be written. -/
structure RepoHolders.Proper (h : RepoHolders) : Prop where
  updatedAt : h.updatedAt.Proper
  syncedAt : ∀ t ∈ h.syncedAt, t.Proper

instance : LawfulCodec RepoHolders RepoHolders.Proper :=
  ofRecord (fun _ => rfl) (fun _ => rfl) (fun _ => rfl) (by decide) (by simp)
    (fun h hp => by
      simp [Json.Record.required, Json.Record.optional, List.lookup_cons, hp.updatedAt,
        as?_toJson h.syncedAt hp.syncedAt])
    fun r h hbuild => by
      simp only [Option.bind_eq_bind, Option.bind_eq_some_iff] at hbuild
      obtain ⟨_, -, _, -, _, -, updatedAt, hupdated, syncedAt, hsynced, hsome⟩ := hbuild
      cases hsome
      exact ⟨proper_of_required hupdated, proper_of_optional hsynced⟩

/-- The moment of the row can be written. -/
structure PendingHoldings.Proper (h : PendingHoldings) : Prop where
  updatedAt : h.updatedAt.Proper

instance : LawfulCodec PendingHoldings PendingHoldings.Proper :=
  ofRecord (fun _ => rfl) (fun _ => rfl) (fun _ => rfl) (by decide) (by simp)
    (fun h hp => by simp [Json.Record.required, List.lookup_cons, hp.updatedAt])
    fun r h hbuild => by
      simp only [Option.bind_eq_bind, Option.bind_eq_some_iff] at hbuild
      obtain ⟨_, -, _, -, _, -, _, -, updatedAt, hupdated, hsome⟩ := hbuild
      cases hsome
      exact ⟨proper_of_required hupdated⟩

/-- The moment of the row can be written. -/
structure PendingHolders.Proper (h : PendingHolders) : Prop where
  updatedAt : h.updatedAt.Proper

instance : LawfulCodec PendingHolders PendingHolders.Proper :=
  ofRecord (fun _ => rfl) (fun _ => rfl) (fun _ => rfl) (by decide) (by simp)
    (fun h hp => by simp [Json.Record.required, List.lookup_cons, hp.updatedAt])
    fun r h hbuild => by
      simp only [Option.bind_eq_bind, Option.bind_eq_some_iff] at hbuild
      obtain ⟨_, -, _, -, _, -, _, -, updatedAt, hupdated, hsome⟩ := hbuild
      cases hsome
      exact ⟨proper_of_required hupdated⟩

instance : LawfulCodec Overlay fun _ => True :=
  ofRecord (fun _ => rfl) (fun _ => rfl) (fun _ => rfl) (by decide) (by simp)
    (by simp [Json.Record.required]) fun _ _ _ => trivial

/-! ### Requests and outcomes -/

/-- The counts are 64-bit numbers. -/
structure ReplaceDiff.Proper (d : ReplaceDiff) : Prop where
  added : IsCount d.added
  removed : IsCount d.removed

instance : LawfulCodec ReplaceDiff ReplaceDiff.Proper :=
  ofRecord (fun _ => rfl) (fun _ => rfl) (fun _ => rfl) (by decide) (by simp)
    (fun d hp => by simp [Json.Record.required, List.lookup_cons, hp.added, hp.removed])
    fun r d hbuild => by
      simp only [Option.bind_eq_bind, Option.bind_eq_some_iff] at hbuild
      obtain ⟨added, hadded, removed, hremoved, _, -, hsome⟩ := hbuild
      cases hsome
      exact ⟨proper_of_required hadded, proper_of_required hremoved⟩

/-- The counts are 64-bit numbers. -/
structure GrantOutcome.Proper (o : GrantOutcome) : Prop where
  candidates : IsCount o.candidates
  matched : IsCount o.matched
  granted : IsCount o.granted
  added : IsCount o.added

instance : LawfulCodec GrantOutcome GrantOutcome.Proper :=
  ofRecord (fun _ => rfl) (fun _ => rfl) (fun _ => rfl) (by decide) (by simp)
    (fun o hp => by
      simp [Json.Record.required, List.lookup_cons, hp.candidates, hp.matched, hp.granted, hp.added])
    fun r o hbuild => by
      simp only [Option.bind_eq_bind, Option.bind_eq_some_iff] at hbuild
      obtain ⟨_, -, candidates, hcandidates, matched, hmatched, granted, hgranted, added, hadded,
        hsome⟩ := hbuild
      cases hsome
      exact ⟨proper_of_required hcandidates, proper_of_required hmatched,
        proper_of_required hgranted, proper_of_required hadded⟩

instance : LawfulCodec GrantRequest fun _ => True :=
  ofRecord (fun _ => rfl) (fun _ => rfl) (fun _ => rfl) (by decide) (by simp)
    (by simp [Json.Record.required, List.lookup_cons]) fun _ _ _ => trivial

instance : LawfulCodec AccessRequest fun _ => True :=
  ofRecord (fun _ => rfl) (fun _ => rfl) (fun _ => rfl) (by decide) (by simp)
    (by simp [Json.Record.required, List.lookup_cons]) fun _ _ _ => trivial

instance : LawfulCodec RevokeRequest fun _ => True :=
  ofRecord (fun _ => rfl) (fun _ => rfl) (fun _ => rfl) (by decide) (by simp)
    (by simp [Json.Record.required, List.lookup_cons]) fun _ _ _ => trivial

/-! ### The types of the core -/

/-- A type of the core. -/
inductive CoreType where
  | userId | repoId | accountId
  | permission | resourceKind | bindingMode | source
  | provider | holder | aliasGroup | accountSpec | account | emailAddress | identity | repo
  | userHoldings | repoHolders | pendingHoldings | pendingHolders | overlay
  | replaceDiff | grantOutcome | grantRequest | accessRequest | revokeRequest

namespace CoreType

/-- The values of a type. -/
abbrev Value : CoreType → Type
  | userId => UserId
  | repoId => RepoId
  | accountId => AccountId
  | permission => Permission
  | resourceKind => ResourceKind
  | bindingMode => BindingMode
  | source => Source
  | provider => Provider
  | holder => Alias
  | aliasGroup => AliasGroup
  | accountSpec => AccountSpec
  | account => Account
  | emailAddress => EmailAddress
  | identity => Identity
  | repo => Repo
  | userHoldings => UserHoldings
  | repoHolders => RepoHolders
  | pendingHoldings => PendingHoldings
  | pendingHolders => PendingHolders
  | overlay => Overlay
  | replaceDiff => ReplaceDiff
  | grantOutcome => GrantOutcome
  | grantRequest => GrantRequest
  | accessRequest => AccessRequest
  | revokeRequest => RevokeRequest

instance codec : (t : CoreType) → JsonCodec t.Value
  | userId | repoId | accountId | permission | resourceKind | bindingMode | source
  | provider | holder | aliasGroup | accountSpec | account | emailAddress | identity | repo
  | userHoldings | repoHolders | pendingHoldings | pendingHolders | overlay
  | replaceDiff | grantOutcome | grantRequest | accessRequest | revokeRequest => inferInstance

/-- The values that can be written: all of them, but for the bounds of moments and counts. -/
def Proper : (t : CoreType) → t.Value → Prop
  | userHoldings => UserHoldings.Proper
  | repoHolders => RepoHolders.Proper
  | pendingHoldings => PendingHoldings.Proper
  | pendingHolders => PendingHolders.Proper
  | replaceDiff => ReplaceDiff.Proper
  | grantOutcome => GrantOutcome.Proper
  | _ => fun _ => True

instance lawful (t : CoreType) : LawfulCodec t.Value t.Proper := by
  cases t <;> exact inferInstance

end CoreType

/-! ### Texts -/

namespace JsonCodec

variable {α : Type} [JsonCodec α]

/-- The text of a value. -/
def encode (a : α) : String := (toJson a).render

/-- The value of a text. -/
def decode? (α : Type) [JsonCodec α] (text : String) : Option α := (Json.parse text).bind (·.as? α)

/-- The text of the value of a text. -/
def recode? (α : Type) [JsonCodec α] (text : String) : Option String := (decode? α text).map encode

variable {P : α → Prop} [LawfulCodec α P]

theorem decode?_encode {a : α} (h : P a) : decode? α (encode a) = some a := by
  rw [decode?, encode, Json.parse_render (readable a), Option.bind_some, as?_toJson a h]

theorem encode_inj {a b : α} (ha : P a) (hb : P b) (h : encode a = encode b) : a = b := by
  have hread := decode?_encode ha
  rw [h, decode?_encode hb] at hread
  exact (Option.some.inj hread).symm

theorem proper_of_decode? {text : String} {a : α} (h : decode? α text = some a) : P a := by
  rw [decode?, Option.bind_eq_some_iff] at h
  obtain ⟨j, -, h⟩ := h
  exact proper_of_as? j a h

include P in
theorem recode?_of_recode? {text written : String} (h : recode? α text = some written) :
    recode? α written = some written := by
  rw [recode?, Option.map_eq_some_iff] at h
  obtain ⟨a, ha, rfl⟩ := h
  rw [recode?, decode?_encode (proper_of_decode? ha), Option.map_some]

end JsonCodec

open JsonCodec (encode decode? recode?)

/-- A value of a core type, all of whose moments and counts can be written, is read back from its
text, so two different ones have different texts. What is read from any text is such a value, and
the text it is written as is written again as it is. -/
theorem core_types_read_back (t : CoreType) :
    (∀ v : t.Value, t.Proper v → decode? t.Value (encode v) = some v) ∧
    (∀ v w : t.Value, t.Proper v → t.Proper w → encode v = encode w → v = w) ∧
    (∀ text v, decode? t.Value text = some v → t.Proper v) ∧
    ∀ text written, recode? t.Value text = some written →
      recode? t.Value written = some written :=
  ⟨fun _ => JsonCodec.decode?_encode, fun _ _ => JsonCodec.encode_inj,
    fun _ _ => JsonCodec.proper_of_decode?, fun _ _ => JsonCodec.recode?_of_recode?⟩

/-- A row with a negative number, two repositories and a moment of the year zero, and an alias with
characters that are escaped and one that is not. -/
theorem core_types_read_back_of_row_and_alias :
    let row : UserHoldings :=
      { user := ⟨-7⟩, perm := .read, repos := {⟨2⟩, ⟨1⟩}, updatedAt := ⟨1704164645, 123000000⟩,
        syncedAt := some ⟨-62167219200, 0⟩ }
    let holder : Alias := ⟨⟨"t", "\"\n"⟩, "\x01\\é"⟩
    CoreType.userHoldings.Proper row ∧
    encode row = "\x7b\"user_id\":-7,\"perm\":\"read\",\"perm_type\":\"repos\",\"ids\":[1,2]," ++
      "\"updated_at\":\"2024-01-02T03:04:05.123Z\",\"synced_at\":\"0000-01-01T00:00:00Z\"\x7d" ∧
    decode? UserHoldings (encode row) = some row ∧
    encode holder = "\x7b\"service_type\":\"t\",\"service_id\":\"\\\"\\n\"," ++
      "\"bind_id\":\"\\u0001\\\\é\"\x7d" ∧
    decode? Alias (encode holder) = some holder := by
  intro row holder
  have hrow : CoreType.userHoldings.Proper row := by
    refine ⟨Timestamp.proper_of_year (by decide) (by decide) (by decide), ?_⟩
    rintro t ht
    obtain rfl : _ = t := Option.some.inj ht
    exact Timestamp.proper_of_year (by decide) (by decide) (by decide)
  exact ⟨hrow, by decide +kernel, (core_types_read_back .userHoldings).1 row hrow,
    by decide +kernel, (core_types_read_back .holder).1 holder trivial⟩

end RepoAccess

/-
What becomes of the variables that are set.

* `Setting.key`, `Setting.Reads` — the variable of a field, and the texts that are values of it;
* `Setting.Says`, `Setting.Unreadable` — what the variables say of a field, and that its variable is
  set to bytes that are no value of it;
* `Setting.read`, `read_eq_ok_iff`, `exists_read_eq_error_iff` — what is read of one field;
* `Environment.IsHeeded` — every variable that is set counts, or is refused;
* `variables_are_read` — settings are refused exactly if a variable that must be a number, a truth
  value or a name is unreadable, and else every field has the value that its variable says, apart
  from unreadable texts.

A field that takes any text is unreadable only by bytes that are no text at all. Then it keeps its
default as if its variable were not set, and nothing tells.
-/
import Mathlib.Data.List.TakeWhile
import RepoAccess.Config.Environment
import RepoAccess.Proofs.Settings
import RepoAccess.Proofs.Utf8

namespace RepoAccess

/-- Either there is an error or there is a result. -/
theorem exists_eq_error_iff {ε α : Type} {x : Except ε α} :
    (∃ e, x = .error e) ↔ ¬∃ a, x = .ok a := by
  cases x with
  | error e => exact iff_of_true ⟨e, rfl⟩ nofun
  | ok a => exact iff_of_false nofun fun hnone => hnone ⟨a, rfl⟩

/-! ### Numbers and names -/

namespace Text

/-- The text is a number in decimal digits, a plus sign before them or not. -/
def IsNumber (text : String) (n : Nat) : Prop :=
  ∃ digits, digits ≠ [] ∧ (∀ c ∈ digits, c.isDigit = true) ∧ digitsValue digits = n ∧
    (text.toList = digits ∨ text.toList = '+' :: digits)

/-- A text without its sign. -/
def unsigned : List Char → List Char
  | '+' :: rest => rest
  | cs => cs

/-- What is read of a text without its sign; all of it must be digits. -/
theorem digits_eq_ok_iff {bound n : Nat} {cs : List Char} :
    (if bound ≤ digitsValue (cs.takeWhile Char.isDigit) then Except.error NumberError.tooLarge
      else if (cs.takeWhile Char.isDigit).isEmpty || (cs.takeWhile Char.isDigit).length < cs.length
      then .error .badDigit else .ok (digitsValue (cs.takeWhile Char.isDigit))) = .ok n ↔
      (cs ≠ [] ∧ (∀ c ∈ cs, c.isDigit = true) ∧ digitsValue cs = n) ∧ n < bound := by
  by_cases hdigits : ∀ c ∈ cs, c.isDigit = true
  · rw [List.takeWhile_eq_self_iff.2 hdigits]
    grind
  · have hlength : (cs.takeWhile Char.isDigit).length < cs.length := by
      refine lt_of_le_of_ne (List.takeWhile_sublist _).length_le fun heq => hdigits ?_
      exact List.takeWhile_eq_self_iff.1 ((List.takeWhile_sublist _).eq_of_length heq)
    simp only [hlength, decide_true, Bool.or_true, if_true, hdigits, false_and, and_false,
      iff_false]
    split <;> nofun

theorem unsigned_cases (cs : List Char) : cs = unsigned cs ∨ cs = '+' :: unsigned cs := by
  unfold unsigned
  split
  · exact .inr rfl
  · exact .inl rfl

theorem isNumber_iff {text : String} {n : Nat} :
    IsNumber text n ↔ unsigned text.toList ≠ [] ∧
      (∀ c ∈ unsigned text.toList, c.isDigit = true) ∧ digitsValue (unsigned text.toList) = n := by
  constructor
  · rintro ⟨digits, hne, hdigits, hvalue, hplain | hsigned⟩
    · have hunsigned : unsigned text.toList = digits := by
        rw [hplain]
        unfold unsigned
        split
        · next rest => exact absurd (hdigits '+' List.mem_cons_self) (by decide)
        · rfl
      rw [hunsigned]
      exact ⟨hne, hdigits, hvalue⟩
    · rw [hsigned]
      exact ⟨hne, hdigits, hvalue⟩
  · rintro ⟨hne, hdigits, hvalue⟩
    exact ⟨_, hne, hdigits, hvalue, unsigned_cases _⟩

/-- A number is read exactly if it is below the bound. -/
theorem parseNumber_eq_ok_iff {bound n : Nat} {text : String} :
    parseNumber bound text = .ok n ↔ IsNumber text n ∧ n < bound := by
  rw [isNumber_iff]
  by_cases hempty : text.isEmpty = true
  · have hnil : text.toList = [] := by simpa using hempty
    rw [parseNumber, if_pos hempty, hnil]
    simp [unsigned]
  · rw [← digits_eq_ok_iff, parseNumber, if_neg hempty]
    rfl

end Text

theorem parseTruthValue_eq_ok_iff {text : String} {truth : Bool} :
    parseTruthValue text = .ok truth ↔ text = toString truth := by
  unfold parseTruthValue
  by_cases htrue : text = "true"
  · subst htrue
    cases truth <;> decide
  by_cases hfalse : text = "false"
  · subst hfalse
    cases truth <;> decide
  · rw [if_neg htrue, if_neg hfalse]
    cases truth with
    | true => exact iff_of_false nofun htrue
    | false => exact iff_of_false nofun hfalse

/-- A name is read as what it is the name of. -/
theorem parseName_eq_ok_iff {α : Type} [Named α] {text : String} {a : α}
    (hname : ∀ a : α, Named.ofName? (name a) = some a) :
    parseName α text = .ok a ↔ text = name a := by
  unfold parseName
  constructor
  · intro h
    split at h
    · next b hfound =>
      rw [← Except.ok.inj h]
      have hbeq : (name b == text) = true := List.find?_some (p := fun a => name a == text) hfound
      exact (beq_iff_eq.1 hbeq).symm
    · cases h
  · rintro rfl
    rw [hname]

/-- A number is read into a type that has room for it. -/
theorem map_parseNumber_eq_ok_iff {α : Type} {size : Nat} {ofNat : Nat → α} {toNat : α → Nat}
    (hofNat : ∀ n < size, toNat (ofNat n) = n) (htoNat : ∀ a, ofNat (toNat a) = a ∧ toNat a < size)
    {text : String} {a : α} :
    ofNat <$> (Text.parseNumber size text).mapError VariableError.number = .ok a ↔
      Text.IsNumber text (toNat a) := by
  have hread : ofNat <$> (Text.parseNumber size text).mapError VariableError.number = .ok a ↔
      ∃ n, Text.parseNumber size text = .ok n ∧ ofNat n = a := by
    cases Text.parseNumber size text <;> simp [Except.mapError, Functor.map, Except.map]
  rw [hread]
  constructor
  · rintro ⟨n, hn, rfl⟩
    obtain ⟨hnumber, hlt⟩ := Text.parseNumber_eq_ok_iff.1 hn
    rwa [hofNat n hlt]
  · intro hnumber
    exact ⟨toNat a, Text.parseNumber_eq_ok_iff.2 ⟨hnumber, (htoNat a).2⟩, (htoNat a).1⟩

namespace Setting

/-! ### Variables -/

/-- The variable of a field. -/
def key : Setting → String
  | bindId => "AUTHZ_BIND_ID"
  | backend => "AUTHZ_STORE_BACKEND"
  | host => "PG_HOST"
  | port => "PG_PORT"
  | database => "PG_DATABASE"
  | username => "PG_USERNAME"
  | password => "PG_PASSWORD"
  | poolSize => "PG_POOL_SIZE"
  | timeoutSeconds => "PG_TIMEOUT_SECONDS"
  | operationTimeoutMs => "AUTHZ_OPERATION_TIMEOUT_MS"
  | metricsEnabled => "AUTHZ_METRICS_ENABLED"
  | loggingLevel => "AUTHZ_LOGGING_LEVEL"

/-- The field takes any text. -/
def isText : Setting → Bool
  | host | database | username | password | loggingLevel => true
  | _ => false

/-- The text is a value of the field, written out. -/
def Reads : (s : Setting) → String → s.Value → Prop
  | bindId, text, mode => text = name mode
  | backend, text, store => text = name store
  | host, text, v | database, text, v | username, text, v | password, text, v
  | loggingLevel, text, v => v = text
  | port, text, n => Text.IsNumber text n.toNat
  | poolSize, text, n => Text.IsNumber text n.toNat
  | timeoutSeconds, text, n => Text.IsNumber text n.toNat
  | operationTimeoutMs, text, limit => ∃ ms, limit = some ms ∧ Text.IsNumber text ms.toNat
  | metricsEnabled, text, truth => text = toString truth

/-- What a text is read as. -/
def parse : (s : Setting) → String → Except VariableError s.Value
  | bindId => parseName BindingMode
  | backend => parseName StoreBackend
  | host | database | username | password | loggingLevel => .ok
  | port => fun text => Nat.toUInt16 <$> (Text.parseNumber UInt16.size text).mapError .number
  | poolSize => fun text => Nat.toUInt32 <$> (Text.parseNumber UInt32.size text).mapError .number
  | timeoutSeconds => fun text =>
    Nat.toUInt64 <$> (Text.parseNumber UInt64.size text).mapError .number
  | operationTimeoutMs => fun text =>
    (fun ms => some ms.toUInt64) <$> (Text.parseNumber UInt64.size text).mapError .number
  | metricsEnabled => parseTruthValue

/-- A text is read as a value exactly if it is that value written out. -/
theorem parse_eq_ok_iff {s : Setting} {text : String} {v : s.Value} :
    s.parse text = .ok v ↔ s.Reads text v := by
  have hlimit : ∀ ms : UInt64, Nat.toUInt64 <$>
      (Text.parseNumber UInt64.size text).mapError VariableError.number = .ok ms ↔
        Text.IsNumber text ms.toNat :=
    fun ms => map_parseNumber_eq_ok_iff (fun n hn => UInt64.toNat_ofNat_of_lt hn) fun a =>
      ⟨UInt64.ofNat_toNat, a.toNat_lt⟩
  cases s with
  | bindId => exact parseName_eq_ok_iff fun a => by cases a <;> decide
  | backend => exact parseName_eq_ok_iff fun a => by cases a <;> decide
  | host | database | username | password | loggingLevel =>
    exact ⟨fun h => (Except.ok.inj h).symm, fun h => congrArg Except.ok h.symm⟩
  | port =>
    exact map_parseNumber_eq_ok_iff (fun n hn => UInt16.toNat_ofNat_of_lt hn) fun a =>
      ⟨UInt16.ofNat_toNat, a.toNat_lt⟩
  | poolSize =>
    exact map_parseNumber_eq_ok_iff (fun n hn => UInt32.toNat_ofNat_of_lt hn) fun a =>
      ⟨UInt32.ofNat_toNat, a.toNat_lt⟩
  | timeoutSeconds => exact hlimit v
  | metricsEnabled => exact parseTruthValue_eq_ok_iff
  | operationTimeoutMs =>
    show (fun ms => some ms.toUInt64) <$>
      (Text.parseNumber UInt64.size text).mapError VariableError.number = .ok v ↔
        ∃ ms, v = some ms ∧ Text.IsNumber text ms.toNat
    simp only [← hlimit]
    cases Text.parseNumber UInt64.size text with
    | error e => simp [Except.mapError, Functor.map, Except.map]
    | ok n => simp [Except.mapError, Functor.map, Except.map, eq_comm]

/-- A field that takes any text reads every text. -/
theorem exists_reads_of_isText {s : Setting} (htext : s.isText = true) (text : String) :
    ∃ v, s.Reads text v := by
  cases s with
  | host | database | username | password | loggingLevel => exact ⟨text, rfl⟩
  | _ => cases htext

/-- The bytes are a value of the field, written out. -/
def Denotes (s : Setting) (bytes : List UInt8) (v : s.Value) : Prop :=
  ∃ text, bytes = Text.Utf8.encode text ∧ s.Reads text v

/-- What bytes are read as. -/
def parseBytes (s : Setting) (bytes : List UInt8) : Except VariableError s.Value :=
  match Text.Utf8.decode bytes with
  | .ok text => s.parse text
  | .error _ => if s.isText then .ok (({} : Config).get s) else .error (.notText bytes)

/-- Bytes are read as what they denote. If they denote nothing, a field that takes any text keeps
its default. -/
theorem parseBytes_eq_ok_iff {s : Setting} {bytes : List UInt8} {v : s.Value} :
    s.parseBytes bytes = .ok v ↔ s.Denotes bytes v ∨
      s.isText = true ∧ (∀ v, ¬s.Denotes bytes v) ∧ v = ({} : Config).get s := by
  unfold parseBytes Denotes
  cases hdecode : Text.Utf8.decode bytes with
  | ok text =>
    have hbytes : bytes = Text.Utf8.encode text := Text.Utf8.decode_eq_ok_iff.1 hdecode
    show s.parse text = .ok v ↔ _
    rw [parse_eq_ok_iff]
    constructor
    · exact fun hreads => .inl ⟨text, hbytes, hreads⟩
    · rintro (⟨text', hbytes', hreads⟩ | ⟨htext, hnone, -⟩)
      · rw [Text.Utf8.decode_eq_ok_iff.2 hbytes'] at hdecode
        rwa [← Except.ok.inj hdecode]
      · obtain ⟨v', hreads⟩ := exists_reads_of_isText htext text
        exact absurd ⟨text, hbytes, hreads⟩ (hnone v')
  | error invalid =>
    have hnone : ∀ v, ¬∃ text, bytes = Text.Utf8.encode text ∧ s.Reads text v := by
      rintro v ⟨text, hbytes, -⟩
      rw [Text.Utf8.decode_eq_ok_iff.2 hbytes] at hdecode
      cases hdecode
    simp only [hnone v, false_or]
    cases s.isText with
    | true => simp [hnone, eq_comm]
    | false => simp

variable (env : Environment) (s : Setting)

/-- What the variables say of a field: what its variable denotes, or its default if that is not
set. -/
def Says (v : s.Value) : Prop :=
  match env.lookup s.key with
  | none => v = ({} : Config).get s
  | some bytes => s.Denotes bytes v

/-- The variable of the field is set, but not to a value of it. -/
def Unreadable : Prop :=
  ∃ bytes, env.lookup s.key = some bytes ∧ ∀ v, ¬s.Denotes bytes v

/-- What is read of a field. -/
def read : Except VariableError s.Value :=
  match env.lookup s.key with
  | none => .ok (({} : Config).get s)
  | some bytes => s.parseBytes bytes

variable {env s}

/-- A variable that is not unreadable says something. -/
theorem exists_says_iff : (∃ v, s.Says env v) ↔ ¬s.Unreadable env := by
  unfold Says Unreadable
  cases env.lookup s.key with
  | none => simp
  | some bytes => simp

/-- The value is what the variables say, unless an unreadable text is passed over. -/
theorem read_eq_ok_iff {v : s.Value} :
    s.read env = .ok v ↔
      s.Says env v ∨ s.isText = true ∧ s.Unreadable env ∧ v = ({} : Config).get s := by
  unfold read Says Unreadable
  cases env.lookup s.key with
  | none =>
    simp only [Except.ok.injEq, reduceCtorEq, false_and, exists_false, and_false, or_false]
    exact eq_comm
  | some bytes => simpa using parseBytes_eq_ok_iff

/-- A field is refused exactly if it does not take any text and its variable is unreadable. -/
theorem exists_read_eq_error_iff :
    (∃ e, s.read env = .error e) ↔ s.isText = false ∧ s.Unreadable env := by
  simp only [exists_eq_error_iff, read_eq_ok_iff, exists_or, exists_says_iff, exists_and_left,
    exists_eq, and_true, not_or, not_not, not_and]
  cases s.isText <;> simp

/-! ### One field after the other -/

/-- What is read of a field that must be readable. -/
theorem read_eq_map {α : Type} {parse : String → Except VariableError α}
    {value : Option α → s.Value} (htext : s.isText = false) (hnone : value none = ({} : Config).get s)
    (hsome : ∀ text, s.parse text = (fun a => value (some a)) <$> parse text) :
    s.read env = value <$> env.read? s.key parse := by
  unfold read Environment.read?
  cases env.lookup s.key with
  | none => exact congrArg Except.ok hnone.symm
  | some bytes =>
    simp only [parseBytes, htext]
    cases Text.Utf8.decode bytes with
    | error invalid => rfl
    | ok text =>
      simp only [hsome]
      cases parse text <;> rfl

/-- What is read of a field that takes any text. -/
theorem read_eq_textOr (env : Environment) :
    host.read env = .ok (env.textOr "PG_HOST" "localhost") ∧
      database.read env = .ok (env.textOr "PG_DATABASE" "authz") ∧
      username.read env = .ok (env.textOr "PG_USERNAME" "postgres") ∧
      password.read env = .ok (env.textOr "PG_PASSWORD" "") ∧
      loggingLevel.read env = .ok (env.textOr "AUTHZ_LOGGING_LEVEL" "info") := by
  have htext : ∀ key default : String,
      (match env.lookup key with
        | none => .ok default
        | some bytes =>
          match Text.Utf8.decode bytes with
          | .ok text => .ok text
          | .error _ => .ok default : Except VariableError String) =
        .ok (env.textOr key default) := by
    intro key default
    unfold Environment.textOr
    cases env.lookup key with
    | none => rfl
    | some bytes =>
      dsimp only
      cases Text.Utf8.decode bytes <;> rfl
  exact ⟨htext _ _, htext _ _, htext _ _, htext _ _, htext _ _⟩

end Setting

namespace Config

/-- The settings are read one after another, in the order of the fields. -/
theorem ofEnvironment_eq (env : Environment) :
    ofEnvironment env = do
      let bindId ← Setting.bindId.read env
      let backend ← Setting.backend.read env
      let host ← Setting.host.read env
      let port ← Setting.port.read env
      let database ← Setting.database.read env
      let username ← Setting.username.read env
      let password ← Setting.password.read env
      let poolSize ← Setting.poolSize.read env
      let timeoutSeconds ← Setting.timeoutSeconds.read env
      let operationTimeoutMs ← Setting.operationTimeoutMs.read env
      let metricsEnabled ← Setting.metricsEnabled.read env
      let loggingLevel ← Setting.loggingLevel.read env
      return { mapping := ⟨bindId⟩
               store :=
                 { backend
                   postgres :=
                     { host, port, database, username, password, poolSize, timeoutSeconds } }
               engine := ⟨operationTimeoutMs⟩
               observability := ⟨metricsEnabled, loggingLevel⟩ } := by
  have hbindId : Setting.bindId.read env =
      (·.getD .unset) <$> env.read? "AUTHZ_BIND_ID" (parseName BindingMode) :=
    Setting.read_eq_map rfl rfl fun _ => (id_map _).symm
  have hbackend : Setting.backend.read env =
      (·.getD .memory) <$> env.read? "AUTHZ_STORE_BACKEND" (parseName StoreBackend) :=
    Setting.read_eq_map rfl rfl fun _ => (id_map _).symm
  have hport : Setting.port.read env =
      (fun n => (n.map Nat.toUInt16).getD 5432) <$> env.number? "PG_PORT" UInt16.size :=
    Setting.read_eq_map rfl rfl fun _ => rfl
  have hpoolSize : Setting.poolSize.read env =
      (fun n => (n.map Nat.toUInt32).getD 10) <$> env.number? "PG_POOL_SIZE" UInt32.size :=
    Setting.read_eq_map rfl rfl fun _ => rfl
  have htimeout : Setting.timeoutSeconds.read env =
      (fun n => (n.map Nat.toUInt64).getD 30) <$> env.number? "PG_TIMEOUT_SECONDS" UInt64.size :=
    Setting.read_eq_map rfl rfl fun _ => rfl
  have hlimit : Setting.operationTimeoutMs.read env =
      (·.map Nat.toUInt64) <$> env.number? "AUTHZ_OPERATION_TIMEOUT_MS" UInt64.size :=
    Setting.read_eq_map rfl rfl fun _ => rfl
  have hmetrics : Setting.metricsEnabled.read env =
      (·.getD true) <$> env.read? "AUTHZ_METRICS_ENABLED" parseTruthValue :=
    Setting.read_eq_map rfl rfl fun _ => (id_map _).symm
  obtain ⟨hhost, hdatabase, husername, hpassword, hlevel⟩ := Setting.read_eq_textOr env
  -- The texts are never refused, so it does not matter when they are read.
  rw [hbindId, hbackend, hhost, hport, hdatabase, husername, hpassword, hpoolSize, htimeout, hlimit,
    hmetrics, hlevel]
  simp only [ofEnvironment, PostgresConfig.ofEnvironment, bind_map_left, bind_assoc, pure_bind]
  rfl

/-- The settings with these values. -/
def ofValues (value : (s : Setting) → s.Value) : Config :=
  { mapping := ⟨value .bindId⟩
    store :=
      { backend := value .backend
        postgres :=
          { host := value .host
            port := value .port
            database := value .database
            username := value .username
            password := value .password
            poolSize := value .poolSize
            timeoutSeconds := value .timeoutSeconds } }
    engine := ⟨value .operationTimeoutMs⟩
    observability := ⟨value .metricsEnabled, value .loggingLevel⟩ }

theorem get_ofValues (value : (s : Setting) → s.Value) (s : Setting) :
    (ofValues value).get s = value s := by
  cases s <;> rfl

variable {env : Environment}

/-- Settings are read exactly if every field is. -/
theorem ofEnvironment_eq_ok_iff {c : Config} :
    ofEnvironment env = .ok c ↔ ∀ s : Setting, s.read env = .ok (c.get s) := by
  rw [ofEnvironment_eq]
  constructor
  · intro h
    simp only [bind, Except.bind] at h
    -- The first field that is refused would be the end.
    repeat' split at h
    all_goals cases h
    intro s
    cases s <;> assumption
  · intro h
    simp only [h]
    rfl

/-- Settings are refused exactly if some field is. -/
theorem exists_ofEnvironment_eq_error_iff :
    (∃ e, ofEnvironment env = .error e) ↔
      ∃ s : Setting, s.isText = false ∧ s.Unreadable env := by
  have hread : (∃ c, ofEnvironment env = .ok c) ↔ ∀ s : Setting, ∃ v, s.read env = .ok v := by
    constructor
    · rintro ⟨c, hc⟩ s
      exact ⟨c.get s, ofEnvironment_eq_ok_iff.1 hc s⟩
    · intro h
      -- Whatever each field is read as makes up the settings.
      refine ⟨ofValues fun s => (h s).choose, ofEnvironment_eq_ok_iff.2 fun s => ?_⟩
      rw [get_ofValues]
      exact (h s).choose_spec
  rw [exists_eq_error_iff, hread, not_forall]
  exact exists_congr fun s => by rw [← exists_eq_error_iff, Setting.exists_read_eq_error_iff]

end Config

/-- Every variable that is set counts: either it is a reason to refuse the settings, or its field
has the value that it denotes. -/
def Environment.IsHeeded (env : Environment) : Prop :=
  ((∃ e, Config.ofEnvironment env = .error e) ↔ ∃ s : Setting, s.Unreadable env) ∧
    ∀ c, Config.ofEnvironment env = .ok c → ∀ s : Setting, s.Says env (c.get s)

/-- Settings are refused exactly if a variable that must be a number, a truth value or a name is
unreadable. Otherwise every field has the value that its variable denotes, or its default if that is
not set; only a field that takes any text has its default also if its variable is unreadable. So
every variable counts exactly if one is refused or all texts can be read. -/
theorem variables_are_read (env : Environment) :
    ((∃ e, Config.ofEnvironment env = .error e) ↔
      ∃ s : Setting, s.isText = false ∧ s.Unreadable env) ∧
    (∀ c, Config.ofEnvironment env = .ok c ↔ ∀ s : Setting, s.Says env (c.get s) ∨
      s.isText = true ∧ s.Unreadable env ∧ c.get s = ({} : Config).get s) ∧
    (env.IsHeeded ↔ (∃ s : Setting, s.isText = false ∧ s.Unreadable env) ∨
      ∀ s : Setting, s.isText = true → ¬s.Unreadable env) := by
  have hread : ∀ c, Config.ofEnvironment env = .ok c ↔ ∀ s : Setting, s.Says env (c.get s) ∨
      s.isText = true ∧ s.Unreadable env ∧ c.get s = ({} : Config).get s := by
    intro c
    rw [Config.ofEnvironment_eq_ok_iff]
    exact forall_congr' fun s => Setting.read_eq_ok_iff
  refine ⟨Config.exists_ofEnvironment_eq_error_iff, hread, ?_⟩
  by_cases hrefused : ∃ s : Setting, s.isText = false ∧ s.Unreadable env
  · -- Nothing is promised of the other variables then.
    have herror : ∃ e, Config.ofEnvironment env = .error e :=
      Config.exists_ofEnvironment_eq_error_iff.2 hrefused
    refine iff_of_true ⟨iff_of_true herror ?_, fun c hc => ?_⟩ (.inl hrefused)
    · obtain ⟨s, -, hs⟩ := hrefused
      exact ⟨s, hs⟩
    · exact absurd ⟨c, hc⟩ (exists_eq_error_iff.1 herror)
  · have hok : ¬∃ e, Config.ofEnvironment env = .error e :=
      fun herror => hrefused (Config.exists_ofEnvironment_eq_error_iff.1 herror)
    simp only [Environment.IsHeeded, hok, hrefused, false_iff, false_or]
    constructor
    · rintro ⟨hreadable, -⟩ s - hs
      exact hreadable ⟨s, hs⟩
    · intro htexts
      have hreadable : ∀ s : Setting, ¬s.Unreadable env := by
        intro s hs
        cases htext : s.isText with
        | true => exact htexts s htext hs
        | false => exact hrefused ⟨s, htext, hs⟩
      refine ⟨fun ⟨s, hs⟩ => hreadable s hs, fun c hc s => ?_⟩
      obtain hsays | ⟨-, hs, -⟩ := (hread c).1 hc s
      · exact hsays
      · exact absurd hs (hreadable s)

/-- A host that is no text goes unnoticed, and the default host is used. -/
theorem unreadable_host_is_passed_over :
    let env : Environment := [("PG_HOST", [0xFF])]
    Setting.host.Unreadable env ∧ Config.ofEnvironment env = .ok {} ∧ ¬env.IsHeeded := by
  intro env
  have hbytes : ∀ text, Text.Utf8.decode [0xFF] ≠ .ok text := by
    intro text
    simp [Text.Utf8.decode, Text.Utf8.pieces, Text.Utf8.piece, Text.Utf8.follow?, Text.Utf8.textOf]
  have hhost : Setting.host.Unreadable env := by
    refine ⟨[0xFF], rfl, ?_⟩
    rintro v ⟨text, hencode, -⟩
    exact hbytes text (Text.Utf8.decode_eq_ok_iff.2 hencode)
  have hok : Config.ofEnvironment env = .ok {} := by
    rw [Config.ofEnvironment_eq_ok_iff]
    intro s
    rw [Setting.read_eq_ok_iff]
    cases s with
    | host => exact .inr ⟨rfl, hhost, rfl⟩
    | _ => exact .inl rfl
  refine ⟨hhost, hok, ?_⟩
  rintro ⟨hrefused, -⟩
  obtain ⟨e, he⟩ := hrefused.2 ⟨.host, hhost⟩
  rw [hok] at he
  cases he

end RepoAccess

/-
Logging in to a database.

* `Login` — whom a connection presents, and where it goes.
* `Login.ofUrl` — the login of a connection URL.
* `Login.address` — the machine or the directory of the socket, and the port.

A parameter of the URL overrides what stands before it, the last one of a name counts, and an empty
value is a value. Parameters that change neither the login nor the address are read over, but some
of them must be readable.
-/
import RepoAccess.Error
import RepoAccess.Text.Number
import RepoAccess.Url

namespace RepoAccess

/-- Whom a connection presents, and where it goes. -/
structure Login where
  /-- The user, whose name a URL may leave out. -/
  user : String := "anonymous"
  password : String := ""
  /-- The database, unless the server is to choose it. -/
  database : Option String := none
  /-- The machine. -/
  host : String := "localhost"
  /-- The directory of the socket, which counts before the machine. -/
  directory : Option String := none
  port : Nat := 5432
deriving DecidableEq, Repr

namespace Login

/-- The machine or the directory of the socket, and the port. -/
def address (l : Login) : String × Nat := (l.directory.getD l.host, l.port)

/-! ### Parts of a URL -/

/-- The text that a part of a URL stands for. -/
def decodePart (part : String) : Except DatabaseError String :=
  (Text.Utf8.decode (Url.percentDecode (Text.Utf8.encode part))).mapError fun e => .badUrl e.message

/-- The login with the host of a URL: the name of a machine as it is written, or a directory, whose
name is decoded. -/
def atHost (host : String) (l : Login) : Except DatabaseError Login := do
  if (Url.percentDecode (Text.Utf8.encode host)).head? = some 0x2F then
    return { l with directory := some (← decodePart host) }
  else if host.isEmpty then return l
  else return { l with host }

/-- The login with the parts of a URL before its parameters. -/
def ofParts (url : Url) : Except DatabaseError Login := do
  let l ← atHost url.host {}
  let user ← decodePart url.username
  let password ← decodePart url.password
  let database ← decodePart (String.ofList (url.path.toList.dropWhile (· == '/')))
  return { l with user := if user.isEmpty then l.user else user
                  password
                  database := if database.isEmpty then none else some database
                  port := url.port.getD l.port }

/-! ### Parameters -/

/-- How far a connection is to be encrypted. -/
def encryptionModes : List String :=
  ["disable", "allow", "prefer", "require", "verify-ca", "verify-full"]

/-- An encryption mode, whatever the case of its letters. -/
def checkEncryption (mode : String) : Except DatabaseError Unit :=
  if encryptionModes.contains (String.ofList (mode.toList.map Char.toLower)) then .ok ()
  else
    let reason := "unknown value " ++ Text.quoted mode ++ " for `ssl_mode`"
    .error (.badUrl (DatabaseError.badUrl reason).message)

/-- The address of a machine in numbers. -/
def checkAddress (address : String) : Except DatabaseError Unit :=
  if Url.isIpv4 address.toList || Url.isIpv6 address.toList then .ok ()
  else .error (.badUrl "invalid IP address syntax")

/-- The number in a parameter. -/
def parameterNumber (bound : Nat) (text : String) : Except DatabaseError Nat :=
  (Text.parseNumber bound text).mapError fun e => .badUrl e.message

/-- The login with a parameter, by its name and its value. -/
def withParameter (l : Login) (parameter : String × String) : Except DatabaseError Login :=
  let (key, text) := parameter
  match key with
  | "user" => .ok { l with user := text }
  | "password" => .ok { l with password := text }
  | "dbname" => .ok { l with database := some text }
  | "port" => (parameterNumber UInt16.size text).map fun port => { l with port }
  | "host" =>
    .ok (if text.startsWith "/" then { l with directory := some text } else { l with host := text })
  | "hostaddr" => (checkAddress text).map fun _ => { l with host := text }
  | "sslmode" | "ssl-mode" => (checkEncryption text).map fun _ => l
  | "statement-cache-capacity" => (parameterNumber UInt64.size text).map fun _ => l
  | _ => .ok l

/-- The login of a connection URL. -/
def ofUrl (text : String) : Except DatabaseError Login := do
  let url ← (Url.parse text).mapError fun e => .badUrl e.message
  (Url.formPairs url.query.toList).foldlM withParameter (← ofParts url)

end Login

end RepoAccess

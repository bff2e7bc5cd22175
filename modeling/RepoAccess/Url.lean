/-
Connection URLs.

* `Url` — user name, password, host, port, path and parameters.
* `Url.parse` — the parts of a URL whose scheme gives no part a special meaning.
* `UrlError` — why a text is no such URL.

The user information ends at the last `@` before the path, so an `@` in a password does no harm, but
a slash there ends it early. The path is resolved. Other parts are kept as they are written, percent
signs and all.
-/
import RepoAccess.Url.Path

namespace RepoAccess

/-- Why a text is no URL. -/
inductive UrlError where
  | emptyHost
  | badPort
  | badIpv6
  | badHostCharacter
deriving DecidableEq, Repr

/-- The wording of an error. -/
def UrlError.message : UrlError → String
  | .emptyHost => "empty host"
  | .badPort => "invalid port number"
  | .badIpv6 => "invalid IPv6 address"
  | .badHostCharacter => "invalid domain character"

/-- The parts of a URL. -/
structure Url where
  username : String
  password : String
  host : String
  port : Option Nat
  path : String
  /-- What stands behind the question mark. -/
  query : String
deriving DecidableEq, Repr

namespace Url

/-! ### Splitting -/

/-- The character ends the part before the path. -/
def endsAuthority (c : Char) : Bool := c == '/' || c == '?' || c == '#'

/-- The texts before and behind the last `@`, if there is one. -/
def cutUserInfo (cs : List Char) : Option (List Char × List Char) :=
  let behind := (cs.reverse.takeWhile (· != '@')).reverse
  if behind.length = cs.length then none
  else some (cs.take (cs.length - behind.length - 1), behind)

/-! ### Hosts -/

/-- A byte in decimal digits without a leading zero. -/
def isDecimalByte (cs : List Char) : Bool :=
  !cs.isEmpty && cs.all Char.isDigit && (cs.length == 1 || cs.head? != some '0') &&
    Text.digitsValue cs ≤ 255

/-- An IPv4 address: four decimal bytes with points between them. -/
def isIpv4 (cs : List Char) : Bool :=
  let parts := splitAt '.' cs
  parts.length == 4 && parts.all isDecimalByte

/-- Up to four hexadecimal digits. -/
def isHexGroup (cs : List Char) : Bool :=
  !cs.isEmpty && cs.length ≤ 4 && cs.all fun c => (Text.hexValue? c).isSome

/-- How many groups of 16 bits a text of groups has; its last group may be an IPv4 address. -/
def groupCount? (cs : List Char) : Option Nat :=
  if cs.isEmpty then some 0
  else
    let groups := splitAt ':' cs
    if groups.all isHexGroup then some groups.length
    else if groups.dropLast.all isHexGroup && isIpv4 (groups.getLast?.getD []) then
      some (groups.length + 1)
    else none

/-- The texts before and behind the first double colon, if there is one. -/
def cutDoubleColon : List Char → Option (List Char × List Char)
  | ':' :: ':' :: rest => some ([], rest)
  | c :: rest => (cutDoubleColon rest).map fun (before, behind) => (c :: before, behind)
  | [] => none

/-- An IPv6 address: eight groups of 16 bits; a double colon stands for one or more of zeros. -/
def isIpv6 (cs : List Char) : Bool :=
  match cutDoubleColon cs with
  | some (before, behind) =>
    match groupCount? before, groupCount? behind with
    | some n, some m => n + m ≤ 7 && (splitAt ':' before).all fun g => g.isEmpty || isHexGroup g
    | _, _ => false
  | none => groupCount? cs == some 8 && !cs.isEmpty

/-- The character may not stand in a host. -/
def isForbiddenInHost (c : Char) : Bool :=
  ['\x00', '\t', '\n', '\r', ' ', '#', '/', ':', '<', '>', '?', '@', '[', '\\', ']', '^',
    '|'].contains c

/-- A host: an IPv6 address in square brackets, or any other name. -/
def checkHost (host : List Char) : Except UrlError Unit :=
  match host with
  | '[' :: rest =>
    if rest.getLast? = some ']' ∧ isIpv6 rest.dropLast then .ok () else .error .badIpv6
  | _ => if host.any isForbiddenInHost then .error .badHostCharacter else .ok ()

/-- The host, up to a colon outside square brackets, and the rest. -/
def cutHost (inBrackets : Bool) : List Char → List Char × List Char
  | [] => ([], [])
  | c :: rest =>
    if c = ':' ∧ !inBrackets then ([], c :: rest)
    else
      let (host, behind) := cutHost (c = '[' || (inBrackets && c != ']')) rest
      (c :: host, behind)

/-- A port: digits, or nothing; and the text behind them, which starts with a backslash if there is
any. -/
def parsePort (cs : List Char) : Except UrlError (Option Nat × List Char) :=
  let digits := cs.takeWhile Char.isDigit
  let rest := cs.drop digits.length
  if rest.head?.any (· != '\\') || 65535 < Text.digitsValue digits then .error .badPort
  else .ok (if digits.isEmpty then none else some (Text.digitsValue digits), rest)

/-! ### The whole URL -/

/-- The characters of a text that count: no tabs and line ends anywhere, and no blanks or control
characters at either end. -/
def significant (s : String) : List Char :=
  let isEdge (c : Char) : Bool := c.toNat ≤ 32
  let trimmed := ((s.toList.dropWhile isEdge).reverse.dropWhile isEdge).reverse
  trimmed.filter fun c => c != '\t' && c != '\n' && c != '\r'

/-- The user name and the password in front of the host; the password starts behind the first
colon. -/
def parseUserInfo (cs : List Char) : String × String :=
  let (username, password) := cutAt ':' cs
  (String.ofList username, String.ofList (password.getD []))

/-- The parts of the text behind the scheme and its two slashes. -/
def parseBehindScheme (cs : List Char) : Except UrlError Url := do
  let authority := cs.takeWhile fun c => !endsAuthority c
  let behind := cs.drop authority.length
  let userInfo := cutUserInfo authority
  let (username, password) := parseUserInfo ((userInfo.map (·.1)).getD [])
  let place := (userInfo.map (·.2)).getD authority
  let (host, rest) := cutHost false place
  if userInfo.any (·.1.isEmpty) && place.isEmpty && !behind.isEmpty then throw .emptyHost
  checkHost host
  if host.isEmpty && !rest.isEmpty then throw .emptyHost
  let (port, behindPort) ← parsePort (rest.drop 1)
  if host.isEmpty && !(username.isEmpty && password.isEmpty) then throw .emptyHost
  let start := if behindPort.isEmpty then [] else '/' :: behindPort
  let (beforeFragment, _) := cutAt '#' (start ++ behind)
  let (path, query) := cutAt '?' beforeFragment
  return { username, password, host := String.ofList host, port
           path := String.ofList (resolvePath path), query := String.ofList (query.getD []) }

/-- The parts of a URL. -/
def parse (url : String) : Except UrlError Url :=
  parseBehindScheme (((significant url).dropWhile (· != '/')).drop 2)

end Url

end RepoAccess

/-
What a connection URL says of the settings it is made of.

* `Url.cutAt_append`, `Url.cutUserInfo_append`, `eq_of_first_mark`, `eq_of_last_mark` — texts with a
  mark between them come apart again, if one of them is free of the mark;
* `PostgresConfig.IsSeparable`, `url_eq_iff` — settings whose texts are free of the marks behind
  them have the same URL only if they are the same;
* `Url.parseBehindScheme_eq`, `PostgresConfig.IsPlain`, `ofUrl_url` — where nothing but the marks has
  a meaning, the client reads the settings as they are;
* `url_of_colon_in_username` — with a colon in it, a user name takes the place of a name and a
  password.

Nothing is escaped in the URL. So a setting says where it ends only by not holding the mark that
follows it, and the client looks for these marks: the first slash, the last `@` before it, the first
colon before that, and the colon of the port.
-/
import Mathlib.Data.List.TakeWhile
import RepoAccess.Config.Validity
import RepoAccess.Proofs.Codec.Digits
import RepoAccess.Proofs.Settings
import RepoAccess.Proofs.Utf8
import RepoAccess.Sql.Login

namespace RepoAccess

/-! ### Marks -/

namespace Url

variable {mark : Char} {as as' bs bs' cs : List Char}

theorem all_ne_of_notMem (h : mark ∉ as) : ∀ c ∈ as, (c != mark) = true := by
  intro c hc
  rw [bne_iff_ne]
  rintro rfl
  exact h hc

theorem cutAt_append (h : mark ∉ as) : cutAt mark (as ++ mark :: bs) = (as, some bs) := by
  have hdrop : (as ++ mark :: bs).dropWhile (· != mark) = mark :: bs := by
    rw [List.dropWhile_append_of_pos (all_ne_of_notMem h), List.dropWhile_cons_of_neg (by simp)]
  have htake : (as ++ mark :: bs).takeWhile (· != mark) = as := by
    rw [List.takeWhile_append_of_pos (all_ne_of_notMem h), List.takeWhile_cons_of_neg (by simp),
      List.append_nil]
  rw [cutAt, hdrop, htake]

theorem notMem_toDigits {mark : Char} (h : mark.isDigit = false) (n : Nat) :
    mark ∉ Nat.toDigits 10 n := by
  intro hmem
  rw [Text.isDigit_of_mem_toDigits hmem] at h
  cases h

theorem cutAt_of_notMem (h : mark ∉ as) : cutAt mark as = (as, none) := by
  have hdrop : as.dropWhile (· != mark) = [] := by
    rw [← List.append_nil as, List.dropWhile_append_of_pos (all_ne_of_notMem h), List.dropWhile_nil]
  rw [cutAt, hdrop]

/-- Texts are told apart at the first mark between them. -/
theorem eq_of_first_mark (ha : mark ∉ as) (hb : mark ∉ bs)
    (h : as ++ mark :: as' = bs ++ mark :: bs') : as = bs ∧ as' = bs' := by
  have hcut := congrArg (cutAt mark) h
  rw [cutAt_append ha, cutAt_append hb] at hcut
  obtain ⟨hbefore, hbehind⟩ := Prod.mk.inj hcut
  exact ⟨hbefore, Option.some.inj hbehind⟩

/-- Texts are told apart at the last mark between them. -/
theorem eq_of_last_mark (ha : mark ∉ as') (hb : mark ∉ bs')
    (h : as ++ mark :: as' = bs ++ mark :: bs') : as = bs ∧ as' = bs' := by
  have hreverse : as'.reverse ++ mark :: as.reverse = bs'.reverse ++ mark :: bs.reverse := by
    simpa using congrArg List.reverse h
  obtain ⟨hbehind, hbefore⟩ := eq_of_first_mark (by simpa using ha) (by simpa using hb) hreverse
  exact ⟨List.reverse_inj.1 hbefore, List.reverse_inj.1 hbehind⟩

theorem cutUserInfo_append (h : '@' ∉ bs) : cutUserInfo (as ++ '@' :: bs) = some (as, bs) := by
  have hbehind : ((as ++ '@' :: bs).reverse.takeWhile (· != '@')).reverse = bs := by
    have hreverse : ∀ c ∈ bs.reverse, (c != '@') = true :=
      all_ne_of_notMem (by simpa using h)
    rw [List.reverse_append, List.reverse_cons, List.append_assoc,
      List.takeWhile_append_of_pos hreverse, List.singleton_append,
      List.takeWhile_cons_of_neg (by simp), List.append_nil, List.reverse_reverse]
  have hlength : (as ++ '@' :: bs).length - bs.length - 1 = as.length := by
    simp only [List.length_append, List.length_cons]
    omega
  rw [cutUserInfo, hbehind, hlength, List.take_left, if_neg]
  simp only [List.length_append, List.length_cons]
  omega

end Url

/-! ### The URL -/

namespace PostgresConfig

variable {c c' : PostgresConfig}

/-- The user name and the password in front of the `@`. -/
def userInfo (c : PostgresConfig) : List Char :=
  c.username.toList ++ if c.password.isEmpty then [] else ':' :: c.password.toList

/-- What stands before the path. -/
def authority (c : PostgresConfig) : List Char :=
  c.userInfo ++ '@' :: (c.host.toList ++ ':' :: Nat.toDigits 10 c.port.toNat)

theorem toList_url (c : PostgresConfig) :
    c.url.toList = "postgres://".toList ++ (c.authority ++ '/' :: c.database.toList) := by
  have hport : (toString c.port).toList = Nat.toDigits 10 c.port.toNat := by
    show (Nat.repr c.port.toNat).toList = _
    rw [Nat.repr_eq_ofList_toDigits, String.toList_ofList]
  have hpassword : (if c.password.isEmpty then "" else ":" ++ c.password).toList =
      if c.password.isEmpty then [] else ':' :: c.password.toList := by
    split
    · rfl
    · rw [String.toList_append]
      rfl
  have hat : "@".toList = ['@'] := rfl
  have hcolon : ":".toList = [':'] := rfl
  have hslash : "/".toList = ['/'] := rfl
  unfold url
  simp only [authority, userInfo, String.toList_append, hport, hpassword, hat, hcolon, hslash,
    List.append_assoc, List.cons_append, List.nil_append]

/-- The user name ends at the first colon. -/
theorem parseUserInfo_userInfo (h : ':' ∉ c.username.toList) :
    Url.parseUserInfo c.userInfo = (c.username, c.password) := by
  have hcut : Url.cutAt ':' c.userInfo = (c.username.toList,
      if c.password.isEmpty then none else some c.password.toList) := by
    rw [userInfo]
    split
    · rw [List.append_nil, Url.cutAt_of_notMem h]
    · exact Url.cutAt_append h
  rw [Url.parseUserInfo, hcut]
  by_cases hempty : c.password = "" <;> simp [hempty]

/-! ### Settings apart -/

/-- No text holds a mark that is looked for behind it: the user name ends at the first colon, the
password at the last `@` and all of them at the first slash. -/
structure IsSeparable (c : PostgresConfig) : Prop where
  username : ':' ∉ c.username.toList ∧ '/' ∉ c.username.toList
  password : '/' ∉ c.password.toList
  host : '@' ∉ c.host.toList ∧ '/' ∉ c.host.toList

theorem notMem_userInfo {mark : Char} (hmark : mark ≠ ':') (husername : mark ∉ c.username.toList)
    (hpassword : mark ∉ c.password.toList) : mark ∉ c.userInfo := by
  rw [userInfo, List.mem_append]
  split <;> simp [*]

theorem IsSeparable.slash_notMem_authority (h : c.IsSeparable) : '/' ∉ c.authority := by
  have huserInfo : '/' ∉ c.userInfo := notMem_userInfo (by decide) h.username.2 h.password
  simp [authority, huserInfo, h.host.2, Url.notMem_toDigits]

/-- Such settings have the same URL only if they are the same connection. -/
theorem url_eq_iff (h : c.IsSeparable) (h' : c'.IsSeparable) :
    c.url = c'.url ↔ c.host = c'.host ∧ c.port = c'.port ∧ c.database = c'.database ∧
      c.username = c'.username ∧ c.password = c'.password := by
  constructor
  · intro hurl
    -- The texts come apart from the outside to the inside: path, port, host, and user information.
    have htexts := congrArg String.toList hurl
    rw [toList_url, toList_url, List.append_cancel_left_eq] at htexts
    obtain ⟨hauthority, hdatabase⟩ :=
      Url.eq_of_first_mark h.slash_notMem_authority h'.slash_notMem_authority htexts
    have hplaces : (c.userInfo ++ '@' :: c.host.toList) ++ ':' :: Nat.toDigits 10 c.port.toNat =
        (c'.userInfo ++ '@' :: c'.host.toList) ++ ':' :: Nat.toDigits 10 c'.port.toNat := by
      simpa only [authority, List.append_assoc, List.cons_append] using hauthority
    obtain ⟨hbefore, hport⟩ :=
      Url.eq_of_last_mark (Url.notMem_toDigits rfl _) (Url.notMem_toDigits rfl _) hplaces
    obtain ⟨huserInfo, hhost⟩ := Url.eq_of_last_mark h.host.1 h'.host.1 hbefore
    have hcut := congrArg Url.parseUserInfo huserInfo
    rw [parseUserInfo_userInfo h.username.1, parseUserInfo_userInfo h'.username.1] at hcut
    obtain ⟨husername, hpassword⟩ := Prod.mk.inj hcut
    have hnumber : c.port.toNat = c'.port.toNat := by
      rw [← Text.digitsValue_toDigits c.port.toNat, hport, Text.digitsValue_toDigits]
    exact ⟨String.toList_inj.1 hhost, UInt16.toNat_inj.1 hnumber, String.toList_inj.1 hdatabase,
      husername, hpassword⟩
  · rintro ⟨hhost, hport, hdatabase, husername, hpassword⟩
    unfold url
    rw [hhost, hport, hdatabase, husername, hpassword]

end PostgresConfig

/-! ### Parts as the client reads them -/

namespace Url

/-- The character is no blank or control character, ends nothing and escapes nothing. -/
def isPlain (c : Char) : Bool :=
  32 < c.toNat && !endsAuthority c && c != '%'

theorem isPlain_iff {c : Char} :
    isPlain c = true ↔ 32 < c.toNat ∧ endsAuthority c = false ∧ c ≠ '%' := by
  simp [isPlain, and_assoc]

theorem isPlain_of_isDigit {c : Char} (h : c.isDigit = true) : isPlain c = true := by
  have hne : ∀ d : Char, d.isDigit = false → c ≠ d := by
    rintro d hd rfl
    rw [h] at hd
    cases hd
  rw [isPlain_iff]
  refine ⟨?_, ?_, hne _ rfl⟩
  · have hbounds : 48 ≤ c.val ∧ c.val ≤ 57 := by simpa [Char.isDigit] using h
    have hzero : 48 ≤ c.toNat := hbounds.1
    omega
  · simp [endsAuthority, hne '/' rfl, hne '?' rfl, hne '#' rfl]

/-- Without percent signs nothing is decoded. -/
theorem percentDecode_of_notMem {bytes : List UInt8} (h : 0x25 ∉ bytes) :
    percentDecode bytes = bytes := by
  fun_induction percentDecode bytes with
  | case1 => rfl
  | case2 => simp at h
  | case3 b h' l behind high low hhigh hlow hb ih => rw [ih (List.not_mem_of_not_mem_cons h)]
  | case4 b h' l behind hnone ih => rw [ih (List.not_mem_of_not_mem_cons h)]
  | case5 b rest hrest ih => rw [ih (List.not_mem_of_not_mem_cons h)]

/-- Nothing is cut off or out of a text without blanks and control characters. -/
theorem significant_eq {s : String} (h : ∀ c ∈ s.toList, 32 < c.toNat) :
    significant s = s.toList := by
  have hedge : ∀ cs : List Char, (∀ c ∈ cs, 32 < c.toNat) →
      cs.dropWhile (fun c => decide (c.toNat ≤ 32)) = cs := by
    intro cs hcs
    cases cs with
    | nil => rfl
    | cons c cs =>
      have hc : 32 < c.toNat := hcs c List.mem_cons_self
      rw [List.dropWhile_cons_of_neg (by simpa using hc)]
  have hkept : ∀ c ∈ s.toList, (c != '\t' && c != '\n' && c != '\r') = true := by
    intro c hc
    have hlarge := h c hc
    simp only [Bool.and_eq_true, bne_iff_ne]
    refine ⟨⟨?_, ?_⟩, ?_⟩ <;> rintro rfl <;> exact absurd hlarge (by decide)
  simp only [significant]
  rw [hedge _ h, hedge _ (by simpa using h), List.reverse_reverse, List.filter_eq_self.2 hkept]

theorem cutHost_append (hcolon : ':' ∉ as) (hbracket : '[' ∉ as) :
    cutHost false (as ++ ':' :: bs) = (as, ':' :: bs) := by
  induction as with
  | nil => rfl
  | cons c as ih =>
    have hc : c ≠ ':' := fun heq => hcolon (heq ▸ List.mem_cons_self)
    have hopen : c ≠ '[' := fun heq => hbracket (heq ▸ List.mem_cons_self)
    rw [List.cons_append, cutHost, if_neg fun h => hc h.1]
    have hrest := ih (List.not_mem_of_not_mem_cons hcolon) (List.not_mem_of_not_mem_cons hbracket)
    simp [hopen, hrest]

theorem checkHost_eq_ok (h : ∀ c ∈ cs, isForbiddenInHost c = false) : checkHost cs = .ok () := by
  unfold checkHost
  split
  · next rest => exact absurd (h '[' List.mem_cons_self) (by decide)
  · rw [if_neg]
    simpa using h

theorem parsePort_toDigits {n : Nat} (h : n ≤ 65535) :
    parsePort (Nat.toDigits 10 n) = .ok (some n, []) := by
  have hdigits : (Nat.toDigits 10 n).takeWhile Char.isDigit = Nat.toDigits 10 n :=
    List.takeWhile_eq_self_iff.2 fun _ => Text.isDigit_of_mem_toDigits
  simp [parsePort, hdigits, Text.digitsValue_toDigits, Nat.toDigits_ne_nil, h]

/-- A text of points has so many of them, if none is escaped. -/
theorem eq_replicate_of_pointCount? {n : Nat} (hescape : '%' ∉ cs) (h : pointCount? cs = some n) :
    cs = List.replicate n '.' := by
  fun_induction pointCount? cs generalizing n with
  | case1 =>
    cases h
    rfl
  | case2 rest ih =>
    obtain ⟨m, hm, rfl⟩ := Option.map_eq_some_iff.1 h
    rw [List.replicate_succ, ← ih (List.not_mem_of_not_mem_cons hescape) hm]
  | case3 => simp at hescape
  | case4 => simp at hescape
  | case5 => cases h

theorem dropWhile_slash (h : '/' ∉ cs) : ('/' :: cs).dropWhile (· == '/') = cs := by
  rw [List.dropWhile_cons_of_pos rfl]
  cases cs with
  | nil => rfl
  | cons c cs =>
    have hc : c ≠ '/' := fun heq => h (heq ▸ List.mem_cons_self)
    rw [List.dropWhile_cons_of_neg (by simpa using hc)]

/-- A path of one name leads to this name. -/
theorem resolvePath_slash (hplain : ∀ c ∈ cs, isPlain c = true) (hone : cs ≠ ['.'])
    (htwo : cs ≠ ['.', '.']) : resolvePath ('/' :: cs) = '/' :: cs := by
  have hslash : '/' ∉ cs := fun hmem => absurd (hplain _ hmem) (by decide)
  have hescape : '%' ∉ cs := fun hmem => absurd (hplain _ hmem) (by decide)
  have hpoints : resolveSegments [] [cs] = [cs] := by
    rw [resolveSegments]
    split
    · next hcount => exact absurd (eq_replicate_of_pointCount? hescape hcount) hone
    · next hcount => exact absurd (eq_replicate_of_pointCount? hescape hcount) htwo
    · rfl
  show ((resolveSegments [] (cs.splitOn '/')).reverse.map ('/' :: ·)).flatten = _
  rw [List.splitOn_eq_singleton hslash, hpoints]
  simp

section Place

variable {userInfo host name : List Char} {n : Nat}

theorem isPlain_of_mem_authority (huserInfo : ∀ c ∈ userInfo, isPlain c = true)
    (hhost : ∀ c ∈ host, isPlain c = true) :
    ∀ c ∈ userInfo ++ '@' :: (host ++ ':' :: Nat.toDigits 10 n), isPlain c = true := by
  intro c hc
  rw [List.mem_append, List.mem_cons, List.mem_append, List.mem_cons] at hc
  rcases hc with hmem | rfl | hmem | rfl | hmem
  · exact huserInfo c hmem
  · decide
  · exact hhost c hmem
  · decide
  · exact isPlain_of_isDigit (Text.isDigit_of_mem_toDigits hmem)

/-- The text before the first slash is what stands before the path. -/
theorem takeWhile_authority {authority : List Char} (h : ∀ c ∈ authority, isPlain c = true) :
    (authority ++ '/' :: name).takeWhile (fun c => !endsAuthority c) = authority := by
  have hends : ∀ c ∈ authority, (!endsAuthority c) = true := by
    intro c hc
    rw [(isPlain_iff.1 (h c hc)).2.1]
    rfl
  rw [List.takeWhile_append_of_pos hends, List.takeWhile_cons_of_neg (by decide), List.append_nil]

/-- The path is not cut off at a mark, because it holds none. -/
theorem cutAt_path (hname : ∀ c ∈ name, isPlain c = true) (hmark : isPlain mark = false)
    (hslash : mark ≠ '/') : cutAt mark ('/' :: name) = ('/' :: name, none) := by
  refine cutAt_of_notMem fun hmem => ?_
  rcases List.mem_cons.1 hmem with heq | hmem
  · exact hslash heq
  · rw [hname mark hmem] at hmark
    cases hmark

/-- The parts of a text in which nothing but the marks between the parts has a meaning. -/
theorem parseBehindScheme_eq (huserInfo : ∀ c ∈ userInfo, isPlain c = true)
    (hhost : ∀ c ∈ host, isPlain c = true ∧ isForbiddenInHost c = false) (hnonempty : host ≠ [])
    (hport : n ≤ 65535) (hname : ∀ c ∈ name, isPlain c = true) (hone : name ≠ ['.'])
    (htwo : name ≠ ['.', '.']) :
    parseBehindScheme (userInfo ++ '@' :: (host ++ ':' :: Nat.toDigits 10 n) ++ '/' :: name) = .ok
      { username := (parseUserInfo userInfo).1, password := (parseUserInfo userInfo).2
        host := String.ofList host, port := n
        path := String.ofList ('/' :: name), query := "" } := by
  have hauthority : ∀ c ∈ userInfo ++ '@' :: (host ++ ':' :: Nat.toDigits 10 n),
      isPlain c = true :=
    isPlain_of_mem_authority huserInfo fun c hc => (hhost c hc).1
  have hmarks : ∀ mark, isForbiddenInHost mark = true → mark ∉ host := by
    intro mark hmark hmem
    rw [(hhost mark hmem).2] at hmark
    cases hmark
  have hcutUserInfo : cutUserInfo (userInfo ++ '@' :: (host ++ ':' :: Nat.toDigits 10 n)) =
      some (userInfo, host ++ ':' :: Nat.toDigits 10 n) := by
    apply cutUserInfo_append
    simp [hmarks '@' rfl, notMem_toDigits]
  have hcutHost : cutHost false (host ++ ':' :: Nat.toDigits 10 n) =
      (host, ':' :: Nat.toDigits 10 n) :=
    cutHost_append (hmarks ':' rfl) (hmarks '[' rfl)
  have hplace : (host ++ ':' :: Nat.toDigits 10 n).isEmpty = false := by simp
  have hcutPath : ∀ mark, isPlain mark = false → mark ≠ '/' →
      cutAt mark ('/' :: name) = ('/' :: name, none) :=
    fun _ => cutAt_path hname
  rw [parseBehindScheme]
  simp only [takeWhile_authority hauthority, hcutUserInfo, Option.map_some, Option.getD_some,
    List.drop_left, hplace, hcutHost, checkHost_eq_ok fun c hc => (hhost c hc).2,
    List.drop_succ_cons, List.drop_zero, parsePort_toDigits hport,
    List.isEmpty_eq_false_iff.2 hnonempty, Bool.and_false, Bool.false_and, Bool.false_eq_true,
    if_false]
  -- Nothing was refused, and behind the port there is nothing but the path.
  show Except.ok _ = Except.ok _
  simp only [List.isEmpty_nil, if_true, List.nil_append, hcutPath '#' rfl (by decide),
    hcutPath '?' rfl (by decide), resolvePath_slash hname hone htwo]
  rfl

end Place

end Url

/-! ### Plain settings -/

/-- Without percent signs a part stands for itself. -/
theorem Login.decodePart_of_notMem {part : String} (h : '%' ∉ part.toList) :
    decodePart part = .ok part := by
  have hbytes : 0x25 ∉ Text.Utf8.encode part :=
    fun hmem => h (Text.Utf8.mem_of_mem_encode (by decide) hmem)
  rw [decodePart, Url.percentDecode_of_notMem hbytes, Text.Utf8.decode_eq_ok_iff.2 rfl]
  rfl

/-- A host is the name of a machine, unless a slash comes first. -/
theorem Login.atHost_of_notMem {host : String} (hescape : '%' ∉ host.toList)
    (hslash : '/' ∉ host.toList) (hnonempty : host ≠ "") (l : Login) :
    atHost host l = .ok { l with host } := by
  have hbytes : 0x25 ∉ Text.Utf8.encode host :=
    fun hmem => hescape (Text.Utf8.mem_of_mem_encode (by decide) hmem)
  -- A first byte that is a slash would be one in the host.
  have hdirectory : (Text.Utf8.encode host).head? ≠ some 0x2F :=
    fun hhead => hslash (Text.Utf8.mem_of_mem_encode (by decide) (List.mem_of_mem_head? hhead))
  rw [atHost, Url.percentDecode_of_notMem hbytes, if_neg hdirectory,
    if_neg (by simpa using hnonempty)]
  rfl

namespace PostgresConfig

variable {c : PostgresConfig}

/-- The settings are written in characters that stand for themselves. -/
structure IsPlain (c : PostgresConfig) : Prop where
  username : ∀ ch ∈ c.username.toList, Url.isPlain ch = true ∧ ch ≠ ':'
  password : ∀ ch ∈ c.password.toList, Url.isPlain ch = true
  host : ∀ ch ∈ c.host.toList, Url.isPlain ch = true ∧ Url.isForbiddenInHost ch = false
  database : ∀ ch ∈ c.database.toList, Url.isPlain ch = true
  /-- The database has no name that leads elsewhere. -/
  namesDatabase : c.database ≠ "." ∧ c.database ≠ ".."

instance (c : PostgresConfig) : Decidable c.IsPlain :=
  decidable_of_iff
    (c.username.toList.all (fun ch => Url.isPlain ch && ch != ':') = true ∧
      c.password.toList.all Url.isPlain = true ∧
      c.host.toList.all (fun ch => Url.isPlain ch && !Url.isForbiddenInHost ch) = true ∧
      c.database.toList.all Url.isPlain = true ∧ c.database ≠ "." ∧ c.database ≠ "..") <| by
    simp only [List.all_eq_true, Bool.and_eq_true, bne_iff_ne, Bool.not_eq_true']
    exact ⟨fun ⟨husername, hpassword, hhost, hdatabase, hnames⟩ =>
        ⟨husername, hpassword, hhost, hdatabase, hnames⟩,
      fun h => ⟨h.username, h.password, h.host, h.database, h.namesDatabase⟩⟩

theorem nonempty_of_valid (hvalid : c.violations = []) :
    c.username ≠ "" ∧ c.host ≠ "" ∧ c.database ≠ "" := by
  simp only [violations, List.append_eq_nil_iff, Config.checkLength_eq_nil_iff] at hvalid
  refine ⟨?_, ?_, ?_⟩ <;> intro hempty <;> simp [hempty] at hvalid

namespace IsPlain

variable (h : c.IsPlain)

include h

/-- Plain texts are free of every mark that has another meaning in a URL. -/
theorem notMem (mark : Char) (hmark : Url.isPlain mark = false) :
    mark ∉ c.username.toList ∧ mark ∉ c.password.toList ∧ mark ∉ c.host.toList ∧
      mark ∉ c.database.toList := by
  have hno : Url.isPlain mark ≠ true := by simp [hmark]
  exact ⟨fun hmem => hno (h.username _ hmem).1, fun hmem => hno (h.password _ hmem),
    fun hmem => hno (h.host _ hmem).1, fun hmem => hno (h.database _ hmem)⟩

theorem isSeparable : c.IsSeparable := by
  obtain ⟨husername, hpassword, hhost, -⟩ := h.notMem '/' rfl
  exact ⟨⟨fun hmem => (h.username _ hmem).2 rfl, husername⟩, hpassword,
    ⟨fun hmem => absurd (h.host _ hmem).2 (by decide), hhost⟩⟩

theorem isPlain_of_mem_userInfo {ch : Char} (hch : ch ∈ c.userInfo) : Url.isPlain ch = true := by
  rw [userInfo, List.mem_append] at hch
  rcases hch with husername | hpassword
  · exact (h.username ch husername).1
  · split at hpassword
    · cases hpassword
    · rcases List.mem_cons.1 hpassword with rfl | hmem
      · decide
      · exact h.password ch hmem

theorem significant_url : Url.significant c.url = c.url.toList := by
  refine Url.significant_eq fun ch hch => ?_
  rw [toList_url, List.mem_append, List.mem_append, List.mem_cons] at hch
  rcases hch with hscheme | hmem | rfl | hmem
  · have hletters : "postgres://".toList.all (32 < ·.toNat) = true := by decide
    exact of_decide_eq_true (List.all_eq_true.1 hletters ch hscheme)
  · have hplain := Url.isPlain_of_mem_authority (fun _ => h.isPlain_of_mem_userInfo)
      (fun ch hch => (h.host ch hch).1) ch hmem
    exact (Url.isPlain_iff.1 hplain).1
  · decide
  · exact (Url.isPlain_iff.1 (h.database ch hmem)).1

/-- The parts of the URL are the settings. -/
theorem parse_url (hhost : c.host ≠ "") :
    Url.parse c.url = .ok
      { username := c.username, password := c.password, host := c.host, port := c.port.toNat
        path := String.ofList ('/' :: c.database.toList), query := "" } := by
  have hbehind : (c.url.toList.dropWhile (· != '/')).drop 2 =
      c.authority ++ '/' :: c.database.toList := by
    rw [toList_url]
    rfl
  rw [Url.parse, h.significant_url, hbehind, authority,
    Url.parseBehindScheme_eq (fun _ => h.isPlain_of_mem_userInfo) h.host
      (by simpa using hhost) (Nat.le_of_lt_succ c.port.toNat_lt) h.database
      (fun hone => h.namesDatabase.1 (String.toList_inj.1 hone))
      (fun htwo => h.namesDatabase.2 (String.toList_inj.1 htwo)),
    parseUserInfo_userInfo h.isSeparable.username.1, String.ofList_toList]

theorem ofParts_url (hvalid : c.violations = []) :
    Login.ofParts
      { username := c.username, password := c.password, host := c.host, port := c.port.toNat
        path := String.ofList ('/' :: c.database.toList), query := "" } = .ok
      { user := c.username, password := c.password, database := some c.database, host := c.host
        port := c.port.toNat } := by
  obtain ⟨husername, hhost, hdatabase⟩ := nonempty_of_valid hvalid
  obtain ⟨hescapeUser, hescapePassword, hescapeHost, hescapeDatabase⟩ := h.notMem '%' rfl
  obtain ⟨-, -, hslashHost, hslashDatabase⟩ := h.notMem '/' rfl
  have hname : String.ofList
      ((String.ofList ('/' :: c.database.toList)).toList.dropWhile (· == '/')) = c.database := by
    rw [String.toList_ofList, Url.dropWhile_slash hslashDatabase, String.ofList_toList]
  rw [Login.ofParts, Login.atHost_of_notMem hescapeHost hslashHost hhost,
    Login.decodePart_of_notMem hescapeUser, Login.decodePart_of_notMem hescapePassword, hname,
    Login.decodePart_of_notMem hescapeDatabase]
  simp [bind, Except.bind, pure, Except.pure, husername, hdatabase]

/-- The client reads plain settings as they are. -/
theorem ofUrl_url (hvalid : c.violations = []) :
    Login.ofUrl c.url = .ok
      { user := c.username, password := c.password, database := some c.database, host := c.host
        port := c.port.toNat } := by
  rw [Login.ofUrl, h.parse_url (nonempty_of_valid hvalid).2.1]
  show (Login.ofParts _ >>= fun l => (Url.formPairs []).foldlM Login.withParameter l) = _
  rw [h.ofParts_url hvalid]
  rfl

end IsPlain

/-- A user name with a colon in it stands for a user name and a password. -/
theorem url_of_colon_in_username (c : PostgresConfig) (username : String) {password : String}
    (h : password ≠ "") :
    { c with username := username ++ ":" ++ password, password := "" }.url =
      { c with username, password }.url := by
  have hempty : "".isEmpty = true := rfl
  have hnonempty : password.isEmpty = false := by simpa using h
  unfold url
  simp only [hempty, hnonempty, if_true, Bool.false_eq_true, if_false, String.append_empty,
    String.append_assoc]

end PostgresConfig

/-- Of settings in which no text holds a mark that ends it, each of host, port, database, user name
and password shows in the URL. If all their characters stand for themselves, valid settings are what
the client logs in with. But nothing is escaped: a user name with a colon and a password behind it
makes the same URL as the two of them. -/
theorem settings_show_in_url (c : PostgresConfig) :
    (∀ c' : PostgresConfig, c.IsSeparable → c'.IsSeparable →
      (c.url = c'.url ↔ c.host = c'.host ∧ c.port = c'.port ∧ c.database = c'.database ∧
        c.username = c'.username ∧ c.password = c'.password)) ∧
    (c.violations = [] → c.IsPlain → Login.ofUrl c.url = .ok
      { user := c.username, password := c.password, database := some c.database, host := c.host
        port := c.port.toNat }) ∧
    ∀ username password : String, password ≠ "" →
      { c with username := username ++ ":" ++ password, password := "" }.url =
        { c with username, password }.url :=
  ⟨fun _ h h' => PostgresConfig.url_eq_iff h h', fun hvalid h => h.ofUrl_url hvalid,
    fun username _ h => c.url_of_colon_in_username username h⟩

/-- A password may hold colons and the mark behind it. -/
theorem settings_show_in_url_of_marked_password :
    let c : PostgresConfig := { host := "db.example", username := "app@eu", password := "p@:ss" }
    let c' : PostgresConfig := { host := "db.example", username := "app", password := "p@:ss" }
    c.url ≠ c'.url ∧ Login.ofUrl c.url = .ok
      { user := "app@eu", password := "p@:ss", database := some "authz"
        host := "db.example" } := by
  intro c c'
  have hplain : c.IsPlain := by decide
  have hplain' : c'.IsPlain := by decide
  obtain ⟨hapart, hlogin, -⟩ := settings_show_in_url c
  refine ⟨fun hurl => ?_, hlogin (by decide) hplain⟩
  obtain ⟨-, -, -, husername, -⟩ := (hapart c' hplain.isSeparable hplain'.isSeparable).1 hurl
  exact absurd husername (by decide)

/-- Who is to be the user of that name, without a password, is taken for another one, with a
password. -/
theorem user_name_is_taken_for_another :
    let c : PostgresConfig := { username := "a:b" }
    let c' : PostgresConfig := { username := "a", password := "b" }
    c.violations = [] ∧ c'.violations = [] ∧ c.username ≠ c'.username ∧
      c.password ≠ c'.password ∧ c.url = c'.url ∧
      Login.ofUrl c.url = .ok { user := "a", password := "b", database := some "authz" } := by
  intro c c'
  have hname : "a:b" = "a" ++ ":" ++ "b" := by decide
  have hurl : c.url = c'.url := by
    show ({ username := "a:b" } : PostgresConfig).url = _
    rw [hname]
    exact PostgresConfig.url_of_colon_in_username {} "a" (by decide)
  have hplain : c'.IsPlain := by decide
  refine ⟨by decide, by decide, by decide, by decide, hurl, ?_⟩
  rw [hurl]
  exact hplain.ofUrl_url (by decide)

end RepoAccess

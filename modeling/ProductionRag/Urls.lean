import ProductionRag.Digits

/-!
# Addresses and URLs as Python reads them

`ipaddress.ip_address` and `urllib.parse.urlsplit`, with the texts of a URL as lists of
characters.  `urlsplit` refuses brackets around anything but an IPv6 address and
characters that spell a delimiter in normal form; `port` is read only when it is asked
for.  The texts of the errors leave out what they quote.
-/

set_option autoImplicit false

namespace ProductionRag

/-- `str.isascii` -/
def isAscii (text : List Char) : Bool := text.all fun c => c.toNat < 128

/-- What `str.partition` returns before the separator. -/
def beforeFirst (separator : Char) (text : List Char) : List Char :=
  text.takeWhile (· != separator)

/-- What `str.partition` returns after the separator; empty if there is none. -/
def afterFirst (separator : Char) (text : List Char) : List Char :=
  (text.dropWhile (· != separator)).drop 1

/-- What `str.rpartition` returns before the separator; empty if there is none. -/
def beforeLast (separator : Char) (text : List Char) : List Char :=
  (text.rdropWhile (· != separator)).dropLast

/-- What `str.rpartition` returns after the separator; the whole text if there is none. -/
def afterLast (separator : Char) (text : List Char) : List Char :=
  text.rtakeWhile (· != separator)

/-! ## IP addresses -/

inductive IpAddress where
  | v4 (value : Nat)
  | v6 (value : Nat) (scopeId : Option (List Char))
  deriving DecidableEq, Repr

/-- `_parse_octet` -/
def parseOctet (octet : List Char) : Option Nat :=
  if octet ≠ [] ∧ octet.all Char.isDigit ∧ octet.length ≤ 3 ∧
      (octet = ['0'] ∨ octet.head? ≠ some '0') ∧ decimalValue octet ≤ 255 then
    some (decimalValue octet)
  else none

/-- `IPv4Address` -/
def ipv4Address (text : List Char) : Option Nat :=
  match (text.splitOn '.').mapM parseOctet with
  | some [a, b, c, d] => some (((a * 256 + b) * 256 + c) * 256 + d)
  | _ => none

def isHexDigit (c : Char) : Bool := (hexDigits.contains c.toLower)

def hexValue (digits : List Char) : Nat :=
  digits.foldl (fun value c => 16 * value + hexDigits.idxOf c.toLower) 0

/-- `_parse_hextet` -/
def parseHextet (hextet : List Char) : Option Nat :=
  if hextet ≠ [] ∧ hextet.all isHexDigit ∧ hextet.length ≤ 4 then some (hexValue hextet) else none

/-- An IPv4 address at the end stands for two hextets. -/
def expandSuffix (parts : List (List Char)) : Option (List (List Char)) :=
  match parts.getLast? with
  | some last =>
    if '.' ∈ last then
      (ipv4Address last).map fun ip =>
        parts.dropLast ++ [Nat.toDigits 16 (ip / 65536), Nat.toDigits 16 (ip % 65536)]
    else some parts
  | none => none

/-- The places of `::` between the endpoints. -/
def skipIndices (parts : List (List Char)) : List Nat :=
  (List.range (parts.length - 1)).filter fun i => i ≠ 0 ∧ parts[i]? = some []

/-- The hextets before or after `::`; an endpoint is empty only as part of it. -/
def endpoints (parts : List (List Char)) (endpoint : Option (List Char)) :
    Option (List (List Char)) :=
  if endpoint = some [] then if parts.length = 1 then some [] else none else some parts

/-- The eight hextets that the parts stand for. -/
def hextets (parts : List (List Char)) : Option (List (List Char)) :=
  match skipIndices parts with
  | [] => if parts.length = 8 then some parts else none
  | [skip] => do
    let high ← endpoints (parts.take skip) parts.head?
    let low ← endpoints (parts.drop (skip + 1)) parts.getLast?
    guard (high.length + low.length < 8)
    return high ++ List.replicate (8 - (high.length + low.length)) ['0'] ++ low
  | _ => none

/-- `_ip_int_from_string` of IPv6 -/
def ipv6Int (text : List Char) : Option Nat := do
  let parts := text.splitOn ':'
  guard (3 ≤ parts.length)
  let parts ← expandSuffix parts
  guard (parts.length ≤ 9)
  let values ← (← hextets parts).mapM parseHextet
  return values.foldl (fun value hextet => value * 65536 + hextet) 0

/-- `IPv6Address` -/
def ipv6Address (text : List Char) : Option IpAddress :=
  if '/' ∈ text then none
  else if '%' ∈ text then
    let scopeId := afterFirst '%' text
    if scopeId = [] ∨ '%' ∈ scopeId then none
    else (ipv6Int (beforeFirst '%' text)).map fun value => .v6 value (some scopeId)
  else (ipv6Int text).map fun value => .v6 value none

def ipAddress (text : List Char) : Except PyError IpAddress :=
  match (ipv4Address text).map IpAddress.v4 <|> ipv6Address text with
  | some address => .ok address
  | none => .error (.valueError "does not appear to be an IPv4 or IPv6 address")

example : ipAddress "::ffff:1.2.3.4".toList = .ok (.v6 0xffff01020304 none) := by decide +kernel

/-! ## The parts of a network location -/

/-- Host and port, without the credentials. -/
def hostInfo (netloc : List Char) : List Char := afterLast '@' netloc

/-- The host as `_hostinfo` finds it. -/
def hostText (netloc : List Char) : List Char :=
  let info := hostInfo netloc
  if '[' ∈ info then beforeFirst ']' (afterFirst '[' info) else beforeFirst ':' info

/-- The port as `_hostinfo` finds it; empty if there is none. -/
def portText (netloc : List Char) : List Char :=
  let info := hostInfo netloc
  if '[' ∈ info then afterFirst ':' (afterFirst ']' (afterFirst '[' info)) else afterFirst ':' info

/-- `username or password` is not empty. -/
def hasCredentials (netloc : List Char) : Bool :=
  let userinfo := beforeLast '@' netloc
  beforeFirst ':' userinfo ≠ [] || afterFirst ':' userinfo ≠ []

/-! ## `urlsplit` -/

/-- What is read of a `SplitResult`. -/
structure SplitResult where
  scheme : List Char
  netloc : List Char
  deriving DecidableEq, Repr

def isSchemeChar (c : Char) : Bool :=
  c.isAlphanum || c == '+' || c == '-' || c == '.'

/-- The URL without control characters and blanks before it, and without line breaks and
tabs. -/
def cleanUrl (url : List Char) : List Char :=
  (url.dropWhile fun c => c.toNat ≤ 32).filter fun c => c != '\t' && c != '\r' && c != '\n'

/-- The scheme and what follows its colon. -/
def splitScheme (url : List Char) : List Char × List Char :=
  let scheme := beforeFirst ':' url
  if ':' ∈ url ∧ scheme.head?.any Char.isAlpha ∧ scheme.all isSchemeChar then
    (scheme.map Char.toLower, afterFirst ':' url)
  else ([], url)

/-- `_splitnetloc`, where there is a network location. -/
def splitNetloc (rest : List Char) : List Char :=
  if rest.take 2 = ['/', '/'] then
    (rest.drop 2).takeWhile fun c => c != '/' && c != '?' && c != '#'
  else []

/-- `v[a-fA-F0-9]+\..+` -/
def isIpFuture (host : List Char) : Bool :=
  host.head? == some 'v' &&
    let version := beforeFirst '.' (host.drop 1)
    let address := afterFirst '.' (host.drop 1)
    !version.isEmpty && version.all isHexDigit && !address.isEmpty && !address.contains '\n'

/-- `_check_bracketed_host` -/
def checkBracketedHost (host : List Char) : Except PyError Unit :=
  if host.head? = some 'v' then
    if isIpFuture host then .ok () else .error (.valueError "IPvFuture address is invalid")
  else
    match ipAddress host with
    | .error e => .error e
    | .ok (.v4 _) => .error (.valueError "An IPv4 address cannot be in brackets")
    | .ok (.v6 ..) => .ok ()

def invalidIpv6Url : PyError := .valueError "Invalid IPv6 URL"

/-- `_check_bracketed_netloc` -/
def checkBracketedNetloc (netloc : List Char) : Except PyError Unit :=
  let info := hostInfo netloc
  if '[' ∈ info then
    let port := afterFirst ']' (afterFirst '[' info)
    if beforeFirst '[' info ≠ [] then .error invalidIpv6Url
    else if port ≠ [] ∧ port.head? ≠ some ':' then .error invalidIpv6Url
    else checkBracketedHost (hostText netloc)
  else checkBracketedHost (hostText netloc)

/-- What is left of a network location for `_checknetloc` to normalize. -/
def undelimited (netloc : List Char) : List Char :=
  netloc.filter fun c => c != '@' && c != ':' && c != '#' && c != '?'

def isDelimiter (c : Char) : Bool := c == '/' || c == '?' || c == '#' || c == '@' || c == ':'

/-- `_checknetloc` -/
def checkNetloc (nfkc : List Char → List Char) (netloc : List Char) : Except PyError Unit :=
  if netloc = [] ∨ isAscii netloc then .ok ()
  else if undelimited netloc = nfkc (undelimited netloc) then .ok ()
  else if (nfkc (undelimited netloc)).any isDelimiter then
    .error (.valueError "netloc contains invalid characters under NFKC normalization")
  else .ok ()

/-- What `urlsplit` checks of the brackets. -/
def checkBrackets (netloc : List Char) : Except PyError Unit :=
  if ¬ ('[' ∈ netloc ↔ ']' ∈ netloc) then .error invalidIpv6Url
  else if '[' ∈ netloc then checkBracketedNetloc netloc
  else .ok ()

/-- `urlsplit`, with the normal form NFKC. -/
def urlsplit (nfkc : List Char → List Char) (url : List Char) : Except PyError SplitResult := do
  let (scheme, rest) := splitScheme (cleanUrl url)
  let netloc := splitNetloc rest
  checkBrackets netloc
  checkNetloc nfkc netloc
  return { scheme, netloc }

/-- `hostname`; the zone of an address keeps its case. -/
def SplitResult.hostname (parts : SplitResult) (lower : List Char → List Char) :
    Option (List Char) :=
  let host := hostText parts.netloc
  if host = [] then none
  else if '%' ∈ host then some (lower (beforeFirst '%' host) ++ '%' :: afterFirst '%' host)
  else some (lower host)

/-- `port` -/
def SplitResult.port (parts : SplitResult) : Except PyError (Option Nat) :=
  let port := portText parts.netloc
  if port = [] then .ok none
  else if port.all Char.isDigit then
    if decimalValue port ≤ 65535 then .ok (some (decimalValue port))
    else .error (.valueError "Port out of range 0-65535")
  else .error (.valueError "Port could not be cast to integer value")

/-! ## URLs that are read -/

/-- A literal that may stand in brackets: `IPvFuture` or an IPv6 address. -/
def IsLiteral (host : List Char) : Prop :=
  isIpFuture host = true ∨
    host.head? ≠ some 'v' ∧ ∃ value scopeId, ipAddress host = .ok (.v6 value scopeId)

/-- The host is a literal; brackets around it have nothing before them and at most a port
after them. -/
structure Bracketed (netloc : List Char) : Prop where
  before : '[' ∈ hostInfo netloc → beforeFirst '[' (hostInfo netloc) = []
  after : '[' ∈ hostInfo netloc →
    ∀ c ∈ (afterFirst ']' (afterFirst '[' (hostInfo netloc))).head?, c = ':'
  literal : IsLiteral (hostText netloc)

/-- A network location that `urlsplit` takes. -/
structure WellFormedNetloc (nfkc : List Char → List Char) (netloc : List Char) : Prop where
  paired : '[' ∈ netloc ↔ ']' ∈ netloc
  bracketed : '[' ∈ netloc → Bracketed netloc
  normal : isAscii netloc = false → nfkc (undelimited netloc) ≠ undelimited netloc →
    ∀ c ∈ nfkc (undelimited netloc), isDelimiter c = false

/-- A port that `port` reads. -/
def ReadablePort (netloc : List Char) : Prop :=
  (portText netloc).all Char.isDigit = true ∧ decimalValue (portText netloc) ≤ 65535

def schemeOf (url : List Char) : List Char := (splitScheme (cleanUrl url)).1

def netlocOf (url : List Char) : List Char := splitNetloc (splitScheme (cleanUrl url)).2

theorem head?_of_isIpFuture {host : List Char} (future : isIpFuture host = true) :
    host.head? = some 'v' := by
  rw [isIpFuture, Bool.and_eq_true, beq_iff_eq] at future
  exact future.1

theorem checkBracketedHost_ok_iff (host : List Char) :
    checkBracketedHost host = .ok () ↔ IsLiteral host := by
  unfold checkBracketedHost IsLiteral
  by_cases future : host.head? = some 'v'
  · cases shape : isIpFuture host <;> simp [future]
  · have other : isIpFuture host ≠ true := fun shape => future (head?_of_isIpFuture shape)
    cases read : ipAddress host with
    | error e => simp [future, other]
    | ok address => cases address <;> simp [future, other]

theorem checkBracketedNetloc_ok_iff (netloc : List Char) :
    checkBracketedNetloc netloc = .ok () ↔ Bracketed netloc := by
  unfold checkBracketedNetloc
  by_cases inside : '[' ∈ hostInfo netloc
  · have afterwards : (afterFirst ']' (afterFirst '[' (hostInfo netloc)) ≠ [] ∧
        (afterFirst ']' (afterFirst '[' (hostInfo netloc))).head? ≠ some ':') ↔
        ¬ ∀ c ∈ (afterFirst ']' (afterFirst '[' (hostInfo netloc))).head?, c = ':' := by
      cases afterFirst ']' (afterFirst '[' (hostInfo netloc)) <;> simp
    simp only [inside, if_true, afterwards]
    split
    · rename_i front
      exact iff_of_false (by simp) fun bracketed => front (bracketed.before inside)
    · rename_i front
      split
      · rename_i back
        exact iff_of_false (by simp) fun bracketed => back (bracketed.after inside)
      · rename_i back
        rw [checkBracketedHost_ok_iff]
        exact ⟨fun literal => ⟨fun _ => not_not.mp front, fun _ => not_not.mp back, literal⟩,
          Bracketed.literal⟩
  · simp only [inside, if_false]
    rw [checkBracketedHost_ok_iff]
    exact ⟨fun literal => ⟨fun member => absurd member inside,
      fun member => absurd member inside, literal⟩, Bracketed.literal⟩

theorem checkNetloc_ok_iff (nfkc : List Char → List Char) (netloc : List Char) :
    checkNetloc nfkc netloc = .ok () ↔
      (isAscii netloc = false → nfkc (undelimited netloc) ≠ undelimited netloc →
        ∀ c ∈ nfkc (undelimited netloc), isDelimiter c = false) := by
  unfold checkNetloc
  cases ascii : isAscii netloc with
  | true => simp
  | false =>
      have nonempty : netloc ≠ [] := by
        rintro rfl
        cases ascii
      simp only [nonempty, Bool.false_eq_true, or_self, if_false, forall_const]
      split
      · rename_i same
        exact iff_of_true rfl fun differs => absurd same.symm differs
      · rename_i differs
        split
        · rename_i delimited
          obtain ⟨c, member, isDelimiter⟩ := List.any_eq_true.mp delimited
          refine iff_of_false (by simp) fun free => ?_
          rw [free (Ne.symm differs) c member] at isDelimiter
          cases isDelimiter
        · rename_i free
          exact iff_of_true rfl fun _ c member =>
            eq_false_of_ne_true (List.any_eq_false.mp (eq_false_of_ne_true free) c member)

theorem checkBrackets_ok_iff (netloc : List Char) :
    checkBrackets netloc = .ok () ↔
      ('[' ∈ netloc ↔ ']' ∈ netloc) ∧ ('[' ∈ netloc → Bracketed netloc) := by
  unfold checkBrackets
  by_cases paired : '[' ∈ netloc ↔ ']' ∈ netloc
  · rw [if_neg (not_not.mpr paired), and_iff_right paired, ← checkBracketedNetloc_ok_iff]
    split
    · rename_i inside
      rw [forall_prop_of_true inside]
    · rename_i outside
      exact iff_of_true rfl fun inside => absurd inside outside
  · rw [if_pos paired]
    exact iff_of_false (by simp) fun both => paired both.1

/-- What `urlsplit` returns, and when it returns. -/
theorem urlsplit_ok_iff {nfkc : List Char → List Char} {url : List Char} {parts : SplitResult} :
    urlsplit nfkc url = .ok parts ↔
      WellFormedNetloc nfkc (netlocOf url) ∧ parts = ⟨schemeOf url, netlocOf url⟩ := by
  have steps : urlsplit nfkc url = (checkBrackets (netlocOf url) >>= fun _ =>
      checkNetloc nfkc (netlocOf url) >>= fun _ =>
        .ok ⟨schemeOf url, netlocOf url⟩) := rfl
  rw [steps, Except.bind_ok_iff]
  constructor
  · rintro ⟨_, brackets, normalized⟩
    obtain ⟨_, normal, returned⟩ := Except.bind_ok_iff.mp normalized
    obtain ⟨paired, bracketed⟩ := (checkBrackets_ok_iff _).mp brackets
    exact ⟨⟨paired, bracketed, (checkNetloc_ok_iff nfkc _).mp normal⟩,
      (Except.ok.inj returned).symm⟩
  · rintro ⟨wellFormed, rfl⟩
    exact ⟨(), (checkBrackets_ok_iff _).mpr ⟨wellFormed.paired, wellFormed.bracketed⟩,
      Except.bind_ok_iff.mpr ⟨(), (checkNetloc_ok_iff nfkc _).mpr wellFormed.normal, rfl⟩⟩

theorem port_ok_iff (parts : SplitResult) :
    (∃ port, parts.port = .ok port) ↔ ReadablePort parts.netloc := by
  unfold SplitResult.port ReadablePort
  dsimp only
  split
  · rename_i none
    refine iff_of_true ⟨_, rfl⟩ ?_
    rw [none]
    decide
  · split
    · rename_i digits
      split
      · rename_i inRange
        exact iff_of_true ⟨_, rfl⟩ ⟨digits, inRange⟩
      · rename_i tooLarge
        exact iff_of_false (by simp) fun readable => tooLarge readable.2
    · rename_i other
      exact iff_of_false (by simp) fun readable => other readable.1

end ProductionRag

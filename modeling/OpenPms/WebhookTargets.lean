import OpenPms.WebhookDelivery

/-!
The targets of outbound webhooks. Before a request the host of the URL is looked up and no
address of the answer may be an internal one. The client looks the host up again when it
connects, by a name that it makes of the URL itself, and whoever runs the name server of the
host may answer differently then. Address literals are read without a name server.
-/
namespace OpenPms.WebhookTargets

/-! Addresses -/

inductive IpAddress where
  | v4 (value : BitVec 32)
  | v6 (value : BitVec 128) (scope : Option String)
  deriving DecidableEq

/-- The addresses with the same leading bits. -/
structure IpNetwork (w : ℕ) where
  address : BitVec w
  bits : ℕ

def IpNetwork.contains {w : ℕ} (net : IpNetwork w) (a : BitVec w) : Bool :=
  a >>> (w - net.bits) == net.address >>> (w - net.bits)

def joinGroups (w : ℕ) (groups : List ℕ) : ℕ := groups.foldl (fun n g => n * 2 ^ w + g) 0

def net4 (octets : List ℕ) (bits : ℕ) : IpNetwork 32 := ⟨.ofNat 32 (joinGroups 8 octets), bits⟩

/-- The groups that are left out are zero. -/
def net6 (groups : List ℕ) (bits : ℕ) : IpNetwork 128 :=
  ⟨.ofNat 128 (joinGroups 16 (groups ++ List.replicate (8 - groups.length) 0)), bits⟩

def privateNetworks4 : List (IpNetwork 32) :=
  [net4 [0, 0, 0, 0] 8, net4 [10, 0, 0, 0] 8, net4 [127, 0, 0, 0] 8, net4 [169, 254, 0, 0] 16,
    net4 [172, 16, 0, 0] 12, net4 [192, 0, 0, 0] 24, net4 [192, 0, 0, 170] 31,
    net4 [192, 0, 2, 0] 24, net4 [192, 168, 0, 0] 16, net4 [198, 18, 0, 0] 15,
    net4 [198, 51, 100, 0] 24, net4 [203, 0, 113, 0] 24, net4 [240, 0, 0, 0] 4,
    net4 [255, 255, 255, 255] 32]

def privateExceptions4 : List (IpNetwork 32) :=
  [net4 [192, 0, 0, 9] 32, net4 [192, 0, 0, 10] 32]

def privateNetworks6 : List (IpNetwork 128) :=
  [net6 [0, 0, 0, 0, 0, 0, 0, 1] 128, net6 [] 128, net6 [0, 0, 0, 0, 0, 0xffff] 96,
    net6 [0x64, 0xff9b, 1] 48, net6 [0x100] 64, net6 [0x2001] 23, net6 [0x2001, 0xdb8] 32,
    net6 [0x2002] 16, net6 [0x3fff] 20, net6 [0xfc00] 7, net6 [0xfe80] 10]

def privateExceptions6 : List (IpNetwork 128) :=
  [net6 [0x2001, 1, 0, 0, 0, 0, 0, 1] 128, net6 [0x2001, 1, 0, 0, 0, 0, 0, 2] 128,
    net6 [0x2001, 3] 32, net6 [0x2001, 4, 0x112] 48, net6 [0x2001, 0x20] 28,
    net6 [0x2001, 0x30] 28]

def reservedNetworks6 : List (IpNetwork 128) :=
  [net6 [] 8, net6 [0x100] 8, net6 [0x200] 7, net6 [0x400] 6, net6 [0x800] 5, net6 [0x1000] 4,
    net6 [0x4000] 3, net6 [0x6000] 3, net6 [0x8000] 3, net6 [0xa000] 3, net6 [0xc000] 3,
    net6 [0xe000] 4, net6 [0xf000] 5, net6 [0xf800] 6, net6 [0xfe00] 9]

def isPrivate4 (a : BitVec 32) : Bool :=
  privateNetworks4.any (·.contains a) && !privateExceptions4.any (·.contains a)

namespace IpAddress

/-- An IPv4 address in the mapped range of IPv6. -/
def ipv4Mapped (a : BitVec 128) : Option (BitVec 32) :=
  if a >>> 32 = 0xffff then some (a.truncate 32) else none

def isPrivate : IpAddress → Bool
  | v4 a => isPrivate4 a
  | v6 a _ =>
    match ipv4Mapped a with
    | some a => isPrivate4 a
    | none => privateNetworks6.any (·.contains a) && !privateExceptions6.any (·.contains a)

def isLoopback : IpAddress → Bool
  | v4 a => (net4 [127, 0, 0, 0] 8).contains a
  | v6 a _ => a == 1

def isLinkLocal4 (a : BitVec 32) : Bool := (net4 [169, 254, 0, 0] 16).contains a

def isLinkLocal : IpAddress → Bool
  | v4 a => isLinkLocal4 a
  | v6 a _ => ((ipv4Mapped a).map isLinkLocal4).getD ((net6 [0xfe80] 10).contains a)

def isReserved4 (a : BitVec 32) : Bool := (net4 [240, 0, 0, 0] 4).contains a

def isReserved : IpAddress → Bool
  | v4 a => isReserved4 a
  | v6 a _ => ((ipv4Mapped a).map isReserved4).getD (reservedNetworks6.any (·.contains a))

def isMulticast4 (a : BitVec 32) : Bool := (net4 [224, 0, 0, 0] 4).contains a

def isMulticast : IpAddress → Bool
  | v4 a => isMulticast4 a
  | v6 a _ => ((ipv4Mapped a).map isMulticast4).getD ((net6 [0xff00] 8).contains a)

end IpAddress

def ipIsBlocked (addr : IpAddress) : Bool :=
  addr.isPrivate || addr.isLoopback || addr.isLinkLocal || addr.isReserved || addr.isMulticast

/-! Texts of addresses -/

def digitValue (c : Char) : ℕ :=
  if c.isDigit then c.toNat - 48 else if c.isUpper then c.toNat - 55 else c.toNat - 87

def isHexDigit (c : Char) : Bool :=
  c.isDigit || ('a' ≤ c && c ≤ 'f') || ('A' ≤ c && c ≤ 'F')

def numeral (base : ℕ) (digits : List Char) : ℕ :=
  digits.foldl (fun n c => base * n + digitValue c) 0

/-- Three decimal digits at most, and no leading zero. -/
def parseOctet (s : List Char) : Option ℕ :=
  if s ≠ [] ∧ s.all Char.isDigit ∧ s.length ≤ 3 ∧ (s = ['0'] ∨ s.head? ≠ some '0') ∧
      numeral 10 s ≤ 255 then some (numeral 10 s)
  else none

def parseV4 (s : List Char) : Option (BitVec 32) := do
  let octets ← (s.splitOn '.').mapM parseOctet
  if octets.length = 4 then some (.ofNat 32 (joinGroups 8 octets)) else none

def parseHextet (s : List Char) : Option ℕ :=
  if s ≠ [] ∧ s.all isHexDigit ∧ s.length ≤ 4 then some (numeral 16 s) else none

/-- The last part may be an IPv4 address, which stands for two groups. -/
def ipv6Parts (s : List Char) : Option (List (List Char)) :=
  let parts := s.splitOn ':'
  let last := parts.getLastD []
  if parts.length < 3 then none
  else if '.' ∈ last then
    (parseV4 last).map fun a =>
      parts.dropLast ++ [Nat.toDigits 16 (a.toNat / 65536), Nat.toDigits 16 (a.toNat % 65536)]
  else some parts

/-- An empty part stands for as many zeros as are missing, and at least one. At an end of
the text it needs another empty part beside it. -/
def ipv6Value (parts : List (List Char)) : Option (BitVec 128) :=
  let inner := (parts.drop 1).dropLast
  let trim (side : List (List Char)) := if side = [[]] then [] else side
  if 9 < parts.length ∨ 1 < inner.count [] then none
  else if inner.contains [] then do
    let skip := inner.idxOf [] + 1
    let high ← (trim (parts.take skip)).mapM parseHextet
    let low ← (trim (parts.drop (skip + 1))).mapM parseHextet
    if high.length + low.length < 8 then
      some (.ofNat 128 (joinGroups 16
        (high ++ List.replicate (8 - (high.length + low.length)) 0 ++ low)))
    else none
  else do
    let groups ← parts.mapM parseHextet
    if groups.length = 8 then some (.ofNat 128 (joinGroups 16 groups)) else none

def parseV6 (s : List Char) : Option IpAddress := do
  let scope ← match s.dropWhile (· ≠ '%') with
    | [] => some none
    | _ :: zone => if zone = [] ∨ '%' ∈ zone then none else some (some (String.ofList zone))
  let parts ← ipv6Parts (s.takeWhile (· ≠ '%'))
  let value ← ipv6Value parts
  pure (.v6 value scope)

def ipAddress (text : String) : Option IpAddress :=
  match parseV4 text.toList with
  | some value => some (.v4 value)
  | none => parseV6 text.toList

example : ipIsBlocked <$> ["127.0.0.1", "::1", "::ffff:10.0.0.1", "fe80::1%eth0", "169.254.1.1",
    "93.184.216.34", "2606:2800:220:1::1"].filterMap ipAddress =
      [true, true, true, true, true, false, false] := by decide

/-! The outside -/

/-- What a name server, or the resolver in its place, answers. -/
inductive Lookup where
  | addresses (texts : List String)
  | gaierror (text : String)
  | osError
  deriving DecidableEq

/-- What the system and the libraries contribute: the Unicode tables, the names that are
answered without a name server (address literals, the hosts file), and the name that the HTTP
client looks up for a URL. It encodes host names by rules of its own, and looks nothing up for
a URL that it does not take. -/
structure System where
  nfkc : String → String
  idna : String → Option String
  own : String → Option (List String)
  dialed : String → Option String

/-- The host name as it is sent to a name server. -/
def System.encodeHost (sys : System) (host : String) : Option String :=
  if host.toList.all fun c => c.toNat < 128 then
    let labels := host.toList.splitOn '.'
    if (∀ label ∈ labels.dropLast, 0 < label.length ∧ label.length < 64) ∧
        (labels.getLastD []).length < 64 then some host
    else none
  else sys.idna host

def System.answer (sys : System) (dns : String → Lookup) (name : String) : Lookup :=
  match sys.own name with
  | some texts => .addresses texts
  | none => dns name

/-! URLs -/

inductive CheckError where
  | webhookUrlUnsafeError (text : String)
  | valueError
  | unicodeError
  | osError
  deriving DecidableEq

structure SplitResult where
  scheme : String
  netloc : String
  deriving DecidableEq

def isSchemeChar (c : Char) : Bool := c.isAlphanum || c == '+' || c == '-' || c == '.'

/-- The scheme in lower case, if there is one, and what follows it. -/
def splitScheme (url : List Char) : String × List Char :=
  let head := url.takeWhile (· ≠ ':')
  match url.dropWhile (· ≠ ':') with
  | ':' :: rest =>
    if head.head?.any Char.isAlpha ∧ head.all isSchemeChar then
      (String.ofList (head.map Char.toLower), rest)
    else ("", url)
  | _ => ("", url)

def isFutureAddress (s : List Char) : Bool :=
  match s with
  | 'v' :: rest =>
    !(rest.takeWhile isHexDigit).isEmpty && match rest.dropWhile isHexDigit with
      | '.' :: tail => !tail.isEmpty
      | _ => false
  | _ => false

/-- A host in brackets is an IPv6 address, or one of a version to come. -/
def bracketedHostOk (s : List Char) : Bool :=
  if s.head? = some 'v' then isFutureAddress s
  else match ipAddress (String.ofList s) with
    | some (.v6 ..) => true
    | _ => false

/-- What follows the last of the characters. -/
def afterLast (c : Char) (s : List Char) : List Char := (s.reverse.takeWhile (· ≠ c)).reverse

/-- What follows the first of the characters. -/
def afterFirst (c : Char) (s : List Char) : List Char := (s.dropWhile (· ≠ c)).drop 1

/-- Nothing but the port may stand beside the brackets. -/
def bracketedNetlocOk (netloc : List Char) : Bool :=
  let hostinfo := afterLast '@' netloc
  if '[' ∈ hostinfo then
    let port := afterFirst ']' (afterFirst '[' hostinfo)
    hostinfo.head? = some '[' && (port = [] || port.head? = some ':') &&
      bracketedHostOk ((afterFirst '[' hostinfo).takeWhile (· ≠ ']'))
  else bracketedHostOk (hostinfo.takeWhile (· ≠ ':'))

/-- No delimiter may come of the normal form of other characters. -/
def netlocOk (sys : System) (netloc : List Char) : Bool :=
  let plain := String.ofList (netloc.filter fun c => c ∉ ['@', ':', '#', '?'])
  netloc.all (fun c => c.toNat < 128) || sys.nfkc plain = plain ||
    (sys.nfkc plain).toList.all (fun c => c ∉ ['/', '?', '#', '@', ':'])

/-- `none` for a ValueError. -/
def urlparse (sys : System) (url : String) : Option SplitResult :=
  let cleaned := (url.toList.dropWhile fun c => c.toNat ≤ 32).filter fun c =>
    c ∉ ['\t', '\r', '\n']
  let (scheme, rest) := splitScheme cleaned
  match rest with
  | '/' :: '/' :: rest =>
    let netloc := rest.takeWhile fun c => c ∉ ['/', '?', '#']
    if ('[' ∈ netloc ↔ ']' ∈ netloc) ∧ ('[' ∈ netloc → bracketedNetlocOk netloc) ∧
        netlocOk sys netloc then some ⟨scheme, String.ofList netloc⟩
    else none
  | _ => some ⟨scheme, ""⟩

/-- Without the user, the port and the brackets, in lower case up to the scope. -/
def SplitResult.hostname (parsed : SplitResult) : Option String :=
  let hostinfo := afterLast '@' parsed.netloc.toList
  let host :=
    if '[' ∈ hostinfo then (afterFirst '[' hostinfo).takeWhile (· ≠ ']')
    else hostinfo.takeWhile (· ≠ ':')
  if host = [] then none
  else some (Text.lower (String.ofList (host.takeWhile (· ≠ '%'))) ++
    String.ofList (host.dropWhile (· ≠ '%')))

/-! The check -/

/-- The texts of the addresses of a host. -/
def getaddrinfo (sys : System) (dns : String → Lookup) (host : String) :
    Except CheckError (List String) :=
  match sys.encodeHost host with
  | none => .error .unicodeError
  | some name =>
    match sys.answer dns name with
    | .addresses texts => .ok texts
    | .gaierror text => .error (.webhookUrlUnsafeError ("url host could not be resolved: " ++ text))
    | .osError => .error .osError

/-- A text that is no address is skipped. -/
def checkAddress (ipStr : String) : Except CheckError Unit :=
  match ipAddress ipStr with
  | none => .ok ()
  | some addr =>
    if ipIsBlocked addr then
      .error (.webhookUrlUnsafeError "url resolves to a non-public address")
    else .ok ()

def assertWebhookTargetIpsSafeForUrl (sys : System) (dns : String → Lookup) (url : String) :
    Except CheckError Unit :=
  match urlparse sys (Text.strip url) with
  | none => .error .valueError
  | some parsed =>
    if parsed.scheme ≠ "https" then .error (.webhookUrlUnsafeError "url must use HTTPS")
    else match parsed.hostname with
      | none => .error (.webhookUrlUnsafeError "url must include a host")
      | some host => do
        let texts ← getaddrinfo sys dns host
        texts.forM checkAddress

/-! The senders -/

inductive RegistrationError where
  | webhookSubscriptionError (detail : String) (statusCode : ℕ)
  | raised (e : CheckError)
  deriving DecidableEq

/-- The URL of a subscription as it is stored. -/
def validateHttpsUrl (sys : System) (dns : String → Lookup) (url : String) :
    Except RegistrationError String :=
  let trimmed := Text.strip url
  if trimmed = "" then .error (.webhookSubscriptionError "url is required" 422)
  else match urlparse sys trimmed with
    | none => .error (.raised .valueError)
    | some parsed =>
      if parsed.scheme ≠ "https" then
        .error (.webhookSubscriptionError "url must use HTTPS" 422)
      else if parsed.netloc = "" then
        .error (.webhookSubscriptionError "url must include a host" 422)
      else match assertWebhookTargetIpsSafeForUrl sys dns trimmed with
        | .ok () => .ok trimmed
        | .error (.webhookUrlUnsafeError text) => .error (.webhookSubscriptionError text 422)
        | .error e => .error (.raised e)

/-- What comes of a request that the client makes. -/
inductive ClientAnswer where
  | raised (text : String)
  | response (statusCode : ℕ)
  deriving DecidableEq

def ClientAnswer.toHttp : ClientAnswer → HttpAnswer
  | raised text => .raised text
  | response statusCode => .response statusCode

/-- The name that the check looks up for the URL, if it comes to a lookup. -/
def lookedUp (sys : System) (url : String) : Option String :=
  match urlparse sys (Text.strip url) with
  | none => none
  | some parsed =>
    if parsed.scheme ≠ "https" then none else parsed.hostname.bind sys.encodeHost

/-- The addresses that the client tries, which are those of its own lookup. -/
def connections (sys : System) (dns : String → Lookup) (url : String) : List IpAddress :=
  match (sys.dialed url).map (sys.answer dns) with
  | some (.addresses texts) => texts.filterMap ipAddress
  | _ => []

/-- An attempt with the addresses that it has contacted. It has no result when its request
never comes back: the client's timeout is for each piece of the response. -/
structure Sent (α : Type) where
  result : Option (Except CheckError α)
  contacted : List IpAddress

/-- The check makes one lookup and the client another. -/
def singleHttpDelivery (sys : System) (check connect : String → Lookup)
    (client : Option ClientAnswer) (url : String) : Sent HttpAnswer :=
  match assertWebhookTargetIpsSafeForUrl sys check url with
  | .error (.webhookUrlUnsafeError text) => ⟨some (.ok (.unsafeUrl text)), []⟩
  | .error e => ⟨some (.error e), []⟩
  | .ok () => ⟨client.map fun answer => .ok answer.toHttp, connections sys connect url⟩

/-- For one target of a check-in. Errors of the client are logged. -/
def postCountryPackExtensionWebhook (sys : System) (check connect : String → Lookup)
    (client : Option ClientAnswer) (url : String) : Sent Unit :=
  match assertWebhookTargetIpsSafeForUrl sys check url with
  | .error (.webhookUrlUnsafeError _) => ⟨some (.ok ()), []⟩
  | .error .osError => ⟨some (.ok ()), []⟩
  | .error e => ⟨some (.error e), []⟩
  | .ok () => ⟨client.map fun _ => .ok (), connections sys connect url⟩

inductive Sender where
  | subscription
  | countryPackExtension

/-- The URL of an extension is stored without a check. -/
def Sender.stored (sender : Sender) (sys : System) (dns : String → Lookup) (url : String) :
    Option String :=
  match sender with
  | subscription => (validateHttpsUrl sys dns url).toOption
  | countryPackExtension => some (Text.strip url)

def Sender.contacted (sender : Sender) (sys : System) (check connect : String → Lookup)
    (client : Option ClientAnswer) (url : String) : List IpAddress :=
  match sender with
  | subscription => (singleHttpDelivery sys check connect client url).contacted
  | countryPackExtension =>
    (postCountryPackExtensionWebhook sys check connect client url).contacted

/-- What the lookups answer, one after the other, and the client's requests. -/
structure Weather where
  dns : ℕ → String → Lookup
  clients : ℕ → Option ClientAnswer

/-- The addresses of the first attempts for a stored URL. The lookup before them was that
of the registration. -/
def Sender.attempts (sender : Sender) (sys : System) (world : Weather) (url : String) :
    ℕ → List IpAddress
  | 0 => []
  | n + 1 => sender.attempts sys world url n ++
      sender.contacted sys (world.dns (2 * n + 1)) (world.dns (2 * n + 2)) (world.clients n) url

/-- The addresses that are contacted for a URL from its registration on. -/
def Sender.contacts (sender : Sender) (sys : System) (world : Weather) (url : String) (n : ℕ) :
    List IpAddress :=
  match sender.stored sys (world.dns 0) url with
  | none => []
  | some stored => sender.attempts sys world stored n

/-! No internal address -/

section Checks
variable {sys : System} {dns : String → Lookup} {url : String}

theorem checkAddress_ok {text : String} : checkAddress text = .ok () ↔
    ∀ a ∈ ipAddress text, ipIsBlocked a = false := by
  unfold checkAddress
  cases ipAddress text with
  | none => simp
  | some addr => cases hblocked : ipIsBlocked addr <;> simp [hblocked]

theorem checkAddresses_ok {texts : List String} : texts.forM checkAddress = .ok () ↔
    ∀ a ∈ texts.filterMap ipAddress, ipIsBlocked a = false := by
  have hall : texts.forM checkAddress = .ok () ↔ ∀ text ∈ texts, checkAddress text = .ok () := by
    induction texts with
    | nil => exact iff_of_true rfl fun _ h => absurd h List.not_mem_nil
    | cons text rest ih =>
      rw [List.forall_mem_cons, ← ih]
      change (checkAddress text >>= fun _ => rest.forM checkAddress) = _ ↔ _
      cases checkAddress text with
      | error e => exact iff_of_false nofun fun h => nomatch h.1
      | ok found => exact (and_iff_right rfl).symm
  rw [hall]
  simp only [checkAddress_ok, List.mem_filterMap]
  constructor
  · rintro h a ⟨text, hmem, ha⟩
    exact h text hmem a ha
  · intro h text hmem a ha
    exact h a ⟨text, hmem, ha⟩

theorem getaddrinfo_ok {host : String} {texts : List String} :
    getaddrinfo sys dns host = .ok texts ↔
      ∃ name, sys.encodeHost host = some name ∧ sys.answer dns name = .addresses texts := by
  unfold getaddrinfo
  cases sys.encodeHost host with
  | none => simp
  | some name => cases hanswer : sys.answer dns name <;> simp [hanswer]

/-- The check passes on the answer to its own lookup. -/
theorem check_ok_iff : assertWebhookTargetIpsSafeForUrl sys dns url = .ok () ↔
    ∃ name texts, lookedUp sys url = some name ∧ sys.answer dns name = .addresses texts ∧
      ∀ a ∈ texts.filterMap ipAddress, ipIsBlocked a = false := by
  unfold assertWebhookTargetIpsSafeForUrl lookedUp
  cases urlparse sys (Text.strip url) with
  | none => simp
  | some parsed =>
    by_cases hscheme : parsed.scheme ≠ "https"
    · simp [hscheme]
    · simp only [if_neg hscheme]
      cases parsed.hostname with
      | none => simp
      | some host =>
        change (getaddrinfo sys dns host >>= fun texts => texts.forM checkAddress) = _ ↔ _
        rw [Option.bind_some]
        constructor
        · intro h
          cases hget : getaddrinfo sys dns host with
          | error e =>
            rw [hget] at h
            cases h
          | ok texts =>
            rw [hget] at h
            obtain ⟨name, hname, hanswer⟩ := getaddrinfo_ok.mp hget
            exact ⟨name, texts, hname, hanswer, checkAddresses_ok.mp h⟩
        · rintro ⟨name, texts, hname, hanswer, h⟩
          rw [getaddrinfo_ok.mpr ⟨name, hname, hanswer⟩]
          exact checkAddresses_ok.mpr h

theorem mem_connections {a : IpAddress} : a ∈ connections sys dns url ↔
    ∃ name texts, sys.dialed url = some name ∧ sys.answer dns name = .addresses texts ∧
      a ∈ texts.filterMap ipAddress := by
  unfold connections
  cases sys.dialed url with
  | none => simp
  | some name => cases hanswer : sys.answer dns name <;> simp [hanswer]

theorem mem_contacted {sender : Sender} {connect : String → Lookup} {client : Option ClientAnswer}
    {a : IpAddress} : a ∈ sender.contacted sys dns connect client url ↔
      assertWebhookTargetIpsSafeForUrl sys dns url = .ok () ∧ a ∈ connections sys connect url := by
  cases sender with
  | subscription =>
    unfold Sender.contacted singleHttpDelivery
    cases assertWebhookTargetIpsSafeForUrl sys dns url with
    | ok found => simp
    | error e => cases e <;> simp
  | countryPackExtension =>
    unfold Sender.contacted postCountryPackExtensionWebhook
    cases assertWebhookTargetIpsSafeForUrl sys dns url with
    | ok found => simp
    | error e => cases e <;> simp

/-- Where the two lookups of an attempt answer alike, the check is about the connection. -/
theorem contacted_external {sender : Sender} {connect : String → Lookup}
    {client : Option ClientAnswer}
    (hsame : ∀ asked ∈ lookedUp sys url, ∀ dialed ∈ sys.dialed url,
      sys.answer connect dialed = sys.answer dns asked)
    {a : IpAddress} (ha : a ∈ sender.contacted sys dns connect client url) :
    ipIsBlocked a = false := by
  obtain ⟨hcheck, hconnect⟩ := mem_contacted.mp ha
  obtain ⟨name, texts, hname, hanswer, hexternal⟩ := check_ok_iff.mp hcheck
  obtain ⟨name', texts', hname', hanswer', hmem⟩ := mem_connections.mp hconnect
  rw [hsame name hname name' hname', hanswer] at hanswer'
  cases hanswer'
  exact hexternal a hmem

theorem lookedUp_strip (sys : System) (url : String) :
    lookedUp sys (Text.strip url) = lookedUp sys url := by
  unfold lookedUp
  rw [strip_strip]

/-- A URL that the check of its registration passes is registered. -/
theorem validateHttpsUrl_ok
    (h : assertWebhookTargetIpsSafeForUrl sys dns (Text.strip url) = .ok ()) :
    validateHttpsUrl sys dns url = .ok (Text.strip url) := by
  obtain ⟨name, -, hname, -, -⟩ := check_ok_iff.mp h
  rw [lookedUp_strip] at hname
  unfold lookedUp at hname
  have hurl : Text.strip url ≠ "" := by
    intro hempty
    rw [hempty] at hname
    cases hname
  unfold validateHttpsUrl
  simp only
  rw [if_neg hurl]
  cases hparse : urlparse sys (Text.strip url) with
  | none =>
    rw [hparse] at hname
    cases hname
  | some parsed =>
    rw [hparse] at hname
    simp only at hname ⊢
    split at hname
    · cases hname
    · next hscheme =>
      have hnetloc : parsed.netloc ≠ "" := by
        intro hempty
        have hhost : parsed.hostname = none := by
          unfold SplitResult.hostname
          rw [hempty]
          rfl
        rw [hhost] at hname
        cases hname
      rw [if_neg hscheme, if_neg hnetloc, h]

theorem stored_eq {sender : Sender} {stored : String}
    (h : sender.stored sys dns url = some stored) : stored = Text.strip url := by
  cases sender with
  | subscription =>
    unfold Sender.stored validateHttpsUrl at h
    simp only at h
    split at h
    · cases h
    · split at h
      · cases h
      · split at h
        · cases h
        · split at h
          · cases h
          · split at h
            · exact (Option.some.inj h).symm
            · cases h
            · cases h
  | countryPackExtension => exact (Option.some.inj h).symm

theorem stored_of_check {sender : Sender}
    (h : assertWebhookTargetIpsSafeForUrl sys dns (Text.strip url) = .ok ()) :
    sender.stored sys dns url = some (Text.strip url) := by
  cases sender with
  | subscription =>
    change (validateHttpsUrl sys dns url).toOption = _
    rw [validateHttpsUrl_ok h]
    rfl
  | countryPackExtension => rfl

end Checks

theorem mem_attempts {sender : Sender} {sys : System} {world : Weather} {url : String} {n : ℕ}
    {a : IpAddress} : a ∈ sender.attempts sys world url n ↔ ∃ k < n,
      a ∈ sender.contacted sys (world.dns (2 * k + 1)) (world.dns (2 * k + 2)) (world.clients k)
        url := by
  induction n with
  | zero =>
    refine iff_of_false List.not_mem_nil ?_
    rintro ⟨k, hk, -⟩
    omega
  | succ n ih =>
    unfold Sender.attempts
    rw [List.mem_append, ih]
    constructor
    · rintro (⟨k, hk, ha⟩ | ha)
      · exact ⟨k, by omega, ha⟩
      · exact ⟨n, by omega, ha⟩
    · rintro ⟨k, hk, ha⟩
      rcases Nat.lt_succ_iff_lt_or_eq.mp hk with hlt | rfl
      · exact .inl ⟨k, hlt, ha⟩
      · exact .inr ha

/-- None of the texts stands for an internal address. -/
def External (texts : List String) : Prop :=
  ∀ a ∈ texts.filterMap ipAddress, ipIsBlocked a = false

/-- Where both come to a lookup, the system itself answers the check with an internal address
or the client with external ones only. -/
def Shielded (sys : System) (url : String) : Prop :=
  ∀ asked ∈ lookedUp sys url, ∀ dialed ∈ sys.dialed (Text.strip url),
    (∃ texts ∈ sys.own asked, ¬ External texts) ∨ ∃ texts ∈ sys.own dialed, External texts

/-- What an attempt contacts goes back to a check that was passed. -/
theorem mem_contacts {sender : Sender} {sys : System} {world : Weather} {url : String} {n : ℕ}
    {a : IpAddress} (ha : a ∈ sender.contacts sys world url n) : ∃ k,
      assertWebhookTargetIpsSafeForUrl sys (world.dns (2 * k + 1)) (Text.strip url) = .ok () ∧
        a ∈ connections sys (world.dns (2 * k + 2)) (Text.strip url) := by
  unfold Sender.contacts at ha
  split at ha
  · cases ha
  · next stored hstored =>
    obtain rfl := stored_eq hstored
    obtain ⟨k, -, ha⟩ := mem_attempts.mp ha
    exact ⟨k, mem_contacted.mp ha⟩

/-- No internal address is contacted as long as each connection is told what its check was. -/
theorem contacts_external {sender : Sender} {sys : System} {world : Weather} {url : String}
    (hsame : ∀ asked ∈ lookedUp sys url, ∀ dialed ∈ sys.dialed (Text.strip url), ∀ k,
      sys.answer (world.dns (2 * k + 2)) dialed = sys.answer (world.dns (2 * k + 1)) asked)
    {n : ℕ} {a : IpAddress} (ha : a ∈ sender.contacts sys world url n) :
    ipIsBlocked a = false := by
  obtain ⟨k, hcontacted⟩ := mem_contacts ha
  refine @contacted_external _ _ _ sender _ none (fun asked hasked dialed hdialed => ?_) _
    (mem_contacted.mpr hcontacted)
  rw [lookedUp_strip] at hasked
  exact hsame asked hasked dialed hdialed k

/-- A name server that answers the connections only with the address of the host itself. -/
def rebinding (n : ℕ) : String → Lookup :=
  fun _ => .addresses [if n % 2 = 0 ∧ n ≠ 0 then "127.0.0.1" else "93.184.216.34"]

theorem rebinding_contacts (sender : Sender) {sys : System} {url asked dialed : String}
    (hasked : lookedUp sys url = some asked) (hdialed : sys.dialed (Text.strip url) = some dialed)
    (hpass : ∀ texts ∈ sys.own asked, External texts)
    (hreach : ∀ texts ∈ sys.own dialed, ¬ External texts) (clients : ℕ → Option ClientAnswer) :
    ∃ a ∈ sender.contacts sys ⟨rebinding, clients⟩ url 1, ipIsBlocked a = true := by
  rw [← lookedUp_strip] at hasked
  have hcheck : ∀ n, n % 2 ≠ 0 ∨ n = 0 →
      assertWebhookTargetIpsSafeForUrl sys (rebinding n) (Text.strip url) = .ok () := by
    intro n hn
    cases hown : sys.own asked with
    | none =>
      refine check_ok_iff.mpr ⟨asked, ["93.184.216.34"], hasked, ?_, by decide⟩
      unfold System.answer
      rw [hown]
      simp only
      rw [rebinding, if_neg (by omega)]
    | some texts =>
      refine check_ok_iff.mpr ⟨asked, texts, hasked, ?_, hpass texts hown⟩
      unfold System.answer
      rw [hown]
  have hconnect : ∃ a ∈ connections sys (rebinding 2) (Text.strip url), ipIsBlocked a = true := by
    cases hown : sys.own dialed with
    | none =>
      refine ⟨.v4 0x7f000001#32, mem_connections.mpr
        ⟨dialed, ["127.0.0.1"], hdialed, ?_, by decide⟩, by decide⟩
      unfold System.answer
      rw [hown]
      rfl
    | some texts =>
      have hinternal := hreach texts hown
      unfold External at hinternal
      push Not at hinternal
      obtain ⟨a, ha, hblocked⟩ := hinternal
      refine ⟨a, mem_connections.mpr ⟨dialed, texts, hdialed, ?_, ha⟩, by simpa using hblocked⟩
      unfold System.answer
      rw [hown]
  obtain ⟨a, ha, hblocked⟩ := hconnect
  refine ⟨a, ?_, hblocked⟩
  unfold Sender.contacts
  rw [stored_of_check (hcheck 0 (.inr rfl))]
  exact mem_attempts.mpr ⟨0, Nat.one_pos, mem_contacted.mpr ⟨hcheck 1 (.inl (by decide)), ha⟩⟩

/-- For either sender: whatever the lookups answer, no internal address is contacted, exactly
if the name servers have no say. Where every connection is told what its check was told, none
is contacted either. -/
theorem targets_external_iff (sender : Sender) (sys : System) (url : String) :
    ((∀ world n, ∀ a ∈ sender.contacts sys world url n, ipIsBlocked a = false) ↔
      Shielded sys url) ∧
    ∀ world : Weather, (∀ asked ∈ lookedUp sys url, ∀ dialed ∈ sys.dialed (Text.strip url), ∀ k,
        sys.answer (world.dns (2 * k + 2)) dialed = sys.answer (world.dns (2 * k + 1)) asked) →
      ∀ n, ∀ a ∈ sender.contacts sys world url n, ipIsBlocked a = false := by
  refine ⟨⟨fun h => ?_, fun h world n a ha => ?_⟩, fun world hsame n a ha => ?_⟩
  · by_contra hopen
    unfold Shielded at hopen
    push Not at hopen
    obtain ⟨asked, hasked, dialed, hdialed, hpass, hreach⟩ := hopen
    obtain ⟨a, ha, hblocked⟩ := rebinding_contacts sender hasked hdialed hpass hreach
      fun _ => some (.response 200)
    rw [h _ 1 a ha] at hblocked
    exact Bool.false_ne_true hblocked
  · obtain ⟨k, hcheck, hconnect⟩ := mem_contacts ha
    obtain ⟨asked, texts, hasked, hanswer, hexternal⟩ := check_ok_iff.mp hcheck
    obtain ⟨dialed, texts', hdialed, hanswer', hmem⟩ := mem_connections.mp hconnect
    rw [lookedUp_strip] at hasked
    unfold System.answer at hanswer hanswer'
    rcases h asked hasked dialed hdialed with ⟨own, hown, hinternal⟩ | ⟨own, hown, hown_external⟩
    · rw [show sys.own asked = some own from hown] at hanswer
      cases hanswer
      exact absurd hexternal hinternal
    · rw [show sys.own dialed = some own from hown] at hanswer'
      cases hanswer'
      exact hown_external a hmem
  · exact contacts_external hsame ha

/-- Digits and points make up an address literal, any other name is asked for. The client
makes the same name of a plain host as the check. -/
def Demo.system : System :=
  let sys : System :=
    { nfkc := fun text => text, idna := fun _ => none,
      own := fun name =>
        if name.toList.all (fun c => c.isDigit || c == '.') then some [name] else none,
      dialed := fun _ => none }
  { sys with dialed := lookedUp sys }

/-- A name server that stays with its answer. -/
theorem targets_external_demo :
    (.v4 0x5db8d822#32 ∈ Sender.subscription.contacts Demo.system
      ⟨fun _ _ => .addresses ["93.184.216.34"], fun _ => some (.response 200)⟩
      "https://hooks.example.com/pms" 2) ∧
    ∀ a ∈ Sender.subscription.contacts Demo.system
      ⟨fun _ _ => .addresses ["93.184.216.34"], fun _ => some (.response 200)⟩
      "https://hooks.example.com/pms" 2, ipIsBlocked a = false := by
  refine ⟨by decide, ?_⟩
  refine (targets_external_iff .subscription Demo.system "https://hooks.example.com/pms").2
    ⟨fun _ _ => .addresses ["93.184.216.34"], fun _ => some (.response 200)⟩ ?_ 2
  intro asked hasked dialed hdialed k
  have hnames : lookedUp Demo.system "https://hooks.example.com/pms" = some "hooks.example.com" ∧
      Demo.system.dialed (Text.strip "https://hooks.example.com/pms") =
        some "hooks.example.com" := by decide
  obtain rfl := Option.some.inj (hnames.1.symm.trans hasked)
  obtain rfl := Option.some.inj (hnames.2.symm.trans hdialed)
  rfl

theorem webhook_reaches_loopback :
    ipIsBlocked (.v4 0x7f000001#32) = true ∧
      validateHttpsUrl Demo.system (rebinding 0) "https://hooks.example.com/pms" =
        .ok "https://hooks.example.com/pms" ∧
      .v4 0x7f000001#32 ∈ Sender.subscription.contacts Demo.system
        ⟨rebinding, fun _ => some (.response 200)⟩ "https://hooks.example.com/pms" 1 ∧
      .v4 0x7f000001#32 ∈ Sender.countryPackExtension.contacts Demo.system
        ⟨rebinding, fun _ => some (.response 200)⟩ "https://hooks.example.com/pms" 1 := by
  decide

end OpenPms.WebhookTargets

import StealthHub.Data.IpAddr
import StealthHub.Effect.Program
import StealthHub.Routing.Rules

set_option autoImplicit false

namespace StealthHub.Panel.RuleSources

open Effect Effect.Program Routing Text

/-- The libraries for URLs, hashes, YAML and HTTP. -/
structure Web where
  Url : Type
  parseUrl : String → Except String Url
  join : Url → String → Except String Url
  scheme : Url → String
  username : Url → String
  password : Url → Option String
  hostStr : Url → Option String
  portOrKnownDefault : Url → Option ℕ
  sha256 : ByteArray → String
  /-- The `payload` of a document. -/
  yamlPayload : String → Except String (List String)
  statusError : ℕ → String

/-- A response. Its headers are those whose values are text. -/
structure Response where
  status : ℕ
  location : Option String
  etag : Option String
  lastModified : Option String
  contentLength : Option ℕ
  chunks : List (Except String ByteArray)

/-- The row of a rule source as a query finds it: the rule set that it belongs to, and how many
upserts went before. The code does not count them. -/
structure FoundRow where
  ruleSetId : String
  upserts : ℕ

/-- What the refresh and the upsert of one rule source ask for. A request to a server carries
the URL of the rule source that is fetched, and a write of a refresh the upserts that went
before it began; the code passes neither. -/
inductive SourceOp (Url : Type)
  | ruleSetOf
  | loadRuleSources (ruleSetId : String)
  | loadRoutingRuleSets
  | loadRuleEntries (ruleSetId : String)
  | lookupHost (host : String) (port : ℕ)
  | send (url : Url) (addresses : List IpAddr) (etag lastModified : Option String)
    (sourceUrl : String)
  | now
  | writeSource (source : RuleSetSource)
  | updateRuleSourceSuccess (source : RuleSetSource) (began : ℕ)
  | updateRuleSourceError (error : String)

def SourceReply {Url : Type} : SourceOp Url → Type
  | .ruleSetOf => Except String (Option FoundRow)
  | .loadRuleSources _ => Except String (List RuleSetSource)
  | .loadRoutingRuleSets => Except String (List RoutingRuleSet)
  | .loadRuleEntries _ => Except String (List RuleEntry)
  | .lookupHost _ _ => Except String (List IpAddr)
  | .send _ _ _ _ _ => Except String Response
  | .now => String
  | .writeSource _ | .updateRuleSourceSuccess _ _ | .updateRuleSourceError _ => Except String Unit

abbrev SourceProgram (web : Web) (α : Type) := Program (@SourceReply web.Url) String α

def orFail {web : Web} {α : Type} (p : SourceProgram web (Except String α)) : SourceProgram web α :=
  p.bind lift

def maxRedirects : ℕ := 3

def maxBodyBytes : ℕ := 4 * 1024 * 1024

def maxLines : ℕ := 100000

def maxLineBytes : ℕ := 4096

def ipv4Bits (address : Ipv4Addr) : ℕ :=
  ((address.a.val * 256 + address.b.val) * 256 + address.c.val) * 256 + address.d.val

def inBlock (value base size : ℕ) : Bool := base ≤ value && value < base + size

def forbiddenIpv4 (address : Ipv4Addr) : Bool :=
  let value := ipv4Bits address
  inBlock value 0x0a000000 0x1000000 || inBlock value 0xac100000 0x100000 ||
    inBlock value 0xc0a80000 0x10000 || -- private
    inBlock value 0x7f000000 0x1000000 || -- loopback
    inBlock value 0xa9fe0000 0x10000 || -- link-local
    value = 0xffffffff || -- broadcast
    inBlock value 0xc0000200 0x100 || inBlock value 0xc6336400 0x100 ||
    inBlock value 0xcb007100 0x100 || -- documentation
    value = 0 || -- unspecified
    inBlock value 0xe0000000 0x10000000 || -- multicast
    inBlock value 0 0x1000000 ||
    inBlock value 0x64400000 0x400000 || -- 100.64.0.0/10 shared address space
    inBlock value 0xc6120000 0x20000 || -- 198.18.0.0/15 benchmarking
    inBlock value 0xf0000000 0x10000000 -- 240.0.0.0/4 reserved

def toIpv4Mapped (address : Ipv6Addr) : Option Ipv4Addr :=
  match address.segments with
  | [a, b, c, d, e, f, high, low] =>
    if [a, b, c, d, e] = List.replicate 5 0 ∧ f = 0xffff then some (embeddedIpv4 high low)
    else none
  | _ => none

def forbiddenIpv6 (address : Ipv6Addr) : Bool :=
  let first := (address.segments.headD 0).val
  address.segments = List.replicate 7 0 ++ [1] || -- loopback
    address.segments = List.replicate 8 0 || -- unspecified
    0xff00 ≤ first || -- multicast
    inBlock first 0xfc00 0x200 || -- unique local
    inBlock first 0xfe80 0x40 -- link-local

def forbiddenAddress : IpAddr → Bool
  | .v4 address => forbiddenIpv4 address
  | .v6 address =>
    match toIpv4Mapped address with
    | some mapped => forbiddenIpv4 mapped
    | none => forbiddenIpv6 address

/-- `trim_start_matches("+.")`. -/
def trimWildcards : List Char → List Char
  | '+' :: '.' :: rest => trimWildcards rest
  | l => l

def textRule (line : String) : String :=
  if containsChar line ',' then line
  else "DOMAIN-SUFFIX," ++ String.ofList (trimWildcards line.toList)

def bounded (value : Option String) : Option String :=
  value.filter fun value ↦ len value ≤ 512 && !hasControl value

def readBody (chunks : List (Except String ByteArray)) : Except String ByteArray :=
  chunks.foldlM (fun body chunk ↦ do
    let chunk ← chunk
    if maxBodyBytes < body.size + chunk.size then
      throw "remote rule source exceeds body limit"
    else return body ++ chunk) .empty

section fetch

variable (web : Web)

def parseSource (format : RuleSourceFormat) (text : String) : Except String (List String) := do
  if maxLines < (lines text).length || (lines text).any (maxLineBytes < len ·) then
    throw "remote rule source exceeds line bounds"
  else
    let payload ← match format with
      | .yaml | .mihomoClassical => (web.yamlPayload text).map joinLines
      | .text =>
        let listed := ((lines text).map trim).filter fun line ↦ !isEmpty line && !startsWith line "#"
        .ok (joinLines (listed.map textRule))
    validateClassicalRulePayload payload

def parseBody (format : RuleSourceFormat) (body : ByteArray) : Except String (List String) :=
  match String.fromUTF8? body with
  | none => .error "remote rule source is not UTF-8"
  | some text => parseSource web format text

def accept (source : RuleSetSource) (response : Response) : Except String RuleSetSource := do
  if 400 ≤ response.status ∧ response.status < 600 then throw (web.statusError response.status)
  else if response.contentLength.any (maxBodyBytes < ·) then
    throw "remote rule source exceeds body limit"
  else
    let body ← readBody response.chunks
    let rules ← parseBody web source.format body
    if 2 ^ 32 ≤ rules.length then throw "out of range integral type conversion attempted"
    else return { source with
      etag := bounded response.etag
      lastModified := bounded response.lastModified
      checksum := some (web.sha256 body)
      entryCount := rules.length
      cachedPayload := joinLines rules
      lastError := none }

def validateRemoteUrl (url : web.Url) : SourceProgram web (List IpAddr) :=
  if web.scheme url ≠ "https" || !isEmpty (web.username url) || (web.password url).isSome then
    .fail "remote rule source must use HTTPS without URL credentials"
  else
    match web.hostStr url with
    | none => .fail "remote rule source has no host"
    | some host =>
      if eqIgnoreAsciiCase host "localhost" || endsWith host ".localhost" then
        .fail "local remote-rule host is forbidden"
      else do
        let found : Except String (List IpAddr) ← request
          (SourceOp.lookupHost host ((web.portOrKnownDefault url).getD 443))
        match found with
        | .error _ => .fail "resolve remote rule source"
        | .ok addresses =>
          if addresses.isEmpty || addresses.any forbiddenAddress then
            .fail "remote rule source resolves to a forbidden address"
          else return addresses

def redirectTarget (url : web.Url) (response : Response) : Except String web.Url :=
  match response.location with
  | none => .error "redirect has no valid location"
  | some location => (web.join url location).mapError fun _ ↦ "invalid redirect target"

def fetchFrom (source : RuleSetSource) : ℕ → web.Url → SourceProgram web (Option RuleSetSource)
  | redirects, url => do
    let addresses ← validateRemoteUrl web url
    let response ← orFail (request
      (SourceOp.send url addresses source.etag source.lastModified source.url))
    if response.status = 304 then return none
    else if 300 ≤ response.status ∧ response.status < 400 then
      match redirects with
      | 0 => .fail "remote rule source exceeded redirect limit"
      | redirects + 1 => do
        let target ← lift (redirectTarget web url response)
        fetchFrom source redirects target
    else do
      let updated ← lift (accept web source response)
      return some updated

/-- The source with new contents, or `none` if they are still as they were. -/
def fetch (source : RuleSetSource) : SourceProgram web (Option RuleSetSource) :=
  match web.parseUrl source.url with
  | .error _ => .fail "invalid source URL"
  | .ok url => fetchFrom web source maxRedirects url

end fetch

end StealthHub.Panel.RuleSources

import StealthHub.Data.OrderedMap
import StealthHub.Data.Result
import StealthHub.Data.Text

set_option autoImplicit false

namespace StealthHub.Modules

open Text

/-- The order in which the updater reads the fields. -/
def FIELDS : List String :=
  ["id", "name", "kind", "role", "repo", "upstream", "ref", "driver", "root", "binary", "service",
    "config", "asset_amd64", "asset_arm64"]

inductive UpstreamKind
  | release
  | pinnedRelease (tag : String)
  | commit (gitRef : String)
deriving DecidableEq

structure ModuleSpec where
  id : String
  name : String
  kind : String
  role : String
  repo : String
  upstream : UpstreamKind
  driver : String
  root : String
  binary : String
  binaryPath : String
  service : String
  configPath : String
  assetAmd64 : String
  assetArm64 : String
deriving DecidableEq

/-- A path as it is printed, and the stem of its file name where that is Unicode. -/
structure ManifestPath where
  display : String
  fileStem : Option String

def validId (value : String) : Bool :=
  !isEmpty value && len value ≤ 32 && value.toList.head?.any isAsciiLowercase &&
    value.toList.all fun ch ↦ isAsciiLowercase ch || isAsciiDigit ch || ch == '-'

/-- `u64::from_str` on a run of digits. -/
def parseU64 (digits : List Char) : Option ℕ :=
  let value := digits.foldl (fun n c ↦ 10 * n + (c.toNat - 48)) 0
  if value < 2 ^ 64 then some value else none

/-- The three numbers of a release tag. -/
def normalizedReleaseVersion (value : String) : Option (ℕ × ℕ × ℕ) := do
  let start := value.toList.dropWhile (!isAsciiDigit ·)
  if start.isEmpty then none
  else
    let components ← ((start.splitOnP (!isAsciiDigit ·)).filter (!·.isEmpty)).mapM parseU64
    match components with
    | [major, minor, patch] => some (major, minor, patch)
    | _ => none

def safeRepoPart (value : String) : Bool :=
  !isEmpty value && len value ≤ 100 &&
    value.toList.all fun ch ↦ isAsciiAlphanumeric ch || ch == '.' || ch == '_' || ch == '-'

def validRepo (value : String) : Bool :=
  match split '/' value with
  | [owner, repo] => safeRepoPart owner && safeRepoPart repo
  | _ => false

def validRef (value : String) : Bool :=
  !isEmpty value && len value ≤ 120 && !startsWith value "/" && !contains value ".." &&
    value.toList.all fun ch ↦
      isAsciiAlphanumeric ch || ch == '.' || ch == '_' || ch == '/' || ch == '-'

def safeTextChar (ch : Char) : Bool :=
  ch.toNat < 128 && !isControl ch && ch != '=' && ch != '|'

def safeText (value : String) : Bool := value.toList.all safeTextChar

def safeFilename (value : String) : Bool :=
  !isEmpty value && len value ≤ 80 &&
    value.toList.all fun ch ↦
      isAsciiAlphanumeric ch || ch == '.' || ch == '_' || ch == '+' || ch == '-'

def safeService (value : String) : Bool :=
  endsWith value ".service" && len value ≤ 128 &&
    value.toList.all fun ch ↦
      isAsciiAlphanumeric ch || ch == '.' || ch == '_' || ch == '@' || ch == '-'

def safeAsset (value : String) : Bool :=
  !isEmpty value && len value ≤ 180 &&
    value.toList.all fun ch ↦
      isAsciiAlphanumeric ch || ch == '.' || ch == '_' || ch == '+' || ch == '-' || ch == '\x7b' ||
        ch == '\x7d'

def safePathChar (ch : Char) : Bool :=
  isAsciiAlphanumeric ch || ch == '/' || ch == '.' || ch == '_' || ch == '+' || ch == '-'

def UpstreamKind.isRelease : UpstreamKind → Bool
  | release | pinnedRelease _ => true
  | commit _ => false

def parseLine (path : ManifestPath) (values : OrderedMap String String) (index : ℕ)
    (rawLine : String) : Except String (OrderedMap String String) := do
  let line := trim rawLine
  let place := path.display ++ ":" ++ toString (index + 1)
  if isEmpty line || startsWith line "#" then return values
  else
    let (rawKey, rawValue) ← (splitOnce '=' line).elim (.error (place ++ ": expected key=value")) .ok
    let key := trim rawKey
    if key ∉ FIELDS then throw (place ++ ": unknown key " ++ key)
    else
      let value := trim rawValue
      if !safeText value then throw (place ++ ": unsafe value")
      else if values.contains key then throw (place ++ ": duplicate key " ++ key)
      else return values.insert key value

def parseLines (path : ManifestPath) (values : OrderedMap String String) (index : ℕ) :
    List String → Except String (OrderedMap String String)
  | [] => .ok values
  | line :: rest => do
    let values ← parseLine path values index line
    parseLines path values (index + 1) rest

def valueOf (path : ManifestPath) (values : OrderedMap String String) (key : String) :
    Except String String :=
  (values.get? key).elim (.error (path.display ++ ": missing " ++ key)) .ok

def readUpstream (path : ManifestPath) (values : OrderedMap String String) :
    Except String UpstreamKind := do
  let kind ← valueOf path values "upstream"
  if kind = "release" then return .release
  else if kind = "pinned-release" then return .pinnedRelease (← valueOf path values "ref")
  else if kind = "commit" then return .commit (← valueOf path values "ref")
  else throw (path.display ++ ": unsupported upstream")

def readSpec (path : ManifestPath) (values : OrderedMap String String) :
    Except String ModuleSpec := do
  let upstream ← readUpstream path values
  let id ← valueOf path values "id"
  let name ← valueOf path values "name"
  let kind ← valueOf path values "kind"
  let role ← valueOf path values "role"
  let repo ← valueOf path values "repo"
  let driver ← valueOf path values "driver"
  let root ← valueOf path values "root"
  let binary ← valueOf path values "binary"
  let service ← valueOf path values "service"
  let configPath ← valueOf path values "config"
  let assetAmd64 ← valueOf path values "asset_amd64"
  let assetArm64 ← valueOf path values "asset_arm64"
  if id ≠ path.fileStem.getD "" then throw (path.display ++ ": id must match the file name")
  else
    return { id, name, kind, role, repo, upstream, driver, root, binary, service, configPath,
             assetAmd64, assetArm64, binaryPath := "" }

def validateText (label value : String) (max : ℕ) : Except String Unit :=
  if isEmpty value || max < len value then .error ("invalid module " ++ label) else .ok ()

def validateUpstream : UpstreamKind → Except String Unit
  | .release => .ok ()
  | .commit gitRef => if !validRef gitRef then .error "invalid Git reference" else .ok ()
  | .pinnedRelease tag =>
    if !validRef tag || (normalizedReleaseVersion tag).isNone then
      .error "invalid pinned release tag"
    else .ok ()

def releaseService (id : String) : String := "infiproxy-" ++ id ++ ".service"

def coreConfigDirectory (id : String) : String := "/etc/infiproxy-cores/" ++ id

def validateDriver (spec : ModuleSpec) : Except String Unit :=
  if spec.driver = "release" then
    if spec.root ≠ "cores" || spec.service ≠ releaseService spec.id ||
        !startsWith spec.configPath (coreConfigDirectory spec.id ++ "/") then
      .error "generic modules must use their own core service and config tree"
    else .ok ()
  else if spec.driver = "headscale" then
    if spec.id ≠ "headscale" || spec.root ≠ "modules" || spec.service ≠ "headscale.service" ||
        spec.configPath ≠ "/etc/headscale/config.yaml" then
      .error "invalid Headscale module contract"
    else .ok ()
  else if spec.driver = "mtproto-source" then
    if spec.id ≠ "mtproto" || spec.root ≠ "cores" || spec.service ≠ "infiproxy-mtproto.service" ||
        !startsWith spec.configPath "/etc/infiproxy-cores/mtproto/" then
      .error "invalid MTProto module contract"
    else .ok ()
  else .error "unsupported module driver"

def currentDirectory (root id : String) : String := "/opt/infiproxy/" ++ root ++ "/" ++ id ++ "/current"

def validateSpec (spec : ModuleSpec) (registration : Bool) : Except String ModuleSpec := do
  if !validId spec.id then throw "invalid module id"
  else
    validateText "name" spec.name 80
    validateText "kind" spec.kind 48
    validateText "role" spec.role 160
    if !validRepo spec.repo then throw "invalid GitHub repository"
    else
      validateUpstream spec.upstream
      if spec.root ≠ "cores" ∧ spec.root ≠ "modules" then throw "invalid runtime root"
      else if !safeFilename spec.binary then throw "invalid binary name"
      else if !safeService spec.service then throw "invalid service name"
      else if !startsWith spec.configPath "/etc/" || contains spec.configPath ".." ||
          !spec.configPath.toList.all safePathChar then throw "invalid config path"
      else if spec.upstream.isRelease && (!safeAsset spec.assetAmd64 || !safeAsset spec.assetArm64)
        then throw "invalid release asset template"
      else
        validateDriver spec
        if registration && (!spec.upstream.isRelease || spec.driver ≠ "release" ||
            spec.root ≠ "cores") then
          throw "registration only supports generic release modules under cores"
        else
          return { spec with binaryPath := currentDirectory spec.root spec.id ++ "/" ++ spec.binary }

def parseManifest (content : String) (path : ManifestPath) (registration : Bool) :
    Except String ModuleSpec := do
  let values ← parseLines path .empty 0 (lines content)
  let spec ← readSpec path values
  validateSpec spec registration

/-- The name of the upstream and its reference. -/
def UpstreamKind.fields : UpstreamKind → String × String
  | release => ("release", "")
  | pinnedRelease tag => ("pinned-release", tag)
  | commit gitRef => ("commit", gitRef)

def recordFields (spec : ModuleSpec) : List String :=
  [spec.id, spec.name, spec.kind, spec.role, spec.repo, spec.upstream.fields.1,
    spec.upstream.fields.2, spec.driver, spec.root, spec.binary, spec.service, spec.configPath,
    spec.assetAmd64, spec.assetArm64]

def pipeRecord (spec : ModuleSpec) : String := "|".intercalate (recordFields spec)

end StealthHub.Modules

import StealthHub.Models
import StealthHub.Modules.ReleaseVersions
import StealthHub.Updater.Policy
import StealthHub.Updater.Registry

set_option autoImplicit false

namespace StealthHub.Updater

open Text EnvFile Modules
open Manager (ManifestFile ModuleDirectory readManifest loadRegistry manifestRecord matchesModuleId)

inductive RuntimeLifecycleAction
  | install
  | update
  | remove
  | start
  | stop
  | restart
deriving DecidableEq

def RuntimeLifecycleAction.requestSuffix : RuntimeLifecycleAction → String
  | install => "register"
  | update => "request"
  | remove => "remove"
  | start => "start"
  | stop => "stop"
  | restart => "restart"

inductive FileKind
  | regular
  | link (toRegular : Bool)
  | directory
  | other
deriving DecidableEq

structure RequestFile where
  kind : FileKind
  owner : ℕ
  mode : ℕ
  size : ℕ
deriving DecidableEq

/-- The file `stem.suffix` of the directory of requests. -/
structure Request where
  stem : String
  action : RuntimeLifecycleAction
  file : RequestFile
deriving DecidableEq

def Request.name (request : Request) : String × RuntimeLifecycleAction :=
  (request.stem, request.action)

structure RequestDirectory where
  files : List Request
  distinct : (files.map Request.name).Nodup

def noRequests : RequestDirectory := ⟨[], List.nodup_nil⟩

theorem RequestDirectory.kept (directory : RequestDirectory) (p : Request → Bool) :
    ((directory.files.filter p).map Request.name).Nodup :=
  directory.distinct.sublist (List.filter_sublist.map _)

def RequestDirectory.keep (directory : RequestDirectory) (p : Request → Bool) : RequestDirectory :=
  ⟨directory.files.filter p, directory.kept p⟩

/-- What stands at `<request>.failed`, where `mv -f` sets a request aside. -/
inductive Aside
  /-- Nothing, or a file, which the request replaces. -/
  | free
  /-- A directory, maybe by a link to it, that the request is moved into; not where it is `taken`,
  as by a directory of that name. -/
  | directory (link : Option String) (taken : Bool)
deriving DecidableEq

/-- What the account of the panel may write as it likes. -/
structure PanelFiles where
  requests : RequestDirectory
  aside : String → RuntimeLifecycleAction → Aside
  /-- The files that the panel mirrors its view of the modules into. -/
  states : String → Option String
  /-- `panel-update-state.env`. -/
  policy : Option String

/-- What `current` leads to: the directory of a version, or, where the version is `current`, a
directory in place of the link. -/
structure Runtime where
  version : String
  binaries : List String
deriving DecidableEq

/-- What is under the directory of a module. -/
inductive Place
  /-- There is no such directory. -/
  | absent
  /-- Nothing in it is named `current`. -/
  | bare
  /-- `current` points at itself. -/
  | looped
  | runs (runtime : Runtime)
deriving DecidableEq

def Place.runtime : Place → Option Runtime
  | runs runtime => some runtime
  | _ => none

/-- An asset of a release in the temporary directory, and the checksum that it was found to bear. -/
structure Download where
  name : String
  archive : List UInt8
  sha256 : String
deriving DecidableEq

/-- What is done as root outside of the worker's own files and of the directory of requests. -/
inductive Act
  | service (verb service : String)
  /-- `infiproxy-core-install --core --version --archive --sha256 --binary`. -/
  | install (id version binary : String) (download : Download)
  | erase (directory : String)
  /-- A request is moved out to where a link leads. -/
  | moveInto (directory stem : String) (action : RuntimeLifecycleAction)
deriving DecidableEq

structure ModuleHost extends PanelFiles where
  active : ModuleDirectory
  available : ModuleDirectory
  /-- The account of the panel. -/
  appUser : ℕ
  /-- The owner of the directory of requests. -/
  requestOwner : ℕ
  /-- The runtimes, by directory. -/
  places : String → Place
  /-- The files `id.version`. -/
  remembered : String → Option String
  /-- The record of the generation that was applied last. -/
  applied : Option String
  lastAuto : Option String
  acts : List Act

def moduleIsRetired (id : String) : Bool := id = "headscale" || id = "mtproto"

/-- The variables that a record is read into. -/
structure Record where
  id : String
  repo : String
  upstream : String
  ref : String
  driver : String
  root : String
  binary : String
  service : String
  assetAmd64 : String
  assetArm64 : String
deriving DecidableEq

/-- The last variable takes up whatever is left. -/
def readRecord (record : String) : Option Record :=
  match split '|' record with
  | id :: _ :: _ :: _ :: repo :: upstream :: ref :: driver :: root :: binary :: service :: _ ::
      assetAmd64 :: rest =>
    some { id, repo, upstream, ref, driver, root, binary, service, assetAmd64
           assetArm64 := "|".intercalate rest }
  | _ => none

def loadModule (directory : ModuleDirectory) (id : String) : Option Record :=
  if matchesModuleId id then
    ((manifestRecord directory id).bind readRecord).filter (·.id = id)
  else none

def runtimeRoot (record : Record) : String :=
  (if record.root = "cores" then "/opt/infiproxy/cores/" else "/opt/infiproxy/modules/") ++ record.id

theorem runtimeRoot_ne {record record' : Record} (h : record.id ≠ record'.id) :
    runtimeRoot record ≠ runtimeRoot record' := by
  intro hsame
  have hlist := congrArg String.toList hsame
  have hcores : "/opt/infiproxy/cores/".toList = "/opt/infiproxy/".toList ++ 'c' :: "ores/".toList := by
    decide
  have hmodules : "/opt/infiproxy/modules/".toList =
      "/opt/infiproxy/".toList ++ 'm' :: "odules/".toList := by decide
  unfold runtimeRoot at hlist
  split_ifs at hlist
  all_goals simp only [String.toList_append, hcores, hmodules, List.append_assoc, List.cons_append,
    List.append_cancel_left_eq, List.cons.injEq, true_and, String.toList_inj] at hlist
  · exact h hlist
  · exact absurd hlist.1 (by decide)
  · exact absurd hlist.1 (by decide)
  · exact h hlist

def ModuleHost.placeOf (host : ModuleHost) (record : Record) : Place :=
  host.places (runtimeRoot record)

def ModuleHost.runtime (host : ModuleHost) (record : Record) : Option Runtime :=
  (host.placeOf record).runtime

/-- Whether the program of the module is there, under `current`. -/
def ModuleHost.executable (host : ModuleHost) (record : Record) : Bool :=
  (host.runtime record).any fun runtime ↦ record.binary ∈ runtime.binaries

/-- The class `[:space:]`, in the `C` locale. -/
def isSpace (c : Char) : Bool := c = ' ' || ('\t' ≤ c && c ≤ '\r')

def withoutSpace (s : String) : String := String.ofList (s.toList.filter fun c ↦ !isSpace c)

def ModuleHost.rememberedVersion (host : ModuleHost) (record : Record) : String :=
  match host.remembered record.id with
  | some text => if isEmpty text then "unknown" else withoutSpace text
  | none => "unknown"

def ModuleHost.installedVersion (host : ModuleHost) (record : Record) : String :=
  match host.runtime record with
  | some runtime =>
    if record.binary ∈ runtime.binaries ∧ runtime.version ≠ "current" then runtime.version
    else host.rememberedVersion record
  | none => host.rememberedVersion record

def normalizeVersion (value : String) : String :=
  dropPrefix "v" (dropPrefix "tuic-server-" (dropPrefix "app/v" value))

/-- How far the installer of a core gets. -/
inductive Installer
  | refused
  /-- The directory of the module is there. -/
  | started
  /-- The directory of the version has been made anew, and `current` has not been switched. -/
  | staged (left : List String)
  | switched

/-- How the surroundings answer while one module is updated. -/
structure Attempt where
  /-- The tag and the address that the manifest helper prints of the release, where there is one. -/
  metadata : Option (String × String)
  /-- The release, where it was downloaded with the right checksum and the configuration was kept. -/
  fetched : Option Download
  installer : Installer
  wasEnabled : Bool
  wasActive : Bool
  reloads : Bool
  enables : Bool
  restarts : Bool
  linked : Bool

/-- The pattern `^[A-Za-z0-9._+-]+$`. -/
def matchesVersion (s : String) : Bool :=
  !isEmpty s && s.toList.all fun c ↦
    isAsciiAlphanumeric c || c == '.' || c == '_' || c == '+' || c == '-'

def isSha256 (value : String) : Bool := len value = 64 && value.toList.all isAsciiHexdigit

def Place.made : Place → Place
  | absent => bare
  | place => place

/-- The directory of a version is made anew, also in place of the link `current`. -/
def Place.staged (version : String) (left : List String) : Place → Place
  | runs found =>
    if version = "current" ∨ found.version = version then runs ⟨version, left⟩ else runs found
  | place => if version = "current" then runs ⟨version, left⟩ else place.made

/-- `mv -Tf` puts a link in place of `current`, where that is no directory. -/
def Place.linked (runtime : Runtime) : Place → Place
  | runs found => if found.version = "current" then runs found else runs runtime
  | _ => runs runtime

def Installer.apply (installer : Installer) (version binary : String) (place : Place) : Place :=
  match installer with
  | refused => place
  | started => place.made
  | staged left => place.staged version left
  | switched => (place.staged version [binary]).linked ⟨version, [binary]⟩

def ModuleHost.act (host : ModuleHost) (acts : List Act) : ModuleHost :=
  { host with acts := host.acts ++ acts }

def ModuleHost.setPlace (host : ModuleHost) (record : Record) (place : Place) : ModuleHost :=
  { host with places := Function.update host.places (runtimeRoot record) place }

theorem ModuleHost.setPlace_places (host : ModuleHost) (record : Record) (place : Place) :
    (host.setPlace record place).places =
      Function.update host.places (runtimeRoot record) place := rfl

def ModuleHost.remember (host : ModuleHost) (id version : String) : ModuleHost :=
  { host with remembered := Function.update host.remembered id (some (version ++ "\n")) }

/-- The versions `.` and `..` are no directory that the installer can take away. -/
def runCoreInstaller (host : ModuleHost) (record : Record) (version : String) (download : Download)
    (attempt : Attempt) : ModuleHost :=
  let host := host.act [.install record.id version record.binary download]
  if matchesModuleId record.id && matchesVersion version && matchesVersion record.binary &&
      isSha256 download.sha256 then
    if version = "." ∨ version = ".." then host.setPlace record (host.placeOf record).made
    else host.setPlace record (attempt.installer.apply version record.binary (host.placeOf record))
  else host

def restoreServiceState (host : ModuleHost) (service : String) (attempt : Attempt) :
    Bool × ModuleHost :=
  let enabled := if attempt.wasEnabled then host.act [.service "enable" service] else host
  if !attempt.reloads then (false, host)
  else if attempt.wasEnabled && !attempt.enables then (false, enabled)
  else if attempt.wasActive then (attempt.restarts, enabled.act [.service "restart" service])
  else (true, enabled)

/-- What `current` becomes where it is linked to what `readlink -f` printed of it before: the same
directory, whatever stands in it now, or, where there was no `current`, its own path. A directory in
place of the link stays. -/
def Place.rolledBack (previous now : Place) : Option Place :=
  match previous, now with
  | .runs before, .runs found =>
    if before.version = "current" ∨ found.version = "current" then none
    else some (.runs (if found.version = before.version then found else before))
  | .runs before, _ => if before.version = "current" then none else some (.runs before)
  | .bare, .runs found => if found.version = "current" then none else some .looped
  | _, _ => none

def rollbackSymlink (host : ModuleHost) (record : Record) (previous : Place) (attempt : Attempt) :
    ModuleHost :=
  match previous.rolledBack (host.placeOf record) with
  | none => host
  | some place =>
    if !attempt.linked then host
    else
      let host := host.setPlace record place
      if attempt.wasActive then host.act [.service "restart" record.service] else host

/-- `install_release_module`, where an error of a command that is not asked about is passed over. -/
def installReleaseModule (host : ModuleHost) (record : Record) (allowDowngrade : Bool)
    (attempt : Attempt) : Bool × ModuleHost :=
  match attempt.metadata with
  | none => (false, host)
  | some (tag, url) =>
    let normalized := normalizeVersion tag
    let current := host.installedVersion record
    if record.upstream = "pinned-release" ∧ tag ≠ record.ref then (false, host)
    else if !startsWith url ("https://github.com/" ++ record.repo ++ "/releases/download/") then
      (false, host)
    else if host.executable record = true ∧ (current = tag ∨ current = normalized) then (true, host)
    else if record.upstream = "pinned-release" ∧ current ≠ "unknown" ∧
        (compareReleaseVersions current tag).toOption = some .gt ∧ allowDowngrade = false then
      (true, host)
    else
      match attempt.fetched with
      | none => (false, host)
      | some download =>
        if record.driver ≠ "release" ∨ record.root ≠ "cores" then (false, host)
        else
          let previous := host.placeOf record
          let (restored, host) := restoreServiceState
            (runCoreInstaller host record normalized download attempt) record.service attempt
          if restored then (true, host.remember record.id tag)
          else (false, rollbackSymlink host record previous attempt)

def updateModule (host : ModuleHost) (id : String) (allowDowngrade : Bool) (attempt : Attempt) :
    Bool × ModuleHost :=
  match loadModule host.active id with
  | none => (false, host)
  | some record =>
    if record.upstream ≠ "release" ∧ record.upstream ≠ "pinned-release" then (false, host)
    else installReleaseModule host record allowDowngrade attempt

/-- What becomes of a request. -/
inductive Outcome
  | done
  | failed
  | rejected
  | blocked
  | discarded
  | skipped
deriving DecidableEq

def safeRequestFile (owner : ℕ) (file : RequestFile) : Bool :=
  file.kind = .regular && file.owner = owner && file.size ≤ 4096 && file.mode &&& 0o22 = 0

def Request.named (stem : String) (action : RuntimeLifecycleAction) (request : Request) : Bool :=
  request.stem = stem && request.action = action

def ModuleHost.requestFile (host : ModuleHost) (stem : String) (action : RuntimeLifecycleAction) :
    Option RequestFile :=
  (host.requests.files.find? (Request.named stem action)).map (·.file)

def ModuleHost.safeRequest (host : ModuleHost) (stem : String) (action : RuntimeLifecycleAction) :
    Bool :=
  (host.requestFile stem action).any (safeRequestFile host.requestOwner)

def ModuleHost.without (host : ModuleHost) (stem : String) (action : RuntimeLifecycleAction) :
    ModuleHost :=
  { host with requests := host.requests.keep fun request ↦ !request.named stem action }

/-- `rm -f "${request}.failed"`, which leaves a directory where it is. -/
def ModuleHost.clearAside (host : ModuleHost) (stem : String) (action : RuntimeLifecycleAction) :
    ModuleHost :=
  match host.aside stem action with
  | .directory none _ => host
  | _ =>
    let cleared := Function.update (host.aside stem) action .free
    { host with aside := Function.update host.aside stem cleared }

/-- `rm -f "$request" "${request}.failed"`. -/
def ModuleHost.settle (host : ModuleHost) (stem : String) (action : RuntimeLifecycleAction) :
    ModuleHost :=
  (host.without stem action).clearAside stem action

/-- `mv -f "$request" "${request}.failed"`. -/
def ModuleHost.setAside (host : ModuleHost) (stem : String) (action : RuntimeLifecycleAction) :
    ModuleHost :=
  match host.aside stem action with
  | .free => host.without stem action
  | .directory _ true => host
  | .directory none false => host.without stem action
  | .directory (some target) false => (host.without stem action).act [.moveInto target stem action]

/-- `rm -f` leaves a directory where it is. -/
def ModuleHost.discard (host : ModuleHost) (stem : String) (action : RuntimeLifecycleAction) :
    ModuleHost :=
  { host with requests := host.requests.keep fun request ↦
      !(request.named stem action && request.file.kind ≠ .directory) }

def ModuleHost.registrable (host : ModuleHost) (id : String) : Option ManifestFile :=
  if !moduleIsRetired id && matchesModuleId id && (lookup host.active id).isNone then
    (lookup host.available id).filter fun source ↦ (readManifest source).isOk
  else none

/-- One turn of the loop of `register_requested`; without a result the worker has given up. -/
def registerOne (host : ModuleHost) (id : String) (attempt : Attempt) :
    Option (Outcome × ModuleHost) :=
  if !host.safeRequest id .install then some (.discarded, host.discard id .install)
  else
    match host.registrable id with
    | none => some (.rejected, host.setAside id .install)
    | some source =>
      let host := { host with active := place host.active source }.clearAside id .install
      if (loadModule host.active id).isNone then none
      else
        match updateModule host id true attempt with
        | (true, host) => some (.done, host.without id .install)
        | (false, host) =>
          some (.failed, { host with active := drop host.active id }.setAside id .install)

def activeCoreIdsKey : List Char := "\"active_core_ids\"".toList

/-- What follows a member of the name `active_core_ids` up to the end of its list. -/
def coreListOf (text : List Char) : Option (List Char) := do
  let rest ← text.dropPrefix? activeCoreIdsKey
  let rest ← (rest.dropWhile isSpace).dropPrefix? [':']
  let rest ← (rest.dropWhile isSpace).dropPrefix? ['[']
  return rest.takeWhile (· ≠ ']')

/-- The pattern `"active_core_ids"[[:space:]]*:[[:space:]]*\[[^]]*"id"`, in some line. -/
def namesActiveCore (id text : String) : Bool :=
  (fileLines text).any fun line ↦ line.toList.tails.any fun rest ↦
    (coreListOf rest).any (containsList ("\"" ++ id ++ "\"").toList)

def ModuleHost.inUse (host : ModuleHost) (id : String) : Bool :=
  host.applied.any (namesActiveCore id)

def ModuleHost.removed (host : ModuleHost) (record : Record) (file : ManifestFile) : ModuleHost :=
  { host with
    active := drop host.active record.id
    available :=
      if moduleIsRetired record.id then drop host.available record.id
      else if (lookup host.available record.id).isNone then place host.available file
      else host.available
    places := Function.update host.places (runtimeRoot record) .absent
    remembered := Function.update host.remembered record.id none
    states := Function.update host.states record.id none
    acts := host.acts ++ [.service "disable --now" record.service, .erase (runtimeRoot record)] }

def removeOne (host : ModuleHost) (id : String) : Outcome × ModuleHost :=
  if !host.safeRequest id .remove then (.discarded, host.discard id .remove)
  else
    match loadModule host.active id, lookup host.active id with
    | some record, some file =>
      if host.inUse id then (.blocked, host.setAside id .remove)
      else (.done, (host.removed record file).settle id .remove)
    | _, _ => (.rejected, host.setAside id .remove)

/-- One turn of the loop of `lifecycle_requested`. -/
def lifecycleOne (host : ModuleHost) (action : RuntimeLifecycleAction) (id : String)
    (obeyed : Bool) : Outcome × ModuleHost :=
  if !host.safeRequest id action then (.discarded, host.discard id action)
  else if moduleIsRetired id then (.rejected, host.setAside id action)
  else
    match loadModule host.active id with
    | none => (.rejected, host.setAside id action)
    | some record =>
      if !host.executable record then (.rejected, host.setAside id action)
      else
        let host := host.act [.service action.requestSuffix record.service]
        if obeyed then (.done, host.settle id action) else (.failed, host.setAside id action)

/-- `-f`, which follows links. -/
def RequestFile.isFile (file : RequestFile) : Bool :=
  file.kind = .regular || file.kind = .link true

/-- One turn of the loop of `run_requested`, which goes through the modules. -/
def runOne (host : ModuleHost) (id : String) (attempt : Attempt) : Outcome × ModuleHost :=
  if !(host.requestFile id .update).any (·.isFile) then (.skipped, host)
  else if moduleIsRetired id then (.rejected, host.setAside id .update)
  else if !host.safeRequest id .update then (.discarded, host.discard id .update)
  else
    match updateModule host id true attempt with
    | (true, host) => (.done, host.settle id .update)
    | (false, host) => (.failed, host.setAside id .update)

/-- One turn of the loop of `run_automatic`, once that is due. -/
def automaticOne (host : ModuleHost) (id : String) (attempt : Attempt) : Outcome × ModuleHost :=
  if moduleIsRetired id then (.skipped, host)
  else if stateValue (host.states id) "AUTO_ENABLED" = "true" ∧
      stateValue (host.states id) "INSTALLED" = "true" then
    match updateModule host id false attempt with
    | (true, host) => (.done, host)
    | (false, host) => (.failed, host)
  else (.skipped, host)

def moduleIds (host : ModuleHost) : List String :=
  match loadRegistry host.active with
  | .ok specs => specs.map (·.id)
  | .error _ => []

/-- What stands at the path of the directory of requests. -/
inductive RequestPath
  | missing
  | directory (owner mode : ℕ)
  /-- A link, or no directory. -/
  | other
deriving DecidableEq

/-- `prepare_request_dir`; without a result the worker dies. -/
def prepareRequestDir (host : ModuleHost) : RequestPath → Option ModuleHost
  | .missing =>
    some { host with requests := noRequests, requestOwner := host.appUser }
  | .directory owner mode =>
    if owner = host.appUser ∧ mode &&& 0o22 = 0 then some { host with requestOwner := owner } else none
  | .other => none

/-- The start of `main`, with the directory of requests as it is found. -/
def begin (host : ModuleHost) (found : RequestPath) : Option ModuleHost := do
  let host ← prepareRequestDir host found
  if (loadRegistry host.active).isOk then some host else none

end StealthHub.Updater

import StealthHub.Manager.Operation
import StealthHub.Modules.PipeProtocol

set_option autoImplicit false

namespace StealthHub.Manager

open Text Modules

/-- A file of the directory of manifests, `trusted` where it is a regular file of root that nobody
else may write and no larger than a manifest may be. -/
structure ManifestFile where
  stem : String
  trusted : Bool
  content : String
deriving DecidableEq

/-- The files of the directory whose names end in `.module`. -/
structure ModuleDirectory where
  files : List ManifestFile
  distinct : (files.map (·.stem)).Nodup

def ManifestFile.path (file : ManifestFile) : ManifestPath where
  display := "/etc/infiproxy-modules.d/" ++ file.stem ++ ".module"
  fileStem := some file.stem

/-- `read_manifest`, of a file that root owns. -/
def readManifest (file : ManifestFile) : Except String ModuleSpec :=
  if file.trusted then parseManifest file.content file.path false
  else .error "manifest must be a regular file no larger than 16 KiB"

def addSpec (specs : List ModuleSpec) (file : ManifestFile) : Except String (List ModuleSpec) := do
  let spec ← readManifest file
  if specs.any (·.id = spec.id) then throw ("duplicate module id: " ++ spec.id)
  else return specs ++ [spec]

def loadRegistry (directory : ModuleDirectory) : Except String (List ModuleSpec) := do
  let paths := directory.files.mergeSort fun a b ↦ a.path.display ≤ b.path.display
  let specs ← paths.foldlM addSpec []
  return specs.mergeSort fun a b ↦ a.id ≤ b.id

def manifestRecord (directory : ModuleDirectory) (id : String) : Option String :=
  ((directory.files.find? (·.stem = id)).bind fun file ↦ (readManifest file).toOption).map pipeRecord

def recordService (record : String) : Option String := (split '|' record)[10]?

/-- The pattern `^[a-z][a-z0-9-]{0,31}$`. -/
def matchesModuleId (id : String) : Bool :=
  match id.toList with
  | [] => false
  | first :: rest =>
    isAsciiLowercase first && rest.length ≤ 31 &&
      rest.all fun c ↦ isAsciiLowercase c || isAsciiDigit c || c == '-'

def managerModuleService (directory : ModuleDirectory) (id : String) : Option String :=
  if matchesModuleId id then (manifestRecord directory id).bind recordService else none

def registeredServices (directory : ModuleDirectory) : List String :=
  match loadRegistry directory with
  | .error _ => []
  | .ok specs => specs.filterMap fun spec ↦ (manifestRecord directory spec.id).bind recordService

def fixedServices : List String :=
  ["infiproxy.service", "infiproxy-reconcile.service", "infiproxy-panel-update.service",
    "infiproxy-module-update.service", "nginx.service", "ssh.service"]

/-- What the manager lists of the registry; its form for a module offers what is listed. -/
def collectModules (directory : ModuleDirectory) : List String × List String :=
  match loadRegistry directory with
  | .error _ => ([], fixedServices)
  | .ok specs =>
    ((specs.take 64).map (·.id), fixedServices ++ (specs.take 64).map (·.service))

def managerKnownService (directory : ModuleDirectory) (service : String) : Bool :=
  service ∈ fixedServices || service ∈ registeredServices directory

/-- The pattern `^[A-Za-z0-9._-]{1,128}$`, but for the two names of directories. -/
def validSecretReference (s : String) : Bool :=
  (1 ≤ s.toList.length && s.toList.length ≤ 128 &&
    s.toList.all fun c ↦ isAsciiAlphanumeric c || c == '.' || c == '_' || c == '-') &&
    s != "." && s != ".."

/-- The pattern `[A-Za-z0-9]([A-Za-z0-9-]{0,61}[A-Za-z0-9])?`. -/
def isDomainLabel (label : String) : Bool :=
  1 ≤ label.toList.length && label.toList.length ≤ 63 &&
    label.toList.all (fun c ↦ isAsciiAlphanumeric c || c == '-') &&
    label.toList.head?.any isAsciiAlphanumeric && label.toList.getLast?.any isAsciiAlphanumeric

def validDomain (s : String) : Bool :=
  2 ≤ (split '.' s).length && (split '.' s).all isDomainLabel

def isOctet (s : String) : Bool :=
  1 ≤ s.toList.length && s.toList.length ≤ 3 && s.toList.all isAsciiDigit &&
    s.toList.foldl (fun n c ↦ 10 * n + (c.toNat - 48)) 0 ≤ 255

def validIpv4 (s : String) : Bool := (split '.' s).length = 4 && (split '.' s).all isOctet

def isAsciiLetter (c : Char) : Bool := isAsciiLowercase c || isAsciiUppercase c

/-- The pattern `^[A-Za-z0-9._%+-]+@[A-Za-z0-9.-]+\.[A-Za-z]{2,}$`. -/
def matchesEmail (s : String) : Bool :=
  match splitOnce '@' s with
  | none => false
  | some (local', domain) =>
    match rsplitOnce '.' domain with
    | none => false
    | some (name, top) =>
      !isEmpty local' && local'.toList.all (fun c ↦ isAsciiAlphanumeric c || c == '.' || c == '_' ||
          c == '%' || c == '+' || c == '-') &&
        !isEmpty name && name.toList.all (fun c ↦ isAsciiAlphanumeric c || c == '.' || c == '-') &&
        2 ≤ top.toList.length && top.toList.all isAsciiLetter

def validCloudflareToken (s : String) : Bool :=
  20 ≤ s.toList.length && s.toList.length ≤ 200 &&
    s.toList.all fun c ↦ isAsciiAlphanumeric c || c == '_' || c == '-'

/-- The `read` of the shell: a line, where a newline ends it. -/
def readLine (stdin : Option String) : Option String :=
  stdin.bind fun text ↦ (splitOnce '\n' text).map Prod.fst

/-- What the helper does once its checks have passed. -/
inductive Effect
  | run (operation : String)
  | journal (service : String)
  | onModule (operation id service : String)
  | storeSecret (reference value : String)
  | onSecret (operation reference : String)
  | https (token zone host email ip : String)
  | removal (operation mode : String)
deriving DecidableEq

def removalMode (mode : String) : Bool := mode = "panel" || mode = "full" || mode = "factory"

def bare (operation : String) (args : List String) : Option Effect :=
  if args = [] then some (.run operation) else none

def confirmed (operation word : String) (args : List String) : Option Effect :=
  if args = [word] then some (.run operation) else none

def onModule (directory : ModuleDirectory) (operation : String) (words args : List String) :
    Option Effect :=
  match args with
  | [id, word] =>
    if word ∈ words then (managerModuleService directory id).map (.onModule operation id) else none
  | _ => none

def storePrivilegedSecret (stdin : Option String) (reference : String) : Option Effect :=
  (readLine stdin).bind fun value ↦
    if isEmpty value || 8192 < len value then none else some (.storeSecret reference value)

def httpsSetup (stdin : Option String) (args : List String) : Option Effect :=
  match args with
  | [zone, host, email, ip, word] =>
    if word = "HTTPS" && validDomain zone && validDomain host && validIpv4 ip &&
        (host = zone || endsWith host ("." ++ zone)) && matchesEmail email then
      (readLine stdin).bind fun token ↦
        if validCloudflareToken token then some (.https token zone host email ip) else none
    else none
  | _ => none

def managerOperation (directory : ModuleDirectory) (stdin : Option String) (operation : String)
    (args : List String) : Option Effect :=
  match operation with
  | "diagnostics" | "failed-units" | "disk" | "listeners" | "update-check" => bare operation args
  | "logs" =>
    match args with
    | [service] => if managerKnownService directory service then some (.journal service) else none
    | _ => none
  | "update-apply" | "update-timer" => confirmed operation "APPLY" args
  | "module-check" =>
    match args with
    | [id] => (managerModuleService directory id).map (.onModule operation id)
    | _ => none
  | "module-update" => onModule directory operation ["APPLY", "INSTALL"] args
  | "module-start" | "module-restart" => onModule directory operation ["APPLY"] args
  | "module-stop" => onModule directory operation ["STOP"] args
  | "module-remove" => onModule directory operation ["REMOVE"] args
  | "reconcile" | "panel-restart" | "nginx-reload" | "ssh-reload" | "modules-restart" =>
    confirmed operation "APPLY" args
  | "secret-store" =>
    match args with
    | [reference, word] =>
      if word = "STORE" && validSecretReference reference then storePrivilegedSecret stdin reference
      else none
    | _ => none
  | "secret-delete" =>
    match args with
    | [reference, word] =>
      if word = "DELETE" && validSecretReference reference then some (.onSecret operation reference)
      else none
    | _ => none
  | "secret-adopt" =>
    match args with
    | [reference, word] =>
      if word = "ADOPT" && validSecretReference reference then some (.onSecret operation reference)
      else none
    | _ => none
  | "https-deps" => confirmed operation "INSTALL" args
  | "https-setup" => httpsSetup stdin args
  | "https-renew" => confirmed operation "RENEW" args
  | "repair" => confirmed operation "INSTALL" args
  | "uninstall-preview" =>
    match args with
    | [mode] => if removalMode mode then some (.removal operation mode) else none
    | _ => none
  | "uninstall" =>
    match args with
    | [mode, word] =>
      if word = "DELETE INFIPROXY" && removalMode mode then some (.removal operation mode) else none
    | _ => none
  | "reboot" => confirmed operation "REBOOT" args
  | _ => none

/-- The entry of the helper: an operation and its arguments behind `--operation`. -/
def managerMain (directory : ModuleDirectory) (invocation : Invocation) : Option Effect :=
  match invocation.args with
  | "--operation" :: operation :: args => managerOperation directory invocation.stdin operation args
  | _ => none

end StealthHub.Manager

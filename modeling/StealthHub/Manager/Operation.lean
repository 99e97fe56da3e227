import StealthHub.Data.OrderedMap
import StealthHub.Data.Result
import StealthHub.Data.Text

set_option autoImplicit false

namespace StealthHub.Manager

open Text

/-- What the manager shows of the node; a refresh replaces it as a whole. -/
structure Snapshot where
  sections : OrderedMap String String
  modules : List String
  services : List String
  routingPaths : List String
  profileDetails : List String

structure Field where
  label : String
  secret : Bool
  choices : List String
deriving DecidableEq

structure Action where
  label : String
  verb : String
  fields : List Field
  confirmation : Option String
  sensitive : Bool
deriving DecidableEq

/-- Why a form is not carried out. -/
inductive Fault
  | refused (message : String)
  /-- An index behind the end of a list. -/
  | panicked
deriving DecidableEq

def field (label : String) : Field := ⟨label, false, []⟩

def choice (label : String) (values : List String) : Field := ⟨label, false, values⟩

def secretField (label : String) : Field := ⟨label, true, []⟩

def moduleField (snapshot : Snapshot) : Field := choice "Registered module" snapshot.modules

def removalModes : List String := ["panel", "full", "factory"]

def httpsFields : List Field :=
  [field "Cloudflare zone", field "Panel hostname", field "ACME email", field "Public IPv4",
    secretField "Cloudflare API credential"]

def actions (screen : String) (snapshot : Snapshot) : List Action :=
  let module := moduleField snapshot
  match screen with
  | "Health" => [⟨"Run reconciliation", "reconcile", [], some "APPLY", false⟩]
  | "System" =>
    [⟨"Restart panel", "panel-restart", [], some "APPLY", false⟩,
      ⟨"Validate / reload nginx", "nginx-reload", [], some "APPLY", false⟩,
      ⟨"Validate / reload SSH", "ssh-reload", [], some "APPLY", false⟩,
      ⟨"Restart enabled runtimes", "modules-restart", [], some "APPLY", false⟩]
  | "Runtimes" =>
    [⟨"Check module release", "module-check", [module], none, false⟩,
      ⟨"Install / update verified module", "module-update", [module], some "APPLY", false⟩,
      ⟨"Start runtime", "module-start", [module], some "APPLY", false⟩,
      ⟨"Stop runtime", "module-stop", [module], some "STOP", false⟩,
      ⟨"Restart runtime", "module-restart", [module], some "APPLY", false⟩,
      ⟨"Remove runtime registration", "module-remove", [module], some "REMOVE", false⟩]
  | "Updates" =>
    [⟨"Check pinned GitHub source", "update-check", [], none, false⟩,
      ⟨"Request update now", "update-apply", [], some "APPLY", false⟩,
      ⟨"Enable timer and path watcher", "update-timer", [], some "APPLY", false⟩]
  | "Logs" =>
    [⟨"Read service journal (120 lines)", "logs", [choice "Service" snapshot.services], none,
      false⟩]
  | "Diagnostics" =>
    [⟨"Failed systemd units", "failed-units", [], none, false⟩,
      ⟨"Disk capacity", "disk", [], none, false⟩,
      ⟨"Listener inventory", "listeners", [], none, false⟩,
      ⟨"Database / reconciliation checks", "diagnostics", [], none, false⟩]
  | "Secrets" =>
    [⟨"Store / rotate root-only reference", "secret-store",
      [field "Reference name", secretField "Secret value"], some "STORE", true⟩,
      ⟨"Delete root-only reference", "secret-delete", [field "Reference name"], some "DELETE",
        true⟩,
      ⟨"Adopt legacy server reference", "secret-adopt", [field "Reference name"], some "ADOPT",
        true⟩]
  | "HTTPS" =>
    [⟨"Install HTTPS dependencies", "https-deps", [], some "INSTALL", false⟩,
      ⟨"Configure DNS + certificate + HTTPS", "https-setup", httpsFields, some "HTTPS", true⟩,
      ⟨"Renew existing certificates", "https-renew", [], some "RENEW", true⟩]
  | "Deployment" =>
    [⟨"1. Inspect deployment readiness", "diagnostics", [], none, false⟩,
      ⟨"2. Install / repair panel (preserve env)", "repair", [], some "INSTALL", true⟩,
      ⟨"3. Configure DNS + HTTPS", "https-setup", httpsFields, some "HTTPS", true⟩,
      ⟨"4. Install a verified runtime", "module-update", [module], some "INSTALL", false⟩,
      ⟨"5. Verify services and panel", "diagnostics", [], none, false⟩]
  | "Danger" =>
    [⟨"Preview panel-only removal", "uninstall-preview", [choice "Mode" removalModes], none,
      false⟩,
      ⟨"Remove Infiproxy footprint", "uninstall", [choice "Mode" removalModes],
        some "DELETE INFIPROXY", false⟩,
      ⟨"Reboot server", "reboot", [], some "REBOOT", false⟩]
  | _ => []

def Field.bound (field : Field) : ℕ := if field.secret then 8192 else 256

def checkValue (value : String) (field : Field) : Except Fault Unit :=
  if isEmpty value || field.bound < len value then
    .error (.refused (field.label ++ " is required and must be bounded"))
  else if !value.toList.all (!isControl ·) then
    .error (.refused "Control characters are forbidden")
  else if !field.choices.isEmpty && !field.choices.contains value then
    .error (.refused ("Select a registered value for " ++ field.label))
  else .ok ()

def isModuleId (s : String) : Bool :=
  !isEmpty s && len s ≤ 32 &&
    s.toList.all fun c ↦ isAsciiLowercase c || isAsciiDigit c || c == '-'

def isSecretReference (value : String) : Bool :=
  len value ≤ 128 && value != "." && value != ".." &&
    value.toList.all fun c ↦ isAsciiAlphanumeric c || c == '.' || c == '_' || c == '-'

def checkModule (action : Action) (values : List String) : Except Fault Unit :=
  if startsWith action.verb "module-" && !values.head?.any isModuleId then
    .error (.refused "Invalid module ID")
  else .ok ()

def checkSecret (action : Action) (values : List String) : Except Fault Unit :=
  if startsWith action.verb "secret-" then
    match values with
    | [] => .error .panicked
    | value :: _ =>
      if isSecretReference value then .ok () else .error (.refused "Invalid secret reference")
  else .ok ()

def validate (action : Action) (values : List String) : Except Fault Unit := do
  if values.length ≠ action.fields.length then throw (.refused "Missing operation fields")
  else
    (values.zip action.fields).forM fun entry ↦ checkValue entry.1 entry.2
    checkModule action values
    checkSecret action values

/-- A process that the manager starts. -/
structure Invocation where
  args : List String
  stdin : Option String
  /-- In seconds. -/
  timeout : ℕ
  sensitive : Bool
deriving DecidableEq

def Invocation.give (invocation : Invocation) (entry : String × Field) : Invocation :=
  if entry.2.secret then { invocation with stdin := some (entry.1 ++ "\n") }
  else { invocation with args := invocation.args ++ [entry.1] }

def Invocation.confirm (invocation : Invocation) : Option String → Invocation
  | none => invocation
  | some confirmation => { invocation with args := invocation.args ++ [confirmation] }

def Action.timeout (action : Action) : ℕ :=
  if action.verb ∈ ["repair", "module-update", "https-setup", "https-deps", "https-renew"] then 3600
  else 60

def Action.invocation (action : Action) (values : List String) : Invocation :=
  ((values.zip action.fields).foldl Invocation.give
    ⟨["--operation", action.verb], none, action.timeout, action.sensitive⟩).confirm
      action.confirmation

def panelUrl (action : Action) (values : List String) : Except Fault (Option String) :=
  if action.verb = "https-setup" then
    (values[1]?).elim (.error .panicked) fun host ↦ .ok (some ("https://" ++ host ++ "/admin/setup"))
  else .ok none

def prepare (action : Action) (values : List String) :
    Except Fault (Invocation × Option String) := do
  validate action values
  let url ← panelUrl action values
  return (action.invocation values, url)

/-- What the helper prints, or why it failed, as `run` tells. -/
def execute (run : Invocation → Except String String) (action : Action) (values : List String) :
    Except Fault String := do
  let (invocation, url) ← prepare action values
  match run invocation with
  | .error message => throw (.refused message)
  | .ok result =>
    return result ++ url.elim "" fun url ↦ "\nPanel HTTPS configured: " ++ url

end StealthHub.Manager

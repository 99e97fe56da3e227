import Mathlib.Logic.Function.Basic
import Mathlib.Logic.Relation
import StealthHub.Adapters.Emitted
import StealthHub.Effect.Crash

set_option autoImplicit false

namespace StealthHub.Adapters

open Effect Effect.Program

abbrev Bytes := List UInt8

def maxNginxSiteBytes : ℕ := 1024 * 1024

/-- The paths that an adapter owns. -/
inductive Slot
  | config
  | site
  | enabled
  deriving DecidableEq

inductive SlotFile
  | file (content : Bytes)
  | link (target : Bytes)
  | directory

inductive FileType
  | file
  | symlink
  | directory

structure SlotMetadata where
  fileType : FileType
  len : ℕ

def SlotFile.metadata : SlotFile → SlotMetadata
  | .file content => ⟨.file, content.length⟩
  | .link target => ⟨.symlink, target.length⟩
  | .directory => ⟨.directory, 0⟩

inductive IoError
  | notFound
  | other (message : String)

/-- What a new file is filled from: a staged candidate or a file of the snapshot. -/
inductive Source
  | candidate
  | snapshot (name : String)

inductive UnitProperty
  | isEnabled
  | isActive

inductive UnitCommand
  | enable
  | disable
  | disableNow
  | start
  | stop
  | restart
  | reload

inductive FileOp
  | createSnapshotDirectory
  | symlinkMetadata (slot : Slot)
  | isFile (slot : Slot)
  | read (slot : Slot)
  | readLink (slot : Slot)
  | copyToSnapshot (slot : Slot) (name : String)
  | writeSnapshot (name : String) (content : Bytes)
  | snapshotIsFile (name : String)
  | readSource (source : Source)
  | candidateLength
  | createParent (slot : Slot)
  | createTemporary (slot : Slot) (mode : ℕ)
  | writeTemporary (content : Bytes)
  | syncTemporary
  | setPermissions (mode : ℕ)
  | chown
  | rename (slot : Slot)
  | syncParent (slot : Slot)
  | removeTemporary
  | removeFile (slot : Slot)
  | symlink (target : Bytes) (slot : Slot)
  | nginxTest
  | systemctl (command : UnitCommand)
  | systemctlIs (property : UnitProperty)
  | verifyPortSet (required : List (ℕ × Bool))

abbrev FileReply : FileOp → Type
  | .symlinkMetadata _ => Except IoError SlotMetadata
  | .isFile _ | .snapshotIsFile _ => Bool
  | .read _ | .readLink _ | .readSource _ => Except String Bytes
  | .candidateLength => Except String ℕ
  | .removeFile _ => Except IoError Unit
  | .systemctlIs _ => Except String Bool
  | _ => Except String Unit

abbrev FileProgram (α : Type) := Program FileReply String α

namespace FileAdapter

def symlinkMetadata (slot : Slot) : FileProgram (Except IoError SlotMetadata) :=
  request (FileOp.symlinkMetadata slot)

def removeFile (slot : Slot) : FileProgram (Except IoError Unit) :=
  request (FileOp.removeFile slot)

def systemctl (command : UnitCommand) : FileProgram Unit := do
  lift (← request (.systemctl command))

/-- A query that cannot be made reads as `false`. -/
def systemctlIs (property : UnitProperty) : FileProgram Bool := do
  let status ← (request (FileOp.systemctlIs property) : FileProgram (Except String Bool))
  match status with
  | .ok success => pure success
  | .error _ => pure false

def installFile (slot : Slot) (mode : ℕ) (own : FileProgram Unit) (source : Source) :
    FileProgram Unit := do
  lift (← request (.createParent slot))
  let result ← (do
    lift (← request (.createTemporary slot mode))
    let content ← lift (← request (.readSource source))
    lift (← request (.writeTemporary content))
    lift (← request .syncTemporary)
    lift (← request (.setPermissions mode))
    own
    lift (← request (.rename slot))
    lift (← request (.syncParent slot)) : FileProgram Unit).attempt
  match result with
  | .ok () => pure ()
  | .error message => do
    let _ ← request .removeTemporary
    fail message

def atomicInstall (source : Source) : FileProgram Unit :=
  installFile .config 0o640 (do lift (← request .chown)) source

def atomicCopy (source : Source) (slot : Slot) : FileProgram Unit :=
  installFile slot 0o644 (pure ()) source

def readCurrentConfig : FileProgram (Option Bytes) := do
  match ← symlinkMetadata .config with
  | .error .notFound => pure none
  | .error (.other message) => fail message
  | .ok metadata =>
    match metadata.fileType with
    | .file => do
      let content ← lift (← request (.read .config))
      pure (some content)
    | _ => fail "runtime config must be a regular file"

def removeNonDirectory (slot : Slot) : FileProgram Unit := do
  match ← symlinkMetadata slot with
  | .error .notFound => pure ()
  | .error (.other message) => fail message
  | .ok metadata =>
    match metadata.fileType with
    | .directory => fail "refusing to remove a directory through an owned file path"
    | _ => do
      match ← removeFile slot with
      | .ok () => pure ()
      | .error _ => fail "remove owned file"

/-- `snapshot_file`, of the site. -/
def snapshotSite : FileProgram Unit := do
  match ← symlinkMetadata .site with
  | .error .notFound => lift (← request (.writeSnapshot "site.absent" []))
  | .error (.other message) => fail message
  | .ok ⟨.file, len⟩ =>
    if len ≤ maxNginxSiteBytes then lift (← request (.copyToSnapshot .site "site"))
    else fail "owned Nginx site must be a regular file"
  | .ok _ => fail "owned Nginx site must be a regular file"

def isText (bytes : Bytes) : Bool := ByteArray.validateUTF8 ⟨bytes.toArray⟩

def snapshotEnabled : FileProgram Unit := do
  match ← symlinkMetadata .enabled with
  | .error .notFound => lift (← request (.writeSnapshot "enabled.absent" []))
  | .error (.other message) => fail message
  | .ok ⟨.symlink, _⟩ => do
    let target ← lift (← request (.readLink .enabled))
    if !isText target then fail "owned enabled-site symlink is not valid UTF-8"
    else lift (← request (.writeSnapshot "enabled.link" target))
  | .ok ⟨.file, len⟩ =>
    if len ≤ maxNginxSiteBytes then lift (← request (.copyToSnapshot .enabled "enabled.file"))
    else fail "owned enabled-site path has an unsupported file type"
  | .ok _ => fail "owned enabled-site path has an unsupported file type"

/-- `restore_file`, of the site. -/
def restoreSite : FileProgram Unit := do
  if ← request (.snapshotIsFile "site") then atomicCopy (.snapshot "site") .site
  else if ← request (.snapshotIsFile "site.absent") then removeNonDirectory .site
  else fail "owned Nginx snapshot is incomplete"

def restoreEnabled : FileProgram Unit := do
  if ← request (.snapshotIsFile "enabled.link") then
    let target ← lift (← request (.readSource (.snapshot "enabled.link")))
    if !isText target || target.isEmpty || target.contains 0 then
      fail "subscription symlink snapshot is invalid"
    else lift (← request (.symlink target .enabled))
  else if ← request (.snapshotIsFile "enabled.file") then
    atomicCopy (.snapshot "enabled.file") .enabled
  else if ← request (.snapshotIsFile "enabled.absent") then pure ()
  else fail "subscription enabled-site snapshot is incomplete"

def restoreOwnedFiles : FileProgram Unit := do
  restoreSite
  removeNonDirectory .enabled
  restoreEnabled

def validateRestoredNginxSite : FileProgram Unit := do
  if ← request (.isFile .site) then lift (← request .nginxTest) else pure ()

def restoreServiceState (snapshot : CoreSnapshot) : FileProgram Unit := do
  systemctl (if snapshot.serviceWasEnabled then .enable else .disable)
  if snapshot.serviceWasActive then
    systemctl .restart
    if ← systemctlIs .isActive then pure () else fail "restored service is not active"
  else systemctl .stop

def sitePath : Bytes := "/etc/nginx/sites-available/infiproxy-subscription.conf".toUTF8.toList

def installEnabledLink : FileProgram Unit := do
  match ← symlinkMetadata .enabled with
  | .error _ => pure ()
  | .ok ⟨.directory, _⟩ => fail "subscription enabled-site path is a directory"
  | .ok _ => do
    match ← removeFile .enabled with
    | .ok () => pure ()
    | .error _ => fail "remove enabled site"
  lift (← request (.symlink sitePath .enabled))

end FileAdapter

/-- The adapters that own files. `parse` reads the document of a runtime configuration. -/
inductive FileAdapter
  | managed (flavor : Flavor) (parse : Bytes → Except String Value)
  | frontend

namespace FileAdapter

def owned : FileAdapter → List Slot
  | .managed _ _ => [.config]
  | .frontend => [.site, .enabled]

def snapshotConfig (transactionDir : Path) : FileAdapter → FileProgram CoreSnapshot
  | .managed _ _ => do
    lift (← request .createSnapshotDirectory)
    match ← readCurrentConfig with
    | some config => lift (← request (.writeSnapshot "config" config))
    | none => lift (← request (.writeSnapshot "config.absent" []))
    let enabled ← systemctlIs .isEnabled
    let active ← systemctlIs .isActive
    pure ⟨transactionDir ++ ["snapshot"], enabled, active⟩
  | .frontend => do
    lift (← request .createSnapshotDirectory)
    snapshotSite
    snapshotEnabled
    let enabled ← systemctlIs .isEnabled
    let active ← systemctlIs .isActive
    pure ⟨transactionDir ++ ["snapshot"], enabled, active⟩

def installConfig : FileAdapter → FileProgram Unit
  | .managed _ _ => atomicInstall .candidate
  | .frontend => do
    if (← lift (← request .candidateLength)) = 0 then
      removeNonDirectory .enabled
      removeNonDirectory .site
    else
      atomicCopy .candidate .site
      lift (← request (.createParent .enabled))
      installEnabledLink

def activateConfig (plan : CorePlan) : FileAdapter → FileProgram Unit
  | .managed _ _ =>
    if plan.fragments.isEmpty then systemctl .disableNow
    else do
      systemctl .enable
      systemctl .restart
  | .frontend => do
    systemctl .enable
    if ← systemctlIs .isActive then systemctl .reload else systemctl .start

def verifyRestored (flavor : Flavor) (parse : Bytes → Except String Value) : FileProgram Unit := do
  match ← readCurrentConfig with
  | none => fail "active runtime snapshot has no restored config"
  | some restored => do
    let document ← lift (parse restored)
    lift (← request (.verifyPortSet (discoverConfigPorts flavor document)))

def restoreConfig : FileProgram Unit := do
  if ← request (.snapshotIsFile "config") then atomicInstall (.snapshot "config")
  else if ← request (.snapshotIsFile "config.absent") then
    match ← removeFile .config with
    | .ok () | .error .notFound => pure ()
    | .error (.other message) => fail message
  else fail "snapshot configuration is incomplete"

def rollbackConfig (snapshot : CoreSnapshot) : FileAdapter → FileProgram Unit
  | .managed flavor parse => do
    restoreConfig
    systemctl (if snapshot.serviceWasEnabled then .enable else .disable)
    if snapshot.serviceWasActive then
      systemctl .restart
      if ← systemctlIs .isActive then verifyRestored flavor parse
      else fail "restored runtime is not healthy"
    else systemctl .stop
  | .frontend => do
    restoreOwnedFiles
    validateRestoredNginxSite
    restoreServiceState snapshot

end FileAdapter

/-- The files that an adapter owns, its service, and the directory of its snapshot. -/
structure AdapterHost where
  file : Slot → Option SlotFile
  enabled : Bool
  active : Bool
  snapshot : String → Option Bytes
  temporary : Option Bytes

namespace AdapterHost

def put (s : AdapterHost) (slot : Slot) (file : Option SlotFile) : AdapterHost :=
  { s with file := Function.update s.file slot file }

def save (s : AdapterHost) (name : String) (content : Option Bytes) : AdapterHost :=
  { s with snapshot := Function.update s.snapshot name content }

def withTemporary (s : AdapterHost) (content : Option Bytes) : AdapterHost :=
  { s with temporary := content }

def withService (s : AdapterHost) (enabled active : Bool) : AdapterHost :=
  { s with enabled, active }

def flag (s : AdapterHost) : UnitProperty → Bool
  | .isEnabled => s.enabled
  | .isActive => s.active

def command (s : AdapterHost) : UnitCommand → AdapterHost
  | .enable => s.withService true s.active
  | .disable => s.withService false s.active
  | .disableNow => s.withService false false
  | .start | .restart => s.withService s.enabled true
  | .stop => s.withService s.enabled false
  | .reload => s

/-- Every step may fail. A link is read as what it leads to. A query of `answers` says how the
service is, another one cannot be made. -/
def step (answers : UnitProperty → Bool) (s : AdapterHost) :
    (op : FileOp) → FileReply op → AdapterHost → Prop
  | .symlinkMetadata slot, .ok metadata, t =>
    t = s ∧ (s.file slot).map SlotFile.metadata = some metadata
  | .symlinkMetadata slot, .error .notFound, t => t = s ∧ s.file slot = none
  | .read slot, reply, t =>
    t = s ∧ ∀ content own, reply = .ok content → s.file slot = some (.file own) → content = own
  | .readLink slot, reply, t =>
    t = s ∧ ∀ target, reply = .ok target → s.file slot = some (.link target)
  | .copyToSnapshot slot name, .ok (), t => ∃ content, t = s.save name (some content) ∧
    ∀ own, s.file slot = some (.file own) → content = own
  | .copyToSnapshot _ name, .error _, t => t = s ∨ ∃ content, t = s.save name content
  | .writeSnapshot name _, .error _, t => ∃ content, t = s.save name content
  | .writeSnapshot name content, .ok (), t => t = s.save name (some content)
  | .snapshotIsFile name, reply, t => t = s ∧ (reply = true → (s.snapshot name).isSome)
  | .readSource (.snapshot name), reply, t =>
    t = s ∧ ∀ content, reply = .ok content → s.snapshot name = some content
  | .createTemporary _ _, .ok (), t => t = s.withTemporary (some [])
  | .writeTemporary content, .ok (), t => ∃ before, s.temporary = some before ∧
    t = s.withTemporary (some (before ++ content))
  | .writeTemporary _, .error _, t => ∃ content, t = s.withTemporary content
  | .rename slot, .ok (), t => ∃ content, s.temporary = some content ∧
    t = (s.put slot (some (.file content))).withTemporary none
  | .removeTemporary, _, t => ∃ content, t = s.withTemporary content
  | .removeFile slot, .ok (), t => (s.file slot).isSome ∧ t = s.put slot none
  | .removeFile slot, .error .notFound, t => s.file slot = none ∧ t = s
  | .symlink target slot, .ok (), t => s.file slot = none ∧ t = s.put slot (some (.link target))
  | .systemctl command, .ok (), t => t = s.command command
  | .systemctl _, .error _, t => ∃ enabled active, t = s.withService enabled active
  | .systemctlIs property, reply, t =>
    t = s ∧ (reply = .ok true ↔ s.flag property = true ∧ answers property = true)
  | _, _, t => t = s

/-- A step at a time when any query may fail. -/
def anyStep (s : AdapterHost) (op : FileOp) (reply : FileReply op) (t : AdapterHost) : Prop :=
  ∃ answers, step answers s op reply t

end AdapterHost

def FileOp.WritesSnapshot : FileOp → Prop
  | .copyToSnapshot _ _ | .writeSnapshot _ _ => True
  | _ => False

variable {s t u : AdapterHost} {op : FileOp} {reply : FileReply op}
variable {answers : UnitProperty → Bool}

theorem step_snapshot (hop : ¬op.WritesSnapshot) (h : AdapterHost.anyStep s op reply t) :
    t.snapshot = s.snapshot := by
  obtain ⟨answers, h⟩ := h
  cases op with
  | copyToSnapshot slot name => exact absurd trivial hop
  | writeSnapshot name content => exact absurd trivial hop
  | symlinkMetadata slot =>
    rcases reply with (- | message) | metadata
    · exact h.1 ▸ rfl
    · exact (show t = s from h) ▸ rfl
    · exact h.1 ▸ rfl
  | createTemporary slot mode =>
    rcases reply with message | ⟨⟨⟩⟩
    · exact (show t = s from h) ▸ rfl
    · exact (show t = s.withTemporary _ from h) ▸ rfl
  | writeTemporary content =>
    rcases reply with message | ⟨⟨⟩⟩
    · obtain ⟨content, rfl⟩ := h
      rfl
    · obtain ⟨before, -, rfl⟩ := h
      rfl
  | rename slot =>
    rcases reply with message | ⟨⟨⟩⟩
    · exact (show t = s from h) ▸ rfl
    · obtain ⟨content, -, rfl⟩ := h
      rfl
  | removeTemporary =>
    obtain ⟨content, rfl⟩ := h
    rfl
  | removeFile slot =>
    rcases reply with (- | message) | ⟨⟨⟩⟩
    · exact h.2 ▸ rfl
    · exact (show t = s from h) ▸ rfl
    · exact h.2 ▸ rfl
  | symlink target slot =>
    rcases reply with message | ⟨⟨⟩⟩
    · exact (show t = s from h) ▸ rfl
    · exact h.2 ▸ rfl
  | systemctl command =>
    rcases reply with message | ⟨⟨⟩⟩
    · obtain ⟨enabled, active, rfl⟩ := h
      rfl
    · rw [show t = s.command command from h]
      cases command <;> rfl
  | readSource source =>
    cases source with
    | candidate => exact (show t = s from h) ▸ rfl
    | snapshot name => exact h.1 ▸ rfl
  | read | readLink | snapshotIsFile | systemctlIs => exact h.1 ▸ rfl
  | _ => exact (show t = s from h) ▸ rfl

end StealthHub.Adapters

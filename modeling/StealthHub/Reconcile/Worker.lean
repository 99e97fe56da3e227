import Mathlib.Data.Finset.Card
import StealthHub.Effect.Interleave
import StealthHub.Reconcile.Engine

set_option autoImplicit false

namespace StealthHub.Reconcile

open Effect

structure ReconcileRequest where
  apiVersion : ℕ
  generation : ℕ

/-- The row of `reconcile_state`, with its JSON columns as lists. -/
structure ReconcileStateRecord where
  desiredGeneration : ℕ
  appliedGeneration : ℕ
  status : String
  lastOperationId : Option String
  lastError : Option String
  affectedResources : List String
  activeRuntimeIds : List String
  startedAt : Option String
  completedAt : Option String
  deriving DecidableEq

structure ReconcileResultUpdate where
  desiredGeneration : ℕ
  appliedGeneration : ℕ
  status : String
  operationId : String
  affectedResources : List String
  activeRuntimeIds : List String
  error : Option String
  startedAt : Option String
  completedAt : Option String

def statusName : ReconcileStatus → String
  | .pending => "pending"
  | .applying => "applying"
  | .applied => "applied"
  | .failed => "failed"
  | .rolledBack => "rolled-back"
  | .unsupported => "unsupported"
  | .recoveryRequired => "recovery-required"

namespace ReconcileStateRecord

/-- The row that `init_db` inserts. -/
def initial : ReconcileStateRecord where
  desiredGeneration := 0
  appliedGeneration := 0
  status := "applied"
  lastOperationId := none
  lastError := none
  affectedResources := []
  activeRuntimeIds := []
  startedAt := none
  completedAt := none

def bumpDesiredGeneration (row : ReconcileStateRecord) (operationId : String) :
    ReconcileStateRecord :=
  { row with
    desiredGeneration := row.desiredGeneration + 1
    status := "pending"
    lastOperationId := some operationId
    lastError := none
    affectedResources := []
    startedAt := none
    completedAt := none }

def markReconcileResult (row : ReconcileStateRecord) (update : ReconcileResultUpdate) :
    ReconcileStateRecord :=
  if row.desiredGeneration = update.desiredGeneration then
    { row with
      appliedGeneration := update.appliedGeneration
      status := update.status
      lastOperationId := some update.operationId
      lastError := update.error.map fun error ↦ String.ofList (error.toList.take 512)
      affectedResources := update.affectedResources
      activeRuntimeIds := update.activeRuntimeIds
      startedAt := update.startedAt
      completedAt := update.completedAt }
  else row

end ReconcileStateRecord

structure TlsMaterialReadiness where
  ready : Bool
  detail : String

structure RuntimeProbe where
  installed : Option Bool
  active : Option Bool

inductive UserSyncStatus
  | synced
  | pending
  | drifted
  | runtimeUnavailable
  | unsupportedObservation
  | failed
  deriving DecidableEq

structure ProfileUserSyncObservation where
  profileId : String
  runtimeId : String
  status : UserSyncStatus
  desiredCount : ℕ
  observedCount : Option ℕ
  missingCount : Option ℕ
  unexpectedCount : Option ℕ
  checkedAt : String

/-- Everything the worker asks for: the panel's store, the host's TLS material,
the marker file of the desired generation, and what the reconciler asks for. -/
inductive WorkerOp
  | readRequest
  | openPool
  | loadDesiredState
  | publishPrivilegedTlsReadiness
  | privilegedTlsMaterialReadiness (hostname : Option String)
  | migrateAvailableAdapterStates
  | publishDesiredGeneration (generation : ℕ)
  | loadPrivilegedSecrets (desired : DesiredState)
  | markReconcileResult (update : ReconcileResultUpdate)
  | probe (core : String)
  | replaceRuntimeUserSync (observations : List ProfileUserSyncObservation)
  | reconciler (op : Op)

abbrev WorkerReply : WorkerOp → Type
  | .readRequest => Except String (Option ReconcileRequest)
  | .openPool => Except String Unit
  | .loadDesiredState => Except String DesiredState
  | .publishPrivilegedTlsReadiness => Except String Unit
  | .privilegedTlsMaterialReadiness _ => TlsMaterialReadiness
  | .migrateAvailableAdapterStates => Except String Unit
  | .publishDesiredGeneration _ => Except String Unit
  | .loadPrivilegedSecrets _ => Except String (OrderedMap String String)
  | .markReconcileResult _ => Except String Unit
  | .probe _ => RuntimeProbe
  | .replaceRuntimeUserSync _ => Except String Unit
  | .reconciler op => Reply op

abbrev WorkerProgram (α : Type) := Program WorkerReply String α

/-- What the worker and the panel share, and what outlives either of them. -/
structure System (L : Type) where
  store : World L
  row : ReconcileStateRecord
  /-- The content of the file `desired-generation`. -/
  marker : Option ℕ

variable {L : Type}

def System.desiredGenerationIsCurrent (s : System L) (generation : ℕ) : Bool :=
  s.marker.all (· = generation)

/-- The panel commits a change that the runtime has to follow. -/
def Commit (s s' : System L) : Prop :=
  ∃ operationId, s' = { s with row := s.row.bumpDesiredGeneration operationId }

/-- One answered request of the worker. A write that reports an error may or may
not have taken effect. The desired state is read in one transaction, and only its
generation is stored here. -/
def workerStep (active : L → Bool) (s : System L) :
    (op : WorkerOp) → WorkerReply op → System L → Prop
  | .loadDesiredState, .ok desired, s' =>
    desired.generation = s.row.desiredGeneration ∧ s' = s
  | .publishDesiredGeneration generation, .ok (), s' =>
    s' = { s with marker := some generation }
  | .publishDesiredGeneration generation, .error _, s' =>
    s' = s ∨ s' = { s with marker := some generation }
  | .markReconcileResult update, .ok (), s' =>
    s' = { s with row := s.row.markReconcileResult update }
  | .markReconcileResult update, .error _, s' =>
    s' = s ∨ s' = { s with row := s.row.markReconcileResult update }
  | .reconciler (.desiredGenerationIsCurrent generation), .ok current, s' =>
    current = s.desiredGenerationIsCurrent generation ∧ s' = s
  | .reconciler op, r, s' =>
    ∃ store, step active s.store op r store ∧ s' = { s with store := store }
  | _, _, s' => s' = s

def perform {α : Type} (p : Program Reply String α) : WorkerProgram α :=
  p.embed WorkerOp.reconciler fun _ r ↦ r

def demand {α : Type} (p : WorkerProgram (Except String α)) : WorkerProgram α :=
  p.bind Program.lift

def readRequest : WorkerProgram (Option ReconcileRequest) := do
  let request ← demand (Program.request WorkerOp.readRequest)
  if request.any fun request ↦ request.apiVersion ≠ 1 ∨ request.generation = 0 then
    .fail "unsupported reconcile request"
  else pure request

def defaultPanelSettings : PanelSettings where
  panelName := "Infiproxy"
  subscriptionDomain := "sub.infiproxy.local"
  nodeDomain := "node.infiproxy.local"

def panelSettings (settings : OrderedMap String String) : PanelSettings where
  panelName := (settings.get? "panel_name").getD defaultPanelSettings.panelName
  subscriptionDomain :=
    (settings.get? "subscription_domain").getD defaultPanelSettings.subscriptionDomain
  nodeDomain := (settings.get? "node_domain").getD defaultPanelSettings.nodeDomain

def profileRequiresTls (protocolId : String) : Bool :=
  ["hysteria2", "tuic", "any-tls", "anytls-tls", "trojan-tls", "trusttunnel-h2"].contains
    protocolId

def profileTlsHostname (protocolId : String) (config : Value) : Option String :=
  if profileRequiresTls protocolId then
    match config with
    | .object fields =>
      match fields.lookup "sni" with
      | some (.string hostname) => some hostname
      | _ => none
    | _ => none
  else none

def checkTls (profile : ProtocolProfile) : WorkerProgram Unit := do
  let hostname := profileTlsHostname profile.protocolId profile.config
  let readiness ← Program.request (WorkerOp.privilegedTlsMaterialReadiness hostname)
  if readiness.ready then pure ()
  else .fail ("TLS readiness failed for enabled profile `" ++ profile.name ++ "`: " ++
    readiness.detail)

def PrivilegedSecrets.resolve (values : OrderedMap String String) : SecretResolver :=
  fun reference ↦ match values.get? reference with
    | some value => .ok value
    | none => .error "required privileged secret reference is unresolved"

/-- The files name the transaction, the caller names its status. -/
def persistStatus (status : ReconcileStatus) (error : Option String) : WorkerProgram Unit := do
  match ← demand (Program.request (WorkerOp.reconciler .loadJournal)) with
  | none => .fail "reconcile journal is missing"
  | some journal =>
    let applied ← demand (Program.request (WorkerOp.reconciler .loadApplied))
    demand (Program.request (WorkerOp.markReconcileResult
      { desiredGeneration := journal.generation
        appliedGeneration := applied.generation
        status := statusName status
        operationId := journal.operationId
        affectedResources := journal.coreIds
        activeRuntimeIds := applied.activeCoreIds
        error := error
        startedAt := some journal.startedAt
        completedAt := journal.completedAt }))

def applicable (plan : CorePlan) : List (String × ℕ) :=
  plan.fragments.filterMap fun fragment ↦
    fragment.expectedUserIds.map fun users ↦ (fragment.profileId, users.card)

def userSync (observation : Except String UserSyncObservation) (probe : RuntimeProbe) :
    UserSyncStatus × Option ℕ × Option ℕ × Option ℕ :=
  match observation with
  | .ok (.inSync userCount) => (.synced, some userCount, some 0, some 0)
  | .ok (.drift _ observedCount missingCount unexpectedCount) =>
    (.drifted, some observedCount, some missingCount, some unexpectedCount)
  | .ok .unsupported => (.unsupportedObservation, none, none, none)
  | .error _ =>
    if probe.installed = some false ∨ probe.active = some false then
      (.runtimeUnavailable, none, none, none)
    else (.failed, none, none, none)

def observeCore (checkedAt : String) (result : List ProfileUserSyncObservation)
    (entry : String × CoreAdapter × CorePlan) : WorkerProgram (List ProfileUserSyncObservation) :=
  let (runtimeId, core, plan) := entry
  if (applicable plan).isEmpty then pure result
  else do
    let observation ← Program.request (WorkerOp.reconciler (.observeUsers core.manifest.id plan))
    let probe ← Program.request (WorkerOp.probe core.manifest.id)
    let (status, observedCount, missingCount, unexpectedCount) := userSync observation probe
    pure (result ++ (applicable plan).map fun (profileId, desiredCount) ↦
      { profileId, runtimeId, status, desiredCount, observedCount, missingCount,
        unexpectedCount, checkedAt })

def Reconciler.observeUserSync (r : Reconciler) (desired : DesiredState)
    (secrets : SecretResolver) : WorkerProgram (List ProfileUserSyncObservation) := do
  let applied ← demand (Program.request (WorkerOp.reconciler .loadApplied))
  let plans ← perform (r.buildPlans desired secrets applied)
  let checkedAt ← Program.request (WorkerOp.reconciler .now)
  plans.entries.foldlM (observeCore checkedAt) []

/-- The adapters of a release, and where its worker keeps transactions. -/
structure Worker where
  protocolRegistry : Except String ProtocolRegistry
  privilegedCoreRegistry : Except String CoreRegistry
  desiredResources : PanelSettings → List InfrastructureResource
  transactionRoot : Path

namespace Worker

variable (worker : Worker)

def prepare (request : Option ReconcileRequest) (desired : DesiredState) :
    WorkerProgram (DesiredState × Reconciler) :=
  if request.any fun request ↦ desired.generation < request.generation then
    .fail "request generation is newer than durable desired state"
  else do
    let desired := { desired with
      infrastructure := desired.infrastructure ++
        worker.desiredResources (panelSettings desired.settings) }
    let protocols ← Program.lift worker.protocolRegistry
    demand (Program.request WorkerOp.publishPrivilegedTlsReadiness)
    (desired.profiles.filter fun profile ↦
      profile.enabled && profileRequiresTls profile.protocolId).foldlM
        (fun _ profile ↦ checkTls profile) ()
    let cores ← Program.lift worker.privilegedCoreRegistry
    demand (Program.request WorkerOp.migrateAvailableAdapterStates)
    demand (Program.request (WorkerOp.publishDesiredGeneration desired.generation))
    pure (desired, ⟨protocols, cores, worker.transactionRoot⟩)

end Worker

def recoverInterrupted (r : Reconciler) : WorkerProgram Unit := do
  match ← perform r.recover with
  | none => pure ()
  | some recovery => do
    persistStatus recovery.status recovery.message
    if recovery.status = .recoveryRequired then
      .fail "automatic reconcile recovery requires operator attention"
    else pure ()

def applyDesired (r : Reconciler) (desired : DesiredState) (secrets : SecretResolver) :
    WorkerProgram (Option ReconcileOutcome) := do
  let applied ← demand (Program.request (WorkerOp.reconciler .loadApplied))
  if applied.generation < desired.generation then do
    let outcome ← perform (r.reconcile desired secrets)
    persistStatus outcome.status outcome.message
    pure (some outcome)
  else pure none

/-- An observation that fails is only logged. -/
def recordUserSync (r : Reconciler) (desired : DesiredState) (secrets : SecretResolver) :
    WorkerProgram Unit := do
  match ← (r.observeUserSync desired secrets).attempt with
  | .ok observations => demand (Program.request (WorkerOp.replaceRuntimeUserSync observations))
  | .error _ => pure ()

def converge (r : Reconciler) (desired : DesiredState) : WorkerProgram Unit := do
  recoverInterrupted r
  let values ← demand (Program.request (WorkerOp.loadPrivilegedSecrets desired))
  let secrets := PrivilegedSecrets.resolve values
  let outcome ← applyDesired r desired secrets
  recordUserSync r desired secrets
  if outcome.any fun outcome ↦ outcome.status ≠ .applied ∧ outcome.status ≠ .rolledBack then
    .fail "desired state was not applied; consult sanitized reconcile status"
  else pure ()

def process (worker : Worker) : WorkerProgram Unit := do
  let request ← readRequest
  demand (Program.request WorkerOp.openPool)
  let desired ← demand (Program.request WorkerOp.loadDesiredState)
  let (desired, r) ← worker.prepare request desired
  converge r desired

end StealthHub.Reconcile

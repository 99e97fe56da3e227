import StealthHub.Reconcile.Plan

set_option autoImplicit false

namespace StealthHub.Reconcile

open Effect Text

structure PreparedCore where
  core : CoreAdapter
  plan : CorePlan
  candidate : Path
  snapshot : CoreSnapshot

def mutatedResourcesInRollbackOrder (journal : JournalEntry) : List JournalResource :=
  journal.resources.reverse.filter JournalResource.mutationStarted

def failureWithRollbackOutcome (primary outcome : String) : String :=
  if contains primary outcome then primary else primary ++ "; " ++ outcome

def updateResource (coreId : String) (f : JournalResource → JournalResource) :
    List JournalResource → Option (List JournalResource)
  | [] => none
  | resource :: rest =>
    if resource.coreId = coreId then some (f resource :: rest)
    else (updateResource coreId f rest).map (resource :: ·)

def snapshotOf (resource : JournalResource) : CoreSnapshot :=
  ⟨resource.snapshotPath, resource.serviceWasEnabled, resource.serviceWasActive⟩

def outcomeOf (generation : ℕ) (journal : JournalEntry) : ReconcileOutcome :=
  ⟨generation, journal.status, journal.error⟩

/-- The result of observing a core's users, as the source words its failure. -/
def observationFailure : Except String UserSyncObservation → Option String
  | .ok (.inSync _) => none
  | .ok .unsupported => some "runtime does not support required user observation"
  | .ok (.drift _ _ _ _) => some "runtime user authorization drift detected"
  | .error _ => some "runtime user observation failed"

def hasIndividualUsers (plan : CorePlan) : Bool :=
  plan.fragments.any fun fragment ↦ fragment.expectedUserIds.isSome

def markVerified (journal : JournalEntry) (coreId : String) : JournalEntry :=
  { journal with
    phase := .healthy
    resources := (updateResource coreId (fun resource ↦ { resource with verified := true })
      journal.resources).getD journal.resources }

/-- The journal that `rollback` ends with. -/
def rollbackVerdict (journal : JournalEntry) (error : String) (failed : Bool) : JournalEntry :=
  if failed then
    { journal with
      phase := .recoveryRequired
      status := .recoveryRequired
      error := some (failureWithRollbackOutcome error "rollback verification failed") }
  else
    { journal with
      phase := .rolledBack
      status := .rolledBack
      error := some (failureWithRollbackOutcome error "rollback verified") }

def nextApplied (generation : ℕ) (plans : CorePlans) : AppliedState where
  generation := generation
  activeCoreIds := (plans.entries.filter fun e ↦ !e.2.2.fragments.isEmpty).map Prod.fst

def isTerminal (status : ReconcileStatus) : Bool :=
  status = .applied || status = .failed || status = .rolledBack || status = .unsupported

def newStateWasFullyVerified (journal : JournalEntry) : Bool :=
  !journal.resources.isEmpty &&
    (journal.resources.filter JournalResource.mutationStarted).all JournalResource.verified

def recoveryFailed (journal : JournalEntry) (primaryError outcome : String) : JournalEntry :=
  { journal with
    phase := .recoveryRequired
    status := .recoveryRequired
    error := some (failureWithRollbackOutcome primaryError outcome) }

/-- `return` of a function that decides the outcome. -/
def exitWith {ρ α : Type} (p : Program Reply (Exit ρ) ρ) : Program Reply (Exit ρ) α :=
  p.bind fun outcome ↦ .fail (.returned outcome)

def orExit {ρ α : Type} (result : Except String α) (p : Program Reply (Exit ρ) ρ) :
    Program Reply (Exit ρ) α :=
  match result with
  | .ok a => .done a
  | .error _ => exitWith p

namespace Reconciler

variable (r : Reconciler)

def transactionDir (generation : ℕ) : Path := r.transactionRoot ++ [toString generation]

def cleanup {ρ : Type} (generation : ℕ) : Program Reply (Exit ρ) Unit :=
  cleanupTransactionDirectory (r.transactionDir generation)

def cleanupWhen {ρ : Type} (finished : Bool) (generation : ℕ) : Program Reply (Exit ρ) Unit :=
  if finished then r.cleanup generation else pure ()

def failWithoutMutation (journal : JournalEntry) (error : String) :
    Program Reply (Exit ReconcileOutcome) ReconcileOutcome := do
  let completedAt ← now
  let journal := { journal with
    status := .failed
    error := some error
    currentCoreId := none
    completedAt := some completedAt }
  saveJournal journal
  r.cleanup journal.generation
  pure (outcomeOf journal.generation journal)

def rollbackStep (state : OrderedMap String PreparedCore × Bool) (resource : JournalResource) :
    Program Reply (Exit ReconcileOutcome) (OrderedMap String PreparedCore × Bool) :=
  match state.1.get? resource.coreId with
  | none => pure (state.1, true)
  | some prepared => do
    let result ← Program.request (Op.rollbackConfig prepared.core.manifest.id prepared.snapshot)
    pure (state.1.erase resource.coreId, state.2 || !result.isOk)

def rollback (generation : ℕ) (snapshots : List PreparedCore) (journal : JournalEntry)
    (error : String) : Program Reply (Exit ReconcileOutcome) ReconcileOutcome := do
  let journal := { journal with phase := .rollbackStarted, status := .failed, error := some error }
  saveJournal journal
  let snapshots := OrderedMap.ofList (snapshots.map fun prepared ↦ (prepared.plan.coreId, prepared))
  let (_, rollbackFailed) ←
    (mutatedResourcesInRollbackOrder journal).foldlM rollbackStep (snapshots, false)
  let journal := rollbackVerdict journal error rollbackFailed
  let completedAt ← now
  let journal := { journal with completedAt := some completedAt }
  saveJournal journal
  r.cleanupWhen (journal.status = .rolledBack) journal.generation
  pure (outcomeOf generation journal)

def stageCore (generation : ℕ) (state : JournalEntry × List (CoreAdapter × CorePlan × Path))
    (entry : String × CoreAdapter × CorePlan) :
    Program Reply (Exit ReconcileOutcome)
      (JournalEntry × List (CoreAdapter × CorePlan × Path)) := do
  let (coreId, core, plan) := entry
  let journal := { state.1 with currentCoreId := some coreId }
  let coreDir := r.transactionDir generation ++ [coreId]
  createDirAll coreDir
  let staged ← Program.request (Op.stageConfig core.manifest.id plan coreDir)
  let candidate ← orExit staged (r.failWithoutMutation journal "candidate staging failed")
  let journal := { journal with phase := .staged }
  saveJournal journal
  pure (journal, state.2 ++ [(core, plan, candidate)])

def validateCore (journal : JournalEntry) (prepared : CoreAdapter × CorePlan × Path) :
    Program Reply (Exit ReconcileOutcome) JournalEntry := do
  let (core, _, candidate) := prepared
  let journal := { journal with currentCoreId := some core.manifest.id }
  let validated ← Program.request (Op.validateConfig core.manifest.id candidate)
  orExit validated (r.failWithoutMutation journal "candidate validation failed")
  pure journal

def snapshotCore (generation : ℕ) (state : JournalEntry × List PreparedCore)
    (prepared : CoreAdapter × CorePlan × Path) :
    Program Reply (Exit ReconcileOutcome) (JournalEntry × List PreparedCore) := do
  let (core, plan, candidate) := prepared
  let journal := { state.1 with currentCoreId := some core.manifest.id }
  let coreDir := r.transactionDir generation ++ [plan.coreId]
  let taken ← Program.request (Op.snapshotConfig core.manifest.id coreDir)
  let snapshot ← orExit taken (r.failWithoutMutation journal "runtime snapshot failed")
  let journal := { journal with
    resources := journal.resources ++
      [{ coreId := plan.coreId
         snapshotPath := snapshot.path
         serviceWasEnabled := snapshot.serviceWasEnabled
         serviceWasActive := snapshot.serviceWasActive
         mutationStarted := false
         verified := false }] }
  saveJournal journal
  pure (journal, state.2 ++ [⟨core, plan, candidate, snapshot⟩])

def markStarted (journal : JournalEntry) (coreId : String) :
    Program Reply (Exit ReconcileOutcome) JournalEntry :=
  match updateResource coreId (fun resource ↦ { resource with mutationStarted := true })
      journal.resources with
  | some resources => pure { journal with currentCoreId := some coreId, resources := resources }
  | none => .fail (.error "journal resource disappeared")

def checkHealth (generation : ℕ) (snapshotted : List PreparedCore) (journal : JournalEntry)
    (prepared : PreparedCore) : Program Reply (Exit ReconcileOutcome) Unit :=
  if prepared.plan.fragments.isEmpty then pure ()
  else do
    let healthy ← Program.request (Op.healthcheck prepared.core.manifest.id prepared.plan)
    orExit healthy (r.rollback generation snapshotted journal "runtime health check failed")

def checkUsers (generation : ℕ) (snapshotted : List PreparedCore) (journal : JournalEntry)
    (prepared : PreparedCore) : Program Reply (Exit ReconcileOutcome) Unit :=
  if hasIndividualUsers prepared.plan then do
    let observed ← Program.request (Op.observeUsers prepared.core.manifest.id prepared.plan)
    match observationFailure observed with
    | none => pure ()
    | some message => exitWith (r.rollback generation snapshotted journal message)
  else pure ()

def installCore (generation : ℕ) (snapshotted : List PreparedCore) (journal : JournalEntry)
    (prepared : PreparedCore) : Program Reply (Exit ReconcileOutcome) JournalEntry := do
  let id := prepared.core.manifest.id
  let journal ← markStarted journal prepared.plan.coreId
  saveJournal journal
  let installed ← Program.request (Op.installConfig id prepared.candidate)
  orExit installed (r.rollback generation snapshotted journal "candidate installation failed")
  let journal := { journal with phase := .installed }
  saveJournal journal
  let activated ← Program.request (Op.activateConfig id prepared.plan)
  orExit activated (r.rollback generation snapshotted journal "runtime activation failed")
  let journal := { journal with phase := .activated }
  saveJournal journal
  r.checkHealth generation snapshotted journal prepared
  let listening ← Program.request (Op.verifyListeners id prepared.plan)
  orExit listening (r.rollback generation snapshotted journal "listener verification failed")
  r.checkUsers generation snapshotted journal prepared
  let journal := markVerified journal prepared.plan.coreId
  saveJournal journal
  pure journal

def rejectInterrupted (generation : ℕ) : Program Reply (Exit ReconcileOutcome) Unit := do
  match ← loadJournal with
  | none => pure ()
  | some journal =>
    if journal.status = .applying ∨ journal.status = .recoveryRequired then
      .fail (.returned ⟨generation, .recoveryRequired,
        some "an interrupted transaction requires root recovery"⟩)
    else pure ()

def beginJournal (desired : DesiredState) (applied : AppliedState) :
    Program Reply (Exit ReconcileOutcome) JournalEntry := do
  let operationId ← newOperationId
  let startedAt ← now
  let journal := { JournalEntry.prepared operationId startedAt desired.generation
      applied.generation with previousActiveCoreIds := applied.activeCoreIds }
  saveJournal journal
  pure journal

def checkGraph (desired : DesiredState) (applied : AppliedState) (journal : JournalEntry) :
    Program Reply (Exit ReconcileOutcome) Unit := do
  match ← (r.validateGraph desired applied).attempt with
  | .ok () => pure ()
  | .error _ =>
    let completedAt ← now
    let journal := { journal with
      status := .unsupported
      error := some "desired state references a missing or incompatible adapter"
      completedAt := some completedAt }
    saveJournal journal
    .fail (.returned (outcomeOf desired.generation journal))

def planTransaction (desired : DesiredState) (secrets : SecretResolver) (applied : AppliedState)
    (journal : JournalEntry) : Program Reply (Exit ReconcileOutcome) CorePlans := do
  r.checkGraph desired applied journal
  let built ← (r.buildPlans desired secrets applied).attempt
  let plans ← orExit built (r.failWithoutMutation journal "desired state rendering failed")
  orExit (validateListenerPlan plans)
    (r.failWithoutMutation journal "desired listener plan conflicts")
  pure plans

def prepareTransaction (desired : DesiredState) (plans : CorePlans) (journal : JournalEntry) :
    Program Reply (Exit ReconcileOutcome) (JournalEntry × List PreparedCore) := do
  let journal := { journal with coreIds := plans.keys, status := .applying }
  saveJournal journal
  prepareTransactionDirectory (r.transactionDir desired.generation)
  let (journal, prepared) ← plans.entries.foldlM (r.stageCore desired.generation) (journal, [])
  let journal ← prepared.foldlM r.validateCore journal
  let journal := { journal with phase := .validated }
  saveJournal journal
  let (journal, snapshotted) ← prepared.foldlM (r.snapshotCore desired.generation) (journal, [])
  let journal := { journal with phase := .snapshotted }
  saveJournal journal
  if ← desiredGenerationIsCurrent desired.generation then pure (journal, snapshotted)
  else exitWith (r.failWithoutMutation journal "desired generation became stale")

def publish (desired : DesiredState) (applied : AppliedState) (plans : CorePlans)
    (snapshotted : List PreparedCore) (journal : JournalEntry) :
    Program Reply (Exit ReconcileOutcome) ReconcileOutcome := do
  if !(← desiredGenerationIsCurrent desired.generation) then
    r.rollback desired.generation snapshotted journal "desired generation became stale"
  else
    let journal := { journal with phase := .publishing }
    saveJournal journal
    if !(← compareAndSetApplied applied.generation (nextApplied desired.generation plans)) then
      r.rollback desired.generation snapshotted journal "applied generation changed concurrently"
    else
      let completedAt ← now
      let journal := { journal with
        phase := .published
        status := .applied
        currentCoreId := none
        error := none
        completedAt := some completedAt }
      saveJournal journal
      r.cleanup journal.generation
      pure ⟨desired.generation, .applied, none⟩

/-- Applies a desired generation or returns an explicit non-mutating status. -/
def reconcile (desired : DesiredState) (secrets : SecretResolver) :
    Program Reply String ReconcileOutcome :=
  returning do
    let applied ← loadApplied
    if desired.generation ≤ applied.generation then
      pure ⟨applied.generation, .applied, none⟩
    else
      rejectInterrupted desired.generation
      let journal ← beginJournal desired applied
      let plans ← r.planTransaction desired secrets applied journal
      let (journal, snapshotted) ← r.prepareTransaction desired plans journal
      let journal ← snapshotted.foldlM (r.installCore desired.generation snapshotted) journal
      r.publish desired applied plans snapshotted journal

def adopt (journal : JournalEntry) :
    Program Reply (Exit (Option ReconcileOutcome)) (Option ReconcileOutcome) := do
  let completedAt ← now
  let journal := { journal with
    phase := .published
    status := .applied
    completedAt := some completedAt }
  saveJournal journal
  r.cleanup journal.generation
  pure (some ⟨journal.generation, journal.status, none⟩)

def failInterrupted (journal : JournalEntry) :
    Program Reply (Exit (Option ReconcileOutcome)) (Option ReconcileOutcome) := do
  let completedAt ← now
  let journal := { journal with
    status := .failed
    error := some "interrupted before live mutation"
    completedAt := some completedAt }
  saveJournal journal
  r.cleanup journal.generation
  pure (some (outcomeOf journal.generation journal))

def recoverResource (generation : ℕ) (failed : Bool) (resource : JournalResource) :
    Program Reply (Exit (Option ReconcileOutcome)) Bool := do
  let expectedCoreRoot := r.transactionDir generation ++ [resource.coreId]
  if !(validateResourceId resource.coreId).isOk ∨
      !expectedCoreRoot.isPrefixOf resource.snapshotPath then
    pure true
  else
    match r.cores.get resource.coreId with
    | none => pure true
    | some core =>
      let result ← Program.request (Op.rollbackConfig core.manifest.id (snapshotOf resource))
      pure (failed || !result.isOk)

/-- After every rollback succeeded: undoes a publication that was never
verified, or checks that none had happened. -/
def restoreApplied (applied : AppliedState) (journal : JournalEntry) :
    Program Reply (Exit (Option ReconcileOutcome)) Bool :=
  if applied.generation = journal.generation then
    compareAndSetApplied journal.generation
      ⟨journal.previousGeneration, journal.previousActiveCoreIds⟩
  else pure (decide (applied.generation = journal.previousGeneration))

def recoveryVerdict (journal : JournalEntry) (applied : AppliedState) (primaryError : String)
    (failed : Bool) : Program Reply (Exit (Option ReconcileOutcome)) JournalEntry :=
  if failed then
    pure (recoveryFailed journal primaryError "recovery rollback verification failed")
  else do
    if ← restoreApplied applied journal then
      pure { journal with
        phase := .rolledBack
        status := .rolledBack
        error := some (failureWithRollbackOutcome primaryError "recovery rollback verified") }
    else
      pure (recoveryFailed journal primaryError
        "recovery rollback verified but applied generation changed concurrently")

def rollBackInterrupted (journal : JournalEntry) (applied : AppliedState)
    (resources : List JournalResource) :
    Program Reply (Exit (Option ReconcileOutcome)) (Option ReconcileOutcome) := do
  let primaryError := journal.error.getD "interrupted transaction"
  let journal := { journal with
    phase := .rollbackStarted
    status := .applying
    error := some primaryError }
  saveJournal journal
  let failed ← resources.foldlM (r.recoverResource journal.generation) false
  let completedAt ← now
  let journal := { journal with currentCoreId := none, completedAt := some completedAt }
  let journal ← recoveryVerdict journal applied primaryError failed
  saveJournal journal
  r.cleanupWhen
    (journal.status = .applied ∨ journal.status = .failed ∨ journal.status = .rolledBack)
    journal.generation
  pure (some (outcomeOf journal.generation journal))

/-- Recovers an interrupted mutation to the previous known-good snapshots. -/
def recover : Program Reply String (Option ReconcileOutcome) :=
  returning do
    match ← loadJournal with
    | none => pure none
    | some journal =>
      if isTerminal journal.status then
        r.cleanup journal.generation
        pure none
      else
        let applied ← loadApplied
        if applied.generation = journal.generation ∧
            (journal.phase = .published ∨ newStateWasFullyVerified journal) then
          r.adopt journal
        else
          let resources := mutatedResourcesInRollbackOrder journal
          if resources.isEmpty then r.failInterrupted journal
          else r.rollBackInterrupted journal applied resources

end Reconciler

end StealthHub.Reconcile

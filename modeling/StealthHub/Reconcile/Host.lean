import Mathlib.Logic.Function.Basic
import StealthHub.Adapters
import StealthHub.Effect.Crash

set_option autoImplicit false

namespace StealthHub.Reconcile

open Effect

/-- Everything the reconciler asks of its surroundings: the durable store, the
core adapters, the transaction directories, the clock. -/
inductive Op
  | loadApplied
  | compareAndSetApplied (expected : ℕ) (next : AppliedState)
  | loadJournal
  | saveJournal (entry : JournalEntry)
  | desiredGenerationIsCurrent (generation : ℕ)
  | installed (core : String)
  | compatible (core : String) (required : Finset String)
  | stageConfig (core : String) (plan : CorePlan) (transactionDir : Path)
  | validateConfig (core : String) (candidate : Path)
  | snapshotConfig (core : String) (transactionDir : Path)
  | installConfig (core : String) (candidate : Path)
  | activateConfig (core : String) (plan : CorePlan)
  | healthcheck (core : String) (plan : CorePlan)
  | verifyListeners (core : String) (plan : CorePlan)
  | observeUsers (core : String) (plan : CorePlan)
  | rollbackConfig (core : String) (snapshot : CoreSnapshot)
  | prepareTransactionDirectory (path : Path)
  | createDirAll (path : Path)
  | cleanupTransactionDirectory (path : Path)
  | newOperationId
  | now

abbrev Reply : Op → Type
  | .loadApplied => Except String AppliedState
  | .compareAndSetApplied _ _ => Except String Bool
  | .loadJournal => Except String (Option JournalEntry)
  | .saveJournal _ => Except String Unit
  | .desiredGenerationIsCurrent _ => Except String Bool
  | .installed _ => Except String Bool
  | .compatible _ _ => Except String Bool
  | .stageConfig _ _ _ => Except String Path
  | .validateConfig _ _ => Except String Unit
  | .snapshotConfig _ _ => Except String CoreSnapshot
  | .installConfig _ _ => Except String Unit
  | .activateConfig _ _ => Except String Unit
  | .healthcheck _ _ => Except String Unit
  | .verifyListeners _ _ => Except String Unit
  | .observeUsers _ _ => Except String UserSyncObservation
  | .rollbackConfig _ _ => Except String Unit
  | .prepareTransactionDirectory _ => Except String Unit
  | .createDirAll _ => Except String Unit
  | .cleanupTransactionDirectory _ => Unit
  | .newOperationId => String
  | .now => String

/-- What outlives the process: both store files, the live state of every core,
and the live states kept in snapshots. -/
structure World (L : Type) where
  applied : AppliedState
  journal : Option JournalEntry
  live : String → L
  snapshots : String → CoreSnapshot → Option L

namespace World

variable {L : Type}

def setLive (w : World L) (core : String) (l : L) : World L :=
  { w with live := Function.update w.live core l }

def keep (w : World L) (core : String) (snapshot : CoreSnapshot) : World L :=
  { w with
    snapshots := Function.update w.snapshots core
      (Function.update (w.snapshots core) snapshot (some (w.live core))) }

/-- Some snapshots under a directory may be gone; nothing else has changed. -/
structure Removes (path : Path) (w w' : World L) : Prop where
  applied : w'.applied = w.applied
  journal : w'.journal = w.journal
  live : w'.live = w.live
  snapshots : ∀ core s, w'.snapshots core s = w.snapshots core s ∨
    path <+: s.path ∧ w'.snapshots core s = none

theorem Removes.refl (path : Path) (w : World L) : Removes path w w :=
  ⟨rfl, rfl, rfl, fun _ _ ↦ .inl rfl⟩

end World

/-- One answered request. A store operation that reports an error may or may
not have taken effect. A mutating adapter call that fails leaves any live state
of its core behind, and never touches another core. -/
def step {L : Type} (active : L → Bool) (w : World L) : (op : Op) → Reply op → World L → Prop
  | .loadApplied, .ok a, w' => a = w.applied ∧ w' = w
  | .compareAndSetApplied expected next, .ok true, w' =>
    w.applied.generation = expected ∧ w' = { w with applied := next }
  | .compareAndSetApplied expected _, .ok false, w' =>
    w.applied.generation ≠ expected ∧ w' = w
  | .compareAndSetApplied expected next, .error _, w' =>
    w' = w ∨ w.applied.generation = expected ∧ w' = { w with applied := next }
  | .loadJournal, .ok j, w' => j = w.journal ∧ w' = w
  | .saveJournal entry, .ok (), w' => w' = { w with journal := some entry }
  | .saveJournal entry, .error _, w' => w' = w ∨ w' = { w with journal := some entry }
  | .snapshotConfig core _, .ok snapshot, w' => w' = w.keep core snapshot
  | .installConfig core _, _, w' => ∃ l, w' = w.setLive core l
  | .activateConfig core plan, .ok (), w' =>
    ∃ l, active l = !plan.fragments.isEmpty ∧ w' = w.setLive core l
  | .activateConfig core _, .error _, w' => ∃ l, w' = w.setLive core l
  | .rollbackConfig core snapshot, .ok (), w' =>
    ∃ l, w.snapshots core snapshot = some l ∧ w' = w.setLive core l
  | .rollbackConfig core _, .error _, w' => ∃ l, w' = w.setLive core l
  | .prepareTransactionDirectory path, _, w' => w.Removes path w'
  | .cleanupTransactionDirectory path, _, w' => w.Removes path w'
  | _, _, w' => w' = w

/-- Early exits of the source: an error that propagates, or a `return`. -/
inductive Exit (ρ : Type)
  | error (message : String)
  | returned (value : ρ)

variable {ρ α : Type}

def propagate (p : Program Reply (Exit ρ) (Except String α)) : Program Reply (Exit ρ) α :=
  p.bind fun r ↦ Program.lift (r.mapError Exit.error)

def returning (p : Program Reply (Exit ρ) ρ) : Program Reply String ρ :=
  p.handle fun
    | .error message => .fail message
    | .returned value => .done value

def loadApplied : Program Reply (Exit ρ) AppliedState := propagate (Program.request Op.loadApplied)

def compareAndSetApplied (expected : ℕ) (next : AppliedState) : Program Reply (Exit ρ) Bool :=
  propagate (Program.request (Op.compareAndSetApplied expected next))

def loadJournal : Program Reply (Exit ρ) (Option JournalEntry) :=
  propagate (Program.request Op.loadJournal)

def saveJournal (entry : JournalEntry) : Program Reply (Exit ρ) Unit :=
  propagate (Program.request (Op.saveJournal entry))

def desiredGenerationIsCurrent (generation : ℕ) : Program Reply (Exit ρ) Bool :=
  propagate (Program.request (Op.desiredGenerationIsCurrent generation))

def prepareTransactionDirectory (path : Path) : Program Reply (Exit ρ) Unit :=
  propagate (Program.request (Op.prepareTransactionDirectory path))

def createDirAll (path : Path) : Program Reply (Exit ρ) Unit :=
  propagate (Program.request (Op.createDirAll path))

def cleanupTransactionDirectory (path : Path) : Program Reply (Exit ρ) Unit :=
  Program.request (Op.cleanupTransactionDirectory path)

def newOperationId : Program Reply (Exit ρ) String := Program.request Op.newOperationId

def now : Program Reply (Exit ρ) String := Program.request Op.now

end StealthHub.Reconcile

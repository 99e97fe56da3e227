import StealthHub.Effect.Eval
import StealthHub.Reconcile.Engine
import StealthHub.Reconcile.PlanSpec
import StealthHub.Reconcile.Selection

set_option autoImplicit false

namespace StealthHub.Reconcile

open Effect Effect.Program Function

/-- Which service owns which network and port, and the files of the runtime adapters:
the listeners of the installed and of the staged configurations, those that were
installed when the candidate was staged, and what the snapshots keep. -/
structure PortHost where
  applied : AppliedState
  journal : Option JournalEntry
  installed : String → List ListenerClaim
  staged : String → List ListenerClaim
  previous : String → List ListenerClaim
  kept : String → List ListenerClaim × Bool
  active : String → Bool
  owner : ListenerClaim → Option String

def planListeners (plan : CorePlan) : List ListenerClaim :=
  plan.fragments.flatMap ServerFragment.listeners

namespace PortHost

def idle : PortHost where
  applied := .default
  journal := none
  installed := fun _ ↦ []
  staged := fun _ ↦ []
  previous := fun _ ↦ []
  kept := fun _ ↦ ([], false)
  active := fun _ ↦ false
  owner := fun _ ↦ none

variable (s : PortHost) (core : String)

def stage (plan : CorePlan) : PortHost :=
  { s with
    previous := update s.previous core (s.installed core)
    staged := update s.staged core (planListeners plan) }

def snapshot : PortHost :=
  { s with kept := update s.kept core (s.installed core, s.active core) }

def install : PortHost := { s with installed := update s.installed core (s.staged core) }

/-- A service that stops releases its ports. -/
def stop : PortHost :=
  { s with
    active := update s.active core false
    owner := fun claim ↦ if s.owner claim = some core then none else s.owner claim }

/-- A service binds all listeners of its configuration, or does not become active. -/
def start : PortHost :=
  if ∀ claim ∈ s.installed core, s.owner claim = none then
    { s with
      active := update s.active core true
      owner := fun claim ↦ if claim ∈ s.installed core then some core else s.owner claim }
  else { s with active := update s.active core false }

def restart : PortHost := (s.stop core).start core

/-- `ManagedCoreAdapter::activate_config`. The units are of the simple type, so the command
that restarts one succeeds whatever becomes of its process. -/
def activate (plan : CorePlan) : PortHost :=
  if plan.fragments.isEmpty then s.stop core else s.restart core

/-- `ManagedCoreAdapter::verify_listeners`: what is required is owned by the core, what is
forbidden is owned by none. -/
def verifyListeners (plan : CorePlan) : Except String Unit :=
  let desired := s.staged core
  let forbidden := (s.previous core).filter fun claim ↦ claim ∉ desired
  if plan.fragments.isEmpty then
    if ∀ claim ∈ s.previous core, s.owner claim = none then .ok ()
    else .error "stale listener remains active"
  else if ¬∀ claim ∈ desired, s.owner claim = some core then
    .error "required listener is absent or owned by another process"
  else if ∀ claim ∈ forbidden, s.owner claim = none then .ok ()
  else .error "stale listener remains active"

def rollback : Except String Unit × PortHost :=
  let s := { s with installed := update s.installed core (s.kept core).1 }
  if (s.kept core).2 then
    let s := s.restart core
    (if s.active core then .ok () else .error "restored runtime is not healthy", s)
  else (.ok (), s.stop core)

def Bound (s : PortHost) : Prop :=
  ∀ claim core, s.owner claim = some core ↔ claim ∈ s.installed core

section lemmas

variable {s core} {plan : CorePlan} {claim : ListenerClaim} {holder : String}

@[simp] theorem activate_installed : (s.activate core plan).installed = s.installed := by
  simp only [activate, restart, start]
  split_ifs <;> rfl

@[simp] theorem activate_staged : (s.activate core plan).staged = s.staged := by
  simp only [activate, restart, start]
  split_ifs <;> rfl

@[simp] theorem activate_previous : (s.activate core plan).previous = s.previous := by
  simp only [activate, restart, start]
  split_ifs <;> rfl

@[simp] theorem activate_applied : (s.activate core plan).applied = s.applied := by
  simp only [activate, restart, start]
  split_ifs <;> rfl

theorem stop_owner : (s.stop core).owner claim = some holder ↔
    s.owner claim = some holder ∧ holder ≠ core := by
  simp only [stop]
  split_ifs with hown
  · refine iff_of_false nofun ?_
    rintro ⟨hholder, hne⟩
    rw [hown] at hholder
    exact hne (Option.some.inj hholder).symm
  · refine ⟨fun hholder ↦ ⟨hholder, ?_⟩, And.left⟩
    rintro rfl
    exact hown hholder

def Clear (s : PortHost) (core : String) (plan : CorePlan) : Prop :=
  ∀ claim ∈ planListeners plan, ∀ holder, holder ≠ core → s.owner claim ≠ some holder

theorem free_iff (hinstalled : s.installed core = planListeners plan) :
    (∀ claim ∈ (s.stop core).installed core, (s.stop core).owner claim = none) ↔
      s.Clear core plan := by
  have hstopped : (s.stop core).installed core = planListeners plan := hinstalled
  rw [hstopped]
  refine forall₂_congr fun claim _ ↦ ?_
  rw [Option.eq_none_iff_forall_ne_some]
  refine forall_congr' fun holder ↦ ?_
  rw [ne_eq, stop_owner, not_and']

theorem planListeners_empty (h : plan.fragments.isEmpty) : planListeners plan = [] := by
  rw [planListeners, List.isEmpty_iff.mp h]
  rfl

theorem activate_owner (hinstalled : s.installed core = planListeners plan)
    (hclear : s.Clear core plan) : (s.activate core plan).owner claim = some holder ↔
      if claim ∈ planListeners plan then holder = core
      else s.owner claim = some holder ∧ holder ≠ core := by
  rw [activate]
  split_ifs with hempty hmem hmem
  · rw [planListeners_empty hempty] at hmem
    cases hmem
  · exact stop_owner
  all_goals
    have hstopped : (s.stop core).installed core = planListeners plan := hinstalled
    rw [restart, start, if_pos ((free_iff hinstalled).mpr hclear)]
    show (if claim ∈ (s.stop core).installed core then some core
      else (s.stop core).owner claim) = some holder ↔ _
    rw [hstopped]
  · rw [if_pos hmem, Option.some.injEq]
    exact eq_comm
  · rw [if_neg hmem]
    exact stop_owner

theorem activate_active (hinstalled : s.installed core = planListeners plan)
    (hplanned : plan.fragments.isEmpty = false) :
    (s.activate core plan).active core = true ↔ s.Clear core plan := by
  rw [activate, hplanned, if_neg Bool.false_ne_true, restart, start, ← free_iff hinstalled]
  split_ifs with hfree
  · exact iff_of_true (update_self ..) hfree
  · refine iff_of_false (fun hactive ↦ ?_) hfree
    exact Bool.false_ne_true ((update_self ..).symm.trans hactive)

theorem clear_of_empty (hempty : plan.fragments.isEmpty) : s.Clear core plan := by
  intro claim hclaim
  rw [planListeners_empty hempty] at hclaim
  cases hclaim

theorem verifyListeners_ok (hstaged : s.staged core = planListeners plan) :
    s.verifyListeners core plan = .ok () ↔
      (∀ claim ∈ planListeners plan, s.owner claim = some core) ∧
        ∀ claim ∈ s.previous core, claim ∉ planListeners plan → s.owner claim = none := by
  simp only [verifyListeners, hstaged]
  split_ifs with hempty hgone hrequired hforbidden
  · rw [planListeners_empty hempty]
    exact iff_of_true rfl ⟨nofun, fun claim hclaim _ ↦ hgone claim hclaim⟩
  · rw [planListeners_empty hempty]
    exact iff_of_false nofun fun hall ↦ hgone fun claim hclaim ↦ hall.2 claim hclaim List.not_mem_nil
  · refine iff_of_true rfl ⟨hrequired, fun claim hclaim hmem ↦ ?_⟩
    exact hforbidden claim (List.mem_filter.mpr ⟨hclaim, decide_eq_true hmem⟩)
  · refine iff_of_false nofun fun hall ↦ hforbidden fun claim hclaim ↦ ?_
    obtain ⟨hclaim, hmem⟩ := List.mem_filter.mp hclaim
    exact hall.2 claim hclaim (of_decide_eq_true hmem)
  · exact iff_of_false nofun fun hall ↦ hrequired hall.1

end lemmas

end PortHost

/-- The answers of a host with ports; what has nothing to do with them is answered the same
at all times. -/
def answer (host : Host) (s : PortHost) : (op : Op) → Reply op × PortHost
  | .loadApplied => (.ok s.applied, s)
  | .compareAndSetApplied expected next =>
    if s.applied.generation = expected then (.ok true, { s with applied := next })
    else (.ok false, s)
  | .loadJournal => (.ok s.journal, s)
  | .saveJournal entry => (.ok (), { s with journal := some entry })
  | .stageConfig core plan dir => (.ok (dir ++ ["candidate"]), s.stage core plan)
  | .snapshotConfig core dir =>
    (.ok ⟨dir ++ ["snapshot"], s.active core, s.active core⟩, s.snapshot core)
  | .installConfig core _ => (.ok (), s.install core)
  | .activateConfig core plan => (.ok (), s.activate core plan)
  | .healthcheck core _ =>
    (if s.active core then .ok () else .error "runtime service is not active", s)
  | .verifyListeners core plan => (s.verifyListeners core plan, s)
  | .rollbackConfig core _ => s.rollback core
  | .cleanupTransactionDirectory _ => ((), s)
  | op => (host op, s)

/-- Nothing fails that has nothing to do with ports. -/
structure Host.Smooth (host : Host) : Prop where
  current : ∀ generation, host (.desiredGenerationIsCurrent generation) = .ok true
  validates : ∀ core candidate, host (.validateConfig core candidate) = .ok ()
  prepares : ∀ path, host (.prepareTransactionDirectory path) = .ok ()
  creates : ∀ path, host (.createDirAll path) = .ok ()
  observes : ∀ core plan, ∃ count, host (.observeUsers core plan) = .ok (.inSync count)

/-- The hosts that successful reconciles lead to from one where nothing runs. -/
inductive PortHost.Settled : PortHost → Prop
  | idle : Settled .idle
  | reconciled {s : PortHost} {host : Host} {r : Reconciler} {desired : DesiredState}
      {secrets : SecretResolver} {outcome : ReconcileOutcome} (settled : Settled s)
      (smooth : host.Smooth)
      (result : ((r.reconcile desired secrets).eval (answer host) s).1 = .ok outcome)
      (applied : outcome.status = .applied) :
      Settled ((r.reconcile desired secrets).eval (answer host) s).2

end StealthHub.Reconcile

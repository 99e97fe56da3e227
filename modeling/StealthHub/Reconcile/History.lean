import StealthHub.Reconcile.Engine

set_option autoImplicit false

namespace StealthHub.Reconcile

open Effect Effect.Program

abbrev Answered := Σ op, Reply op

abbrev State (L : Type) := Traced Reply (World L)

def mutated : Answered → Option String
  | ⟨.installConfig core _, _⟩ => some core
  | ⟨.activateConfig core _, _⟩ => some core
  | ⟨.rollbackConfig core _, _⟩ => some core
  | _ => none

def installCall : Answered → Option String
  | ⟨.installConfig core _, _⟩ => some core
  | _ => none

def rollbackCall : Answered → Option (String × Bool)
  | ⟨.rollbackConfig core _, .ok _⟩ => some (core, true)
  | ⟨.rollbackConfig core _, .error _⟩ => some (core, false)
  | _ => none

/-- The cores whose installation was started, in order. -/
def installCalls (log : List Answered) : List String := log.filterMap installCall

/-- The cores that were rolled back, in order, with the result of each call. -/
def rollbackCalls (log : List Answered) : List (String × Bool) := log.filterMap rollbackCall

def lastMutation (core : String) (log : List Answered) : Option Answered :=
  (log.filter fun e ↦ mutated e = some core).getLast?

/-- No adapter was asked to install, activate or roll back anything. -/
def NoMutation (log : List Answered) : Prop := ∀ e ∈ log, mutated e = none

/-- Every check that the transaction makes of a core with a plan has passed. -/
structure Converged (log : List Answered) (core : String) (plan : CorePlan) : Prop where
  installed : ∃ candidate, ⟨.installConfig core candidate, .ok ()⟩ ∈ log
  activated : ⟨.activateConfig core plan, .ok ()⟩ ∈ log
  healthy : plan.fragments ≠ [] → ⟨.healthcheck core plan, .ok ()⟩ ∈ log
  listening : ⟨.verifyListeners core plan, .ok ()⟩ ∈ log
  inSync : hasIndividualUsers plan → ∃ n, ⟨.observeUsers core plan, .ok (.inSync n)⟩ ∈ log

@[simp] theorem installCalls_append (log es : List Answered) :
    installCalls (log ++ es) = installCalls log ++ installCalls es :=
  List.filterMap_append

@[simp] theorem rollbackCalls_append (log es : List Answered) :
    rollbackCalls (log ++ es) = rollbackCalls log ++ rollbackCalls es :=
  List.filterMap_append

theorem installCall_eq_none {e : Answered} (h : mutated e = none) : installCall e = none := by
  obtain ⟨op, r⟩ := e
  cases op <;> first | rfl | cases h

theorem rollbackCall_eq_none {e : Answered} (h : mutated e = none) : rollbackCall e = none := by
  obtain ⟨op, r⟩ := e
  cases op <;> first | rfl | cases h

theorem NoMutation.installCalls_eq {es : List Answered} (h : NoMutation es) :
    installCalls es = [] :=
  List.filterMap_eq_nil_iff.mpr fun e he ↦ installCall_eq_none (h e he)

theorem NoMutation.rollbackCalls_eq {es : List Answered} (h : NoMutation es) :
    rollbackCalls es = [] :=
  List.filterMap_eq_nil_iff.mpr fun e he ↦ rollbackCall_eq_none (h e he)

theorem lastMutation_append_of_ne {core : String} {log es : List Answered}
    (h : ∀ e ∈ es, mutated e ≠ some core) :
    lastMutation core (log ++ es) = lastMutation core log := by
  have hes : es.filter (fun e ↦ mutated e = some core) = [] :=
    List.filter_eq_nil_iff.mpr fun e he ↦ by simpa using h e he
  rw [lastMutation, List.filter_append, hes, List.append_nil, lastMutation]

theorem lastMutation_append {core : String} {log : List Answered} {e : Answered}
    (h : mutated e = some core) : lastMutation core (log ++ [e]) = some e := by
  simp [lastMutation, List.filter_append, h]

theorem Converged.mono {log log' : List Answered} {core : String} {plan : CorePlan}
    (h : Converged log core plan) (hl : log ⊆ log') : Converged log' core plan where
  installed := h.installed.imp fun _ hc ↦ hl hc
  activated := hl h.activated
  healthy hp := hl (h.healthy hp)
  listening := hl h.listening
  inSync hp := (h.inSync hp).imp fun _ hn ↦ hl hn

def Op.isInert : Op → Bool
  | .compareAndSetApplied _ _ => false
  | .installConfig _ _ => false
  | .activateConfig _ _ => false
  | .rollbackConfig _ _ => false
  | _ => true

def Op.keepsJournal : Op → Bool
  | .saveJournal _ => false
  | _ => true

def Op.keepsSnapshots : Op → Bool
  | .snapshotConfig _ _ => false
  | .prepareTransactionDirectory _ => false
  | .cleanupTransactionDirectory _ => false
  | _ => true

variable {L : Type} {active : L → Bool}

/-- Only the journal, the snapshots and the record may differ. -/
structure Inert (s s' : State L) : Prop where
  applied : s'.state.applied = s.state.applied
  live : s'.state.live = s.state.live
  log : ∃ es, s'.log = s.log ++ es ∧ NoMutation es

theorem Inert.refl (s : State L) : Inert s s := ⟨rfl, rfl, [], by simp, by simp [NoMutation]⟩

theorem Inert.trans {s s' s'' : State L} (h : Inert s s') (h' : Inert s' s'') : Inert s s'' := by
  obtain ⟨es, he, hn⟩ := h.log
  obtain ⟨es', he', hn'⟩ := h'.log
  refine ⟨h'.applied.trans h.applied, h'.live.trans h.live, es ++ es', by simp [he', he], ?_⟩
  intro e hm
  rcases List.mem_append.mp hm with hm | hm
  · exact hn e hm
  · exact hn' e hm

theorem Inert.subset {s s' : State L} (h : Inert s s') : s.log ⊆ s'.log := by
  obtain ⟨es, he, -⟩ := h.log
  rw [he]
  exact List.subset_append_left _ _

theorem Inert.installCalls_eq {s s' : State L} (h : Inert s s') :
    installCalls s'.log = installCalls s.log := by
  obtain ⟨es, he, hn⟩ := h.log
  rw [he, installCalls_append, hn.installCalls_eq, List.append_nil]

theorem Inert.rollbackCalls_eq {s s' : State L} (h : Inert s s') :
    rollbackCalls s'.log = rollbackCalls s.log := by
  obtain ⟨es, he, hn⟩ := h.log
  rw [he, rollbackCalls_append, hn.rollbackCalls_eq, List.append_nil]

theorem Inert.lastMutation_eq {s s' : State L} (h : Inert s s') (core : String) :
    lastMutation core s'.log = lastMutation core s.log := by
  obtain ⟨es, he, hn⟩ := h.log
  rw [he]
  exact lastMutation_append_of_ne fun e hm ↦ by simp [hn e hm]

theorem Inert.noMutation {s s' : State L} (h : Inert s s') (hs : NoMutation s.log) :
    NoMutation s'.log := by
  obtain ⟨es, he, hn⟩ := h.log
  intro e hm
  rw [he] at hm
  rcases List.mem_append.mp hm with hm | hm
  · exact hs e hm
  · exact hn e hm

theorem mutated_eq_none {op : Op} (h : op.isInert) (r : Reply op) : mutated ⟨op, r⟩ = none := by
  cases op <;> first | rfl | cases h

theorem step_inert {w w' : World L} {op : Op} {r : Reply op} (h : step active w op r w')
    (hop : op.isInert) : w'.applied = w.applied ∧ w'.live = w.live := by
  cases op with
  | compareAndSetApplied | installConfig | activateConfig | rollbackConfig => cases hop
  | prepareTransactionDirectory path | cleanupTransactionDirectory path =>
    exact ⟨h.applied, h.live⟩
  | saveJournal entry =>
    cases r with
    | ok => exact h ▸ ⟨rfl, rfl⟩
    | error => rcases h with rfl | rfl <;> exact ⟨rfl, rfl⟩
  | loadApplied | loadJournal =>
    cases r with
    | ok => exact h.2 ▸ ⟨rfl, rfl⟩
    | error => exact h ▸ ⟨rfl, rfl⟩
  | snapshotConfig core dir => cases r <;> exact h ▸ ⟨rfl, rfl⟩
  | _ => exact h ▸ ⟨rfl, rfl⟩

theorem step_keepsJournal {w w' : World L} {op : Op} {r : Reply op} (h : step active w op r w')
    (hop : op.keepsJournal) : w'.journal = w.journal := by
  cases op with
  | saveJournal => cases hop
  | prepareTransactionDirectory path | cleanupTransactionDirectory path => exact h.journal
  | loadApplied | loadJournal =>
    cases r with
    | ok => exact h.2 ▸ rfl
    | error => exact h ▸ rfl
  | compareAndSetApplied expected next =>
    match r, h with
    | .ok true, h => exact h.2 ▸ rfl
    | .ok false, h => exact h.2 ▸ rfl
    | .error _, h => rcases h with rfl | ⟨-, rfl⟩ <;> rfl
  | installConfig core candidate => exact h.choose_spec ▸ rfl
  | activateConfig core plan =>
    cases r with
    | ok => exact h.choose_spec.2 ▸ rfl
    | error => exact h.choose_spec ▸ rfl
  | rollbackConfig core snapshot =>
    cases r with
    | ok => exact h.choose_spec.2 ▸ rfl
    | error => exact h.choose_spec ▸ rfl
  | snapshotConfig core dir => cases r <;> exact h ▸ rfl
  | _ => exact h ▸ rfl

theorem step_keepsSnapshots {w w' : World L} {op : Op} {r : Reply op} (h : step active w op r w')
    (hop : op.keepsSnapshots) : w'.snapshots = w.snapshots := by
  cases op with
  | snapshotConfig | prepareTransactionDirectory | cleanupTransactionDirectory => cases hop
  | saveJournal entry =>
    cases r with
    | ok => exact h ▸ rfl
    | error => rcases h with rfl | rfl <;> rfl
  | loadApplied | loadJournal =>
    cases r with
    | ok => exact h.2 ▸ rfl
    | error => exact h ▸ rfl
  | compareAndSetApplied expected next =>
    match r, h with
    | .ok true, h => exact h.2 ▸ rfl
    | .ok false, h => exact h.2 ▸ rfl
    | .error _, h => rcases h with rfl | ⟨-, rfl⟩ <;> rfl
  | installConfig core candidate => exact h.choose_spec ▸ rfl
  | activateConfig core plan =>
    cases r with
    | ok => exact h.choose_spec.2 ▸ rfl
    | error => exact h.choose_spec ▸ rfl
  | rollbackConfig core snapshot =>
    cases r with
    | ok => exact h.choose_spec.2 ▸ rfl
    | error => exact h.choose_spec ▸ rfl
  | _ => exact h ▸ rfl

theorem inert_of_step {s s' : State L} {op : Op} {r : Reply op}
    (h : tracedStep (step active) s op r s') (hop : op.isInert) : Inert s s' := by
  obtain ⟨ha, hv⟩ := step_inert h.1 hop
  exact ⟨ha, hv, [⟨op, r⟩], h.2, by simpa [NoMutation] using mutated_eq_none hop r⟩

end StealthHub.Reconcile

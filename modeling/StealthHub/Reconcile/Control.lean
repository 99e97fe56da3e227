import StealthHub.Effect.Fence
import StealthHub.Reconcile.Recover

set_option autoImplicit false

namespace StealthHub.Reconcile

open Effect Effect.Program

def Op.isEarly : Op → Prop
  | .installConfig _ _ => False
  | .desiredGenerationIsCurrent _ => False
  | _ => True

def Op.isLate : Op → Prop
  | .snapshotConfig _ _ => False
  | .desiredGenerationIsCurrent _ => False
  | _ => True

def Op.isClosing (op : Op) : Prop := op.isEarly ∧ op.isLate

def Op.checks (generation : ℕ) (op : Op) : Prop :=
  ∀ g, op = .desiredGenerationIsCurrent g → g = generation

theorem Op.isEarly.checks {generation : ℕ} {op : Op} (h : op.isEarly) : op.checks generation := by
  intro g hg
  rw [hg] at h
  cases h

theorem Op.isLate.checks {generation : ℕ} {op : Op} (h : op.isLate) : op.checks generation := by
  intro g hg
  rw [hg] at h
  cases h

theorem Op.isEarly.isRecovery {op : Op} (h : op.isEarly) : op.isRecovery := by
  cases op with
  | installConfig => cases h
  | _ => trivial

theorem isEarly_of_isProbe (op : Op) (h : op.isProbe) : op.isEarly := by
  cases op with
  | installed | compatible => trivial
  | _ => cases h

section uses

variable {allowed : Op → Prop} {ρ α : Type} {r : Reconciler} {j : JournalEntry}
variable {desired : DesiredState} {secrets : SecretResolver}

theorem propagate_uses {p : Program Reply (Exit ρ) (Except String α)} (h : p.Uses allowed) :
    (propagate p).Uses allowed := uses_bind h fun _ ↦ uses_lift _

theorem call_uses {op : Op} (h : allowed op) :
    (request op : Program Reply (Exit ρ) (Reply op)).Uses allowed := ⟨h, fun _ ↦ trivial⟩

theorem exitWith_uses {p : Program Reply (Exit ρ) ρ} (h : p.Uses allowed) :
    (exitWith p : Program Reply (Exit ρ) α).Uses allowed := uses_bind h fun _ ↦ trivial

theorem orExit_uses {result : Except String α} {p : Program Reply (Exit ρ) ρ}
    (h : p.Uses allowed) : (orExit result p).Uses allowed := by
  cases result with
  | ok a => trivial
  | error m => exact exitWith_uses h

theorem returning_uses {p : Program Reply (Exit ρ) ρ} (h : p.Uses allowed) :
    (returning p).Uses allowed := by
  refine uses_handle h fun e ↦ ?_
  cases e <;> trivial

theorem failWithoutMutation_uses (error : String) :
    (r.failWithoutMutation j error).Uses Op.isClosing := by
  refine uses_bind (call_uses ⟨trivial, trivial⟩) fun _ ↦ ?_
  refine uses_bind (propagate_uses (call_uses ⟨trivial, trivial⟩)) fun _ ↦ ?_
  exact uses_bind (call_uses ⟨trivial, trivial⟩) fun _ ↦ trivial

theorem cleanupWhen_uses (finished : Bool) (generation : ℕ) :
    (r.cleanupWhen finished generation : Program Reply (Exit ρ) Unit).Uses Op.isClosing := by
  cases finished with
  | false => trivial
  | true => exact call_uses ⟨trivial, trivial⟩

theorem rollback_uses (generation : ℕ) (all : List PreparedCore) (error : String) :
    (r.rollback generation all j error).Uses Op.isClosing := by
  refine uses_bind (propagate_uses (call_uses ⟨trivial, trivial⟩)) fun _ ↦ ?_
  refine uses_bind (uses_foldlM fun state resource ↦ ?_) fun _ ↦ ?_
  · rw [Reconciler.rollbackStep]
    cases state.1.get? resource.coreId with
    | none => trivial
    | some prepared => exact uses_bind (call_uses ⟨trivial, trivial⟩) fun _ ↦ trivial
  refine uses_bind (call_uses ⟨trivial, trivial⟩) fun _ ↦ ?_
  refine uses_bind (propagate_uses (call_uses ⟨trivial, trivial⟩)) fun _ ↦ ?_
  exact uses_bind (cleanupWhen_uses _ _) fun _ ↦ trivial

theorem rejectInterrupted_uses (generation : ℕ) :
    (Reconciler.rejectInterrupted generation).Uses Op.isEarly := by
  refine uses_bind (propagate_uses (call_uses trivial)) fun journal ↦ ?_
  cases journal with
  | none => trivial
  | some j =>
    simp only
    split_ifs <;> trivial

theorem beginJournal_uses (applied : AppliedState) :
    (Reconciler.beginJournal desired applied).Uses Op.isEarly := by
  refine uses_bind (call_uses trivial) fun _ ↦ uses_bind (call_uses trivial) fun _ ↦ ?_
  exact uses_bind (propagate_uses (call_uses trivial)) fun _ ↦ trivial

theorem planTransaction_uses (applied : AppliedState) :
    (r.planTransaction desired secrets applied j).Uses Op.isEarly := by
  have hfail : ∀ {α : Type} (result : Except String α) (error : String),
      (orExit result (r.failWithoutMutation j error)).Uses Op.isEarly :=
    fun _ _ ↦ orExit_uses ((failWithoutMutation_uses _).mono fun _ ↦ And.left)
  refine uses_bind (uses_bind (uses_attempt ?_) fun result ↦ ?_) fun _ ↦ ?_
  · exact (r.validateGraph_uses desired applied).mono isEarly_of_isProbe
  · cases result with
    | ok => trivial
    | error m =>
      refine uses_bind (call_uses trivial) fun _ ↦ ?_
      exact uses_bind (propagate_uses (call_uses trivial)) fun _ ↦ trivial
  · refine uses_bind (uses_attempt ?_) fun built ↦ ?_
    · exact (r.buildPlans_uses desired secrets applied).mono isEarly_of_isProbe
    · exact uses_bind (hfail _ _) fun plans ↦ uses_bind (hfail _ _) fun _ ↦ trivial

theorem stageCore_uses (generation : ℕ)
    (state : JournalEntry × List (CoreAdapter × CorePlan × Path))
    (entry : String × CoreAdapter × CorePlan) :
    (r.stageCore generation state entry).Uses Op.isEarly := by
  refine uses_bind (propagate_uses (call_uses trivial)) fun _ ↦ ?_
  refine uses_bind (call_uses trivial) fun staged ↦ ?_
  refine uses_bind (orExit_uses ((failWithoutMutation_uses _).mono fun _ ↦ And.left)) fun _ ↦ ?_
  exact uses_bind (propagate_uses (call_uses trivial)) fun _ ↦ trivial

theorem validateCore_uses (journal : JournalEntry) (prepared : CoreAdapter × CorePlan × Path) :
    (r.validateCore journal prepared).Uses Op.isEarly := by
  refine uses_bind (call_uses trivial) fun validated ↦ ?_
  exact uses_bind (orExit_uses ((failWithoutMutation_uses _).mono fun _ ↦ And.left))
    fun _ ↦ trivial

theorem snapshotCore_uses (generation : ℕ) (state : JournalEntry × List PreparedCore)
    (prepared : CoreAdapter × CorePlan × Path) :
    (r.snapshotCore generation state prepared).Uses Op.isEarly := by
  refine uses_bind (call_uses trivial) fun taken ↦ ?_
  refine uses_bind (orExit_uses ((failWithoutMutation_uses _).mono fun _ ↦ And.left)) fun _ ↦ ?_
  exact uses_bind (propagate_uses (call_uses trivial)) fun _ ↦ trivial

theorem checkHealth_uses {generation : ℕ} {all : List PreparedCore} {prepared : PreparedCore} :
    (r.checkHealth generation all j prepared).Uses Op.isClosing := by
  rw [Reconciler.checkHealth]
  split_ifs
  · trivial
  · exact uses_bind (call_uses ⟨trivial, trivial⟩) fun _ ↦ orExit_uses (rollback_uses _ _ _)

theorem checkUsers_uses {generation : ℕ} {all : List PreparedCore} {prepared : PreparedCore} :
    (r.checkUsers generation all j prepared).Uses Op.isClosing := by
  rw [Reconciler.checkUsers]
  split_ifs
  · refine uses_bind (call_uses ⟨trivial, trivial⟩) fun observed ↦ ?_
    cases observationFailure observed with
    | none => trivial
    | some message => exact exitWith_uses (rollback_uses _ _ _)
  · trivial

theorem installCore_uses (generation : ℕ) (all : List PreparedCore) (journal : JournalEntry)
    (prepared : PreparedCore) :
    (r.installCore generation all journal prepared).Uses Op.isLate := by
  have hroll : ∀ {α : Type} (result : Except String α) (j : JournalEntry) (error : String),
      (orExit result (r.rollback generation all j error)).Uses Op.isLate :=
    fun _ _ _ ↦ orExit_uses ((rollback_uses _ _ _).mono fun _ ↦ And.right)
  have hsave : ∀ j : JournalEntry,
      (saveJournal j : Program Reply (Exit ReconcileOutcome) Unit).Uses Op.isLate :=
    fun _ ↦ propagate_uses (call_uses trivial)
  refine uses_bind ?_ fun j ↦ uses_bind (hsave _) fun _ ↦ ?_
  · rw [Reconciler.markStarted]
    cases updateResource prepared.plan.coreId _ journal.resources <;> trivial
  refine uses_bind (call_uses trivial) fun _ ↦ uses_bind (hroll _ _ _) fun _ ↦ ?_
  refine uses_bind (hsave _) fun _ ↦ ?_
  refine uses_bind (call_uses trivial) fun _ ↦ uses_bind (hroll _ _ _) fun _ ↦ ?_
  refine uses_bind (hsave _) fun _ ↦ ?_
  refine uses_bind (checkHealth_uses.mono fun _ ↦ And.right) fun _ ↦ ?_
  refine uses_bind (call_uses trivial) fun _ ↦ uses_bind (hroll _ _ _) fun _ ↦ ?_
  refine uses_bind (checkUsers_uses.mono fun _ ↦ And.right) fun _ ↦ ?_
  exact uses_bind (hsave _) fun _ ↦ trivial

theorem recoverResource_uses (generation : ℕ) (failed : Bool) (resource : JournalResource) :
    (r.recoverResource generation failed resource).Uses Op.isEarly := by
  rw [Reconciler.recoverResource]
  split_ifs
  · trivial
  · cases r.cores.get resource.coreId with
    | none => trivial
    | some core => exact uses_bind (call_uses trivial) fun _ ↦ trivial

theorem recoveryVerdict_uses (journal : JournalEntry) (applied : AppliedState) (primary : String)
    (failed : Bool) : (Reconciler.recoveryVerdict journal applied primary failed).Uses
      Op.isEarly := by
  rw [Reconciler.recoveryVerdict]
  split_ifs
  · trivial
  refine uses_bind ?_ fun restored ↦ ?_
  · rw [Reconciler.restoreApplied]
    split_ifs
    · exact propagate_uses (call_uses trivial)
    · trivial
  · cases restored <;> trivial

theorem recover_uses : r.recover.Uses Op.isEarly := by
  have hsave : ∀ j : JournalEntry, (saveJournal j :
      Program Reply (Exit (Option ReconcileOutcome)) Unit).Uses Op.isEarly :=
    fun _ ↦ propagate_uses (call_uses trivial)
  refine returning_uses (uses_bind (propagate_uses (call_uses trivial)) fun journal ↦ ?_)
  cases journal with
  | none => trivial
  | some j =>
    simp only
    by_cases ht : isTerminal j.status = true
    · rw [if_pos ht]
      exact uses_bind (call_uses trivial) fun _ ↦ trivial
    · rw [if_neg ht]
      refine uses_bind (propagate_uses (call_uses trivial)) fun applied ↦ ?_
      split_ifs
      · refine uses_bind (call_uses trivial) fun _ ↦ uses_bind (hsave _) fun _ ↦ ?_
        exact uses_bind (call_uses trivial) fun _ ↦ trivial
      · refine uses_bind (call_uses trivial) fun _ ↦ uses_bind (hsave _) fun _ ↦ ?_
        exact uses_bind (call_uses trivial) fun _ ↦ trivial
      · refine uses_bind (hsave _) fun _ ↦ ?_
        refine uses_bind (uses_foldlM (recoverResource_uses _)) fun failed ↦ ?_
        refine uses_bind (call_uses trivial) fun _ ↦ ?_
        refine uses_bind (recoveryVerdict_uses _ _ _ _) fun _ ↦ uses_bind (hsave _) fun _ ↦ ?_
        exact uses_bind ((cleanupWhen_uses _ _).mono fun _ ↦ And.left) fun _ ↦ trivial

theorem checkFresh_uses : (desiredGenerationIsCurrent desired.generation :
    Program Reply (Exit ρ) Bool).Uses (Op.checks desired.generation) :=
  propagate_uses (call_uses fun _ hg ↦ (Op.desiredGenerationIsCurrent.inj hg).symm)

theorem reconcile_checks :
    (r.reconcile desired secrets).Uses (Op.checks desired.generation) := by
  have early : ∀ {ρ α : Type} {p : Program Reply (Exit ρ) α}, p.Uses Op.isEarly →
      p.Uses (Op.checks desired.generation) := fun h ↦ h.mono fun _ ↦ Op.isEarly.checks
  have late : ∀ {ρ α : Type} {p : Program Reply (Exit ρ) α}, p.Uses Op.isLate →
      p.Uses (Op.checks desired.generation) := fun h ↦ h.mono fun _ ↦ Op.isLate.checks
  have closing : ∀ {ρ α : Type} {p : Program Reply (Exit ρ) α}, p.Uses Op.isClosing →
      p.Uses (Op.checks desired.generation) := fun h ↦ h.mono fun _ hop ↦ hop.1.checks
  have request : ∀ {ρ : Type} {op : Op}, op.isEarly →
      (Program.request op : Program Reply (Exit ρ) (Reply op)).Uses
        (Op.checks desired.generation) := fun h ↦ early (call_uses h)
  refine returning_uses (uses_bind (propagate_uses (request trivial)) fun applied ↦ ?_)
  split_ifs
  · trivial
  refine uses_bind (early (rejectInterrupted_uses _)) fun _ ↦ ?_
  refine uses_bind (early (beginJournal_uses _)) fun j ↦ ?_
  refine uses_bind (early (planTransaction_uses _)) fun plans ↦ ?_
  refine uses_bind ?_ fun prepared ↦ ?_
  · refine uses_bind (propagate_uses (request trivial)) fun _ ↦ ?_
    refine uses_bind (propagate_uses (request trivial)) fun _ ↦ ?_
    refine uses_bind (early (uses_foldlM (stageCore_uses _))) fun staged ↦ ?_
    refine uses_bind (early (uses_foldlM validateCore_uses)) fun j ↦ ?_
    refine uses_bind (propagate_uses (request trivial)) fun _ ↦ ?_
    refine uses_bind (early (uses_foldlM (snapshotCore_uses _))) fun taken ↦ ?_
    refine uses_bind (propagate_uses (request trivial)) fun _ ↦ uses_bind checkFresh_uses fun b ↦ ?_
    split_ifs
    · trivial
    · exact exitWith_uses (closing (failWithoutMutation_uses _))
  refine uses_bind (late (uses_foldlM (installCore_uses _ _))) fun j ↦ ?_
  refine uses_bind checkFresh_uses fun current ↦ ?_
  split_ifs
  · exact closing (rollback_uses _ _ _)
  refine uses_bind (propagate_uses (request trivial)) fun _ ↦ ?_
  refine uses_bind (propagate_uses (request trivial)) fun swapped ↦ ?_
  split_ifs
  · exact closing (rollback_uses _ _ _)
  refine uses_bind (request trivial) fun _ ↦ uses_bind (propagate_uses (request trivial)) fun _ ↦ ?_
  exact uses_bind (request trivial) fun _ ↦ trivial

end uses

def freshness (generation : ℕ) : Fence Reply where
  early := Op.isEarly
  token := ⟨.desiredGenerationIsCurrent generation, .ok true⟩
  late := Op.isLate
  guarded := fun op ↦ ¬op.isRecovery
  clear := fun _ h hop ↦ hop h.isRecovery

section walk

variable {S : Type} {step : S → (op : Op) → Reply op → S → Prop} {s : Traced Reply S}
variable {r : Reconciler} {desired : DesiredState} {secrets : SecretResolver}

theorem closing_unguarded {ρ α : Type} {p : Program Reply (Exit ρ) α}
    (h : p.Uses Op.isClosing) (generation : ℕ) :
    p.Uses fun op ↦ ¬(freshness generation).guarded op :=
  h.mono fun _ hop ↦ not_not.mpr hop.1.isRecovery

theorem publish_uses (applied : AppliedState) (plans : CorePlans) (all : List PreparedCore)
    (j : JournalEntry) : (r.publish desired applied plans all j).Uses Op.isRecovery := by
  have hrollback : ∀ error,
      (r.rollback desired.generation all j error).Uses Op.isRecovery :=
    fun _ ↦ (rollback_uses _ _ _).mono fun _ h ↦ h.1.isRecovery
  refine uses_bind (propagate_uses (call_uses trivial)) fun current ↦ ?_
  split_ifs
  · exact hrollback _
  refine uses_bind (propagate_uses (call_uses trivial)) fun _ ↦ ?_
  refine uses_bind (propagate_uses (call_uses trivial)) fun swapped ↦ ?_
  split_ifs
  · exact (rollback_uses _ _ _).mono fun _ h ↦ h.1.isRecovery
  refine uses_bind (call_uses trivial) fun _ ↦ ?_
  refine uses_bind (propagate_uses (call_uses trivial)) fun _ ↦ ?_
  exact uses_bind (call_uses trivial) fun _ ↦ trivial

theorem fenced_prepareTransaction {plans : CorePlans} {j : JournalEntry}
    (hs : (freshness desired.generation).Early s.log) :
    Safe (tracedStep step) (fun t ↦ (freshness desired.generation).Guards t.log)
      (fun _ t ↦ (freshness desired.generation).Guards t.log)
      (fun _ t ↦ (freshness desired.generation).Guards t.log ∧
        (freshness desired.generation).Passed t.log)
      (r.prepareTransaction desired plans j) s := by
  refine (Fence.safe_early (propagate_uses (call_uses trivial)) hs).seq fun _ _ hs ↦ ?_
  refine (Fence.safe_early (propagate_uses (call_uses trivial)) hs).seq fun _ _ hs ↦ ?_
  refine (Fence.safe_early (uses_foldlM (stageCore_uses _)) hs).seq fun staged _ hs ↦ ?_
  refine (Fence.safe_early (uses_foldlM validateCore_uses) hs).seq fun j _ hs ↦ ?_
  refine (Fence.safe_early (propagate_uses (call_uses trivial)) hs).seq fun _ _ hs ↦ ?_
  refine (Fence.safe_early (uses_foldlM (snapshotCore_uses _)) hs).seq fun taken _ hs ↦ ?_
  refine (Fence.safe_early (propagate_uses (call_uses trivial)) hs).seq fun _ u hs ↦ ?_
  refine ⟨hs.guards, fun current t ht ↦ ?_⟩
  have hg : (freshness desired.generation).Guards t.log := by
    rw [ht.2]
    exact hs.guards.concat fun h ↦ absurd trivial h
  cases current with
  | error m => exact ⟨hg, hg⟩
  | ok current =>
    cases current with
    | false =>
      refine (Fence.safe_unguarded (closing_unguarded (failWithoutMutation_uses _) _) hg).seq ?_
      exact fun _ _ hg ↦ ⟨hg, hg⟩
    | true =>
      refine ⟨hg, hg, ?_⟩
      rw [ht.2]
      exact hs.passed

theorem fenced_reconcile (hs : (freshness desired.generation).Early s.log) :
    Safe (tracedStep step) (fun t ↦ (freshness desired.generation).Guards t.log)
      (fun _ t ↦ (freshness desired.generation).Guards t.log)
      (fun _ t ↦ (freshness desired.generation).Guards t.log) (r.reconcile desired secrets) s := by
  refine safe_handle.mpr ?_
  refine Safe.mono (E := fun _ t ↦ (freshness desired.generation).Guards t.log) ?_ (fun _ ↦ id)
    (fun e t _ ht ↦ by cases e <;> exact ⟨ht, ht⟩) (fun _ _ _ ↦ id)
  refine (Fence.safe_early (propagate_uses (call_uses trivial)) hs).seq fun applied _ hs ↦ ?_
  split_ifs
  · exact ⟨hs.guards, hs.guards⟩
  refine (Fence.safe_early (rejectInterrupted_uses _) hs).seq fun _ _ hs ↦ ?_
  refine (Fence.safe_early (beginJournal_uses _) hs).seq fun j _ hs ↦ ?_
  refine (Fence.safe_early (planTransaction_uses _) hs).seq fun plans _ hs ↦ ?_
  refine (fenced_prepareTransaction hs).seq fun prepared _ ⟨hg, hs⟩ ↦ ?_
  refine (Fence.safe_late (uses_foldlM (installCore_uses _ _)) hg hs).seq fun j _ ⟨hg, _⟩ ↦ ?_
  exact Fence.safe_unguarded ((publish_uses _ _ _ _).mono fun _ ↦ not_not.mpr) hg

end walk

end StealthHub.Reconcile

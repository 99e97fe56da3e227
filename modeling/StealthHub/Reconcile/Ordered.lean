import StealthHub.Reconcile.Control
import StealthHub.Reconcile.WorkerSpec

set_option autoImplicit false

namespace StealthHub.Reconcile

open Effect Effect.Program

variable {L S : Type} {active : L → Bool}

def reconcilerPart (log : List (Σ op, WorkerReply op)) : List (Σ op, Reply op) :=
  log.filterMap fun
    | ⟨.reconciler op, r⟩ => some ⟨op, r⟩
    | _ => none

@[simp] theorem reconcilerPart_append (log log' : List (Σ op, WorkerReply op)) :
    reconcilerPart (log ++ log') = reconcilerPart log ++ reconcilerPart log' :=
  List.filterMap_append

@[simp] theorem reconcilerPart_cons (op : Op) (r : Reply op) (log : List (Σ op, WorkerReply op)) :
    reconcilerPart (⟨.reconciler op, r⟩ :: log) = ⟨op, r⟩ :: reconcilerPart log := rfl

theorem mem_reconcilerPart {op : Op} {r : Reply op} {log : List (Σ op, WorkerReply op)} :
    ⟨op, r⟩ ∈ reconcilerPart log ↔ ⟨.reconciler op, r⟩ ∈ log := by
  rw [reconcilerPart, List.mem_filterMap]
  constructor
  · intro ⟨⟨wop, wr⟩, he, hr⟩
    cases wop with
    | reconciler op' =>
      cases hr
      exact he
    | _ => cases hr
  · intro he
    exact ⟨_, he, rfl⟩

theorem split_of_reconcilerPart {op : Op} {r : Reply op} {log : List (Σ op, WorkerReply op)}
    {before after : List (Σ op, Reply op)} (h : reconcilerPart log = before ++ ⟨op, r⟩ :: after) :
    ∃ b c, log = b ++ ⟨.reconciler op, r⟩ :: c ∧ reconcilerPart b = before ∧
      reconcilerPart c = after := by
  obtain ⟨b, rest, rfl, hb, hrest⟩ := List.filterMap_eq_append_iff.mp h
  obtain ⟨skipped, ⟨wop, wr⟩, c, rfl, hskipped, hop, hc⟩ := List.filterMap_eq_cons_iff.mp hrest
  cases wop with
  | reconciler op' =>
    cases hop
    refine ⟨b ++ skipped, c, by simp, ?_, hc⟩
    rw [reconcilerPart_append, show reconcilerPart b = before from hb,
      show reconcilerPart skipped = [] from List.filterMap_eq_nil_iff.mpr hskipped,
      List.append_nil]
  | _ => cases hop

def WorkerOp.isUnguarded : WorkerOp → Prop
  | .reconciler op => op.isRecovery
  | _ => True

def WorkerOp.isEarly : WorkerOp → Prop
  | .reconciler op => op.isEarly
  | _ => True

def WorkerOp.isReport : WorkerOp → Prop
  | .reconciler op => op.isEarly
  | .markReconcileResult _ => True
  | _ => False

theorem WorkerOp.isReport.isEarly {op : WorkerOp} (h : op.isReport) : op.isEarly := by
  cases op with
  | reconciler op => exact h
  | _ => trivial

theorem WorkerOp.isAside.isEarly {op : WorkerOp} (h : op.isAside) : op.isEarly := by
  cases op with
  | reconciler op => cases op <;> trivial
  | _ => trivial

def Fenced (generation : ℕ) (log : List (Σ op, WorkerReply op)) : Prop :=
  (freshness generation).Guards (reconcilerPart log)

def Early (log : List (Σ op, WorkerReply op)) : Prop := ∀ e ∈ log, e.1.isEarly

theorem Early.part {log : List (Σ op, WorkerReply op)} (h : Early log) (generation : ℕ) :
    (freshness generation).Early (reconcilerPart log) :=
  fun ⟨_, _⟩ he ↦ h _ (mem_reconcilerPart.mp he)

theorem Early.fenced {log : List (Σ op, WorkerReply op)} (h : Early log) (generation : ℕ) :
    Fenced generation log := (h.part generation).guards

section walk

variable {step : S → (op : WorkerOp) → WorkerReply op → S → Prop} {s : Traced WorkerReply S}
variable {r : Reconciler} {desired : DesiredState} {secrets : SecretResolver} {α : Type}
variable {p : WorkerProgram α} {generation : ℕ}

theorem safe_earlyPart (hp : p.Uses WorkerOp.isEarly) (hs : Early s.log) :
    Safe (tracedStep step) (fun t ↦ Fenced generation t.log)
      (fun _ t ↦ Fenced generation t.log) (fun _ t ↦ Early t.log) p s := by
  refine (safe_recorded hp hs).mono (fun _ h ↦ Early.fenced h _) ?_ (fun _ _ _ ↦ id)
  intro e t _ ht
  exact Early.fenced ht _

theorem safe_unguardedPart (hp : p.Uses WorkerOp.isUnguarded) (hs : Fenced generation s.log) :
    Safe (tracedStep step) (fun t ↦ Fenced generation t.log)
      (fun _ t ↦ Fenced generation t.log) (fun _ t ↦ Fenced generation t.log) p s := by
  have hstep : ∀ (u : Traced WorkerReply S) op r t, op.isUnguarded → Fenced generation u.log →
      tracedStep step u op r t → Fenced generation t.log := by
    intro u op r t hop hu ht
    rw [ht.2, Fenced, reconcilerPart_append]
    cases op with
    | reconciler op => exact Fence.Guards.concat hu fun h ↦ absurd hop h
    | _ =>
      change (freshness generation).Guards (reconcilerPart u.log ++ [])
      rwa [List.append_nil]
  exact safe_of_uses hp hstep hs

theorem safe_reconcilePart (hs : Early s.log) :
    Safe (tracedStep step) (fun t ↦ Fenced desired.generation t.log)
      (fun _ t ↦ Fenced desired.generation t.log) (fun _ t ↦ Fenced desired.generation t.log)
      (perform (r.reconcile desired secrets)) s := by
  let part : Traced WorkerReply S → Traced Reply Unit := fun u ↦ ⟨(), reconcilerPart u.log⟩
  have hstep : ∀ (u : Traced WorkerReply S) op reply t, tracedStep step u (.reconciler op) reply t →
      tracedStep (fun _ _ _ _ ↦ True) (part u) op reply (part t) := by
    intro u op reply t ht
    refine ⟨trivial, ?_⟩
    change reconcilerPart t.log = _
    rw [ht.2]
    exact reconcilerPart_append _ _
  have h := @fenced_reconcile Unit (fun _ _ _ _ ↦ True) (part s) r desired secrets
    (hs.part desired.generation)
  exact @Safe.embed _ Reply _ _ _ _ _ WorkerReply _ _ WorkerOp.reconciler (fun _ r ↦ r) part
    _ _ _ hstep _ _ h

theorem WorkerOp.isEarly.isUnguarded {op : WorkerOp} (h : op.isEarly) : op.isUnguarded := by
  cases op with
  | reconciler op => exact Op.isEarly.isRecovery h
  | _ => trivial

theorem persistStatus_uses (status : ReconcileStatus) (error : Option String) :
    (persistStatus status error).Uses WorkerOp.isReport := by
  refine uses_bind (demand_uses (request_uses trivial)) fun journal ↦ ?_
  cases journal with
  | none => trivial
  | some j =>
    refine uses_bind (demand_uses (request_uses trivial)) fun applied ↦ ?_
    exact demand_uses (request_uses trivial)

theorem recoverInterrupted_uses : (recoverInterrupted r).Uses WorkerOp.isReport := by
  refine uses_bind (perform_uses recover_uses) fun recovery ↦ ?_
  cases recovery with
  | none => trivial
  | some recovery =>
    refine uses_bind (persistStatus_uses _ _) fun _ ↦ ?_
    split_ifs <;> trivial

theorem fenced_applyDesired (hs : Early s.log) :
    Safe (tracedStep step) (fun t ↦ Fenced desired.generation t.log)
      (fun _ t ↦ Fenced desired.generation t.log) (fun _ t ↦ Fenced desired.generation t.log)
      (applyDesired r desired secrets) s := by
  refine (safe_earlyPart (demand_uses (request_uses trivial)) hs).seq fun applied t hs ↦ ?_
  split_ifs
  · refine (safe_reconcilePart hs).seq fun outcome t hs ↦ ?_
    refine (safe_unguardedPart ?_ hs).seq fun _ t hs ↦ ⟨hs, hs⟩
    exact (persistStatus_uses _ _).mono fun _ h ↦ h.isEarly.isUnguarded
  · exact ⟨Early.fenced hs _, Early.fenced hs _⟩

theorem fenced_converge (hs : Early s.log) :
    Safe (tracedStep step) (fun t ↦ Fenced desired.generation t.log)
      (fun _ t ↦ Fenced desired.generation t.log) (fun _ t ↦ Fenced desired.generation t.log)
      (converge r desired) s := by
  have hrecover := (recoverInterrupted_uses (r := r)).mono fun _ ↦ WorkerOp.isReport.isEarly
  refine (safe_earlyPart hrecover hs).seq fun _ t hs ↦ ?_
  refine (safe_earlyPart (demand_uses (request_uses trivial)) hs).seq fun values t hs ↦ ?_
  refine (fenced_applyDesired hs).seq fun outcome t hs ↦ ?_
  refine (safe_unguardedPart ?_ hs).seq fun _ t hs ↦ ?_
  · exact (recordUserSync_uses _ _ _).mono fun _ h ↦ h.isEarly.isUnguarded
  · split_ifs <;> exact ⟨hs, hs⟩

end walk

/-- The requests of a run: all of them come before its check, or the run works on
the desired state that it loaded. -/
inductive Ordered (log : List (Σ op, WorkerReply op)) : Prop
  | early (h : Early log)
  | loaded (before : List (Σ op, WorkerReply op)) (desired : DesiredState)
      (after : List (Σ op, WorkerReply op))
      (split : log = before ++ ⟨.loadDesiredState, .ok desired⟩ :: after)
      (aside : ∀ e ∈ before, e.1.isAside)
      (fenced : Fenced desired.generation log)

theorem early_of_aside {log : List (Σ op, WorkerReply op)} (h : ∀ e ∈ log, e.1.isAside) :
    Early log := fun e he ↦ (h e he).isEarly

theorem early_load {log : List (Σ op, WorkerReply op)} (h : Early log)
    (r : WorkerReply .loadDesiredState) : Early (log ++ [⟨.loadDesiredState, r⟩]) := by
  intro e he
  rcases List.mem_append.mp he with he | he
  · exact h e he
  · rw [List.mem_singleton.mp he]
    trivial

theorem ordered_process (worker : Worker)
    {step : S → (op : WorkerOp) → WorkerReply op → S → Prop} (s : S) :
    Safe (tracedStep step) (fun t ↦ Ordered t.log) (fun _ t ↦ Ordered t.log)
      (fun _ t ↦ Ordered t.log) (process worker) ⟨s, []⟩ := by
  have haside : ∀ {α : Type} {p : WorkerProgram α} {u : Traced WorkerReply S},
      p.Uses WorkerOp.isAside → (∀ e ∈ u.log, e.1.isAside) →
      Safe (tracedStep step) (fun t ↦ Ordered t.log) (fun _ t ↦ Ordered t.log)
        (fun _ t ↦ ∀ e ∈ t.log, e.1.isAside) p u := by
    intro α p u hp hu
    refine (safe_recorded hp hu).mono (fun _ h ↦ .early (early_of_aside h)) ?_ (fun _ _ _ ↦ id)
    intro e t _ h
    exact .early (early_of_aside h)
  refine (haside (readRequest_uses.mono fun _ h ↦ h.isAside) fun _ he ↦ absurd he List.not_mem_nil).seq fun request t hs ↦ ?_
  refine (haside (demand_uses (request_uses trivial)) hs).seq fun _ t hs ↦ ?_
  refine ⟨.early (early_of_aside hs), fun loaded u hu ↦ ?_⟩
  have hearly : Early u.log := by
    rw [hu.2]
    exact early_load (early_of_aside hs) loaded
  cases loaded with
  | error m => exact ⟨.early hearly, .early hearly⟩
  | ok desired =>
    have hrest : Safe (tracedStep step) (fun t ↦ Fenced desired.generation t.log)
        (fun _ t ↦ Fenced desired.generation t.log) (fun _ t ↦ Fenced desired.generation t.log)
        ((worker.prepare request desired).bind fun x ↦ converge x.2 x.1) u := by
      have hprepare := (prepare_uses worker request desired).mono fun _ h ↦ h.isAside.isEarly
      refine ((safe_earlyPart hprepare hearly).returns
        (prepare_returns worker request desired)).seq fun x v ⟨hv, hx⟩ ↦ ?_
      rw [← hx]
      exact fenced_converge hv
    have hsplit : ∀ v : Traced WorkerReply S, Fenced desired.generation v.log →
        u.log <+: v.log → Ordered v.log := by
      intro v hv ⟨after, hafter⟩
      rw [hu.2, List.append_assoc] at hafter
      exact .loaded _ desired after hafter.symm hs hv
    refine hrest.logged.mono (fun v h ↦ hsplit v h.1 h.2) ?_ ?_
    · intro e v _ h
      exact hsplit v h.1 h.2
    · intro a v _ h
      exact hsplit v h.1 h.2

end StealthHub.Reconcile

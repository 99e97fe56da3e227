import StealthHub.Reconcile.Durable

set_option autoImplicit false

namespace StealthHub.Reconcile

open Effect Effect.Program

variable {L : Type} {active : L → Bool} {ρ α : Type}
variable {C : State L → Prop} {R : ρ → State L → Prop} {s s' : State L}

/-- What an early exit guarantees: nothing for an error, `R` for a return. -/
def exits (R : ρ → State L → Prop) : Exit ρ → State L → Prop
  | .error _, _ => True
  | .returned value, s => R value s

/-- A request that neither mutates anything nor touches store or snapshots. -/
structure Calm (s s' : State L) : Prop where
  inert : Inert s s'
  journal : s'.state.journal = s.state.journal
  snapshots : s'.state.snapshots = s.state.snapshots

/-- Only the journal has been replaced. -/
structure Saved (j : JournalEntry) (s s' : State L) : Prop where
  inert : Inert s s'
  journal : s'.state.journal = some j
  snapshots : s'.state.snapshots = s.state.snapshots
  record : ∃ result, s'.log = s.log ++ [⟨.saveJournal j, result⟩]

def Op.isCalm (op : Op) : Bool := op.isInert && op.keepsJournal && op.keepsSnapshots

theorem calm_of_step {op : Op} {r : Reply op} (h : tracedStep (step active) s op r s')
    (hop : op.isCalm) : Calm s s' := by
  simp only [Op.isCalm, Bool.and_eq_true] at hop
  exact ⟨inert_of_step h hop.1.1, step_keepsJournal h.1 hop.1.2, step_keepsSnapshots h.1 hop.2⟩

theorem Durable.calm {w₀ : World L} {generation : ℕ} (h : Durable w₀ generation s)
    (hc : Calm s s') : Durable w₀ generation s' := h.inert hc.inert hc.journal hc.snapshots

theorem saved_of_step {j : JournalEntry} {r : Except String Unit}
    (h : tracedStep (step active) s (.saveJournal j) r s') :
    Saved j s s' ∨ r.isOk = false ∧ Calm s s' := by
  have hi := inert_of_step h rfl
  have hk := step_keepsSnapshots h.1 rfl
  cases r with
  | ok => exact .inl ⟨hi, congrArg World.journal h.1, hk, _, h.2⟩
  | error =>
    rcases h.1 with hw | hw
    · exact .inr ⟨rfl, hi, congrArg World.journal hw, hk⟩
    · exact .inl ⟨hi, congrArg World.journal hw, hk, _, h.2⟩

theorem safe_propagate {p : Program Reply (Exit ρ) (Except String α)}
    {Q : α → State L → Prop}
    (h : Safe (tracedStep (step active)) C (exits R)
      (fun r t ↦ ∀ a, r = .ok a → Q a t) p s) :
    Safe (tracedStep (step active)) C (exits R) Q (propagate p) s := by
  rw [propagate, safe_bind]
  refine h.mono (fun _ ↦ id) (fun _ _ _ ↦ id) fun r t hC hQ ↦ ?_
  cases r with
  | ok a => exact ⟨hC, hQ a rfl⟩
  | error m => exact ⟨hC, trivial⟩

theorem safe_saveJournal {j : JournalEntry} {Q : Unit → State L → Prop} (hs : C s)
    (hold : ∀ s', Calm s s' → C s') (hnew : ∀ s', Saved j s s' → C s' ∧ Q () s') :
    Safe (tracedStep (step active)) C (exits R) Q (saveJournal j) s := by
  refine safe_propagate (safe_request hs fun r s' h ↦ ?_)
  rcases saved_of_step h with hsv | ⟨hr, hc⟩
  · exact ⟨(hnew s' hsv).1, fun a _ ↦ (hnew s' hsv).2⟩
  · refine ⟨hold s' hc, fun a ha ↦ ?_⟩
    rw [ha] at hr
    cases hr

theorem safe_calm {op : Op} {E : Exit ρ → State L → Prop} {Q : Reply op → State L → Prop}
    (hop : op.isCalm) (hs : C s)
    (h : ∀ r s', Calm s s' → ⟨op, r⟩ ∈ s'.log → C s' ∧ Q r s') :
    Safe (tracedStep (step active)) C E Q (request op : Program Reply (Exit ρ) (Reply op)) s :=
  safe_request hs fun r s' hr ↦ h r s' (calm_of_step hr hop) (by simp [hr.2])

theorem safe_now {Q : String → State L → Prop} (hs : C s)
    (h : ∀ r s', Calm s s' → C s' ∧ Q r s') :
    Safe (tracedStep (step active)) C (exits R) Q now s :=
  safe_calm rfl hs fun r s' hc _ ↦ h r s' hc

theorem safe_desiredGenerationIsCurrent {g : ℕ} {Q : Bool → State L → Prop} (hs : C s)
    (h : ∀ r s', Calm s s' → C s' ∧ Q r s') :
    Safe (tracedStep (step active)) C (exits R) Q (desiredGenerationIsCurrent g) s := by
  refine safe_propagate ?_
  refine safe_calm rfl hs fun r s' hc _ ↦ ?_
  cases r with
  | ok b => exact ⟨(h b s' hc).1, fun a ha ↦ by cases ha; exact (h b s' hc).2⟩
  | error m => exact ⟨(h true s' hc).1, fun a ha ↦ by cases ha⟩

theorem safe_exitWith {p : Program Reply (Exit ρ) ρ} {Q : α → State L → Prop}
    (h : Safe (tracedStep (step active)) C (exits R) R p s) :
    Safe (tracedStep (step active)) C (exits R) Q (exitWith p) s := by
  rw [exitWith, safe_bind]
  exact h.mono (fun _ ↦ id) (fun _ _ _ ↦ id) fun o t hC hR ↦ ⟨hC, hR⟩

theorem safe_orExit {result : Except String α} {p : Program Reply (Exit ρ) ρ}
    {Q : α → State L → Prop} (hok : ∀ a, result = .ok a → C s ∧ Q a s)
    (herr : ∀ m, result = .error m → Safe (tracedStep (step active)) C (exits R) R p s) :
    Safe (tracedStep (step active)) C (exits R) Q (orExit result p) s := by
  cases result with
  | ok a => exact hok a rfl
  | error m => exact safe_exitWith (herr m rfl)

theorem safe_returning {p : Program Reply (Exit ρ) ρ}
    (h : Safe (tracedStep (step active)) C (exits R) R p s) :
    Safe (tracedStep (step active)) C (fun _ _ ↦ True) R (returning p) s := by
  rw [returning, safe_handle]
  refine h.mono (fun _ ↦ id) (fun e t hC hE ↦ ?_) fun _ _ _ ↦ id
  cases e with
  | error m => exact ⟨hC, trivial⟩
  | returned o => exact ⟨hC, hE⟩

theorem safe_cleanup {r : Reconciler} {g : ℕ} {Q : Unit → State L → Prop} (hs : C s)
    (h : ∀ s', Inert s s' → s'.state.journal = s.state.journal → C s' ∧ Q () s') :
    Safe (tracedStep (step active)) C (exits R) Q (r.cleanup g) s :=
  safe_request hs fun _ s' hr ↦ h s' (inert_of_step hr rfl) (step_keepsJournal hr.1 rfl)

theorem safe_cleanupWhen {r : Reconciler} {finished : Bool} {g : ℕ} {Q : Unit → State L → Prop}
    (hs : C s) (hno : finished = false → Q () s)
    (h : finished = true → ∀ s', Inert s s' → s'.state.journal = s.state.journal →
      C s' ∧ Q () s') :
    Safe (tracedStep (step active)) C (exits R) Q (r.cleanupWhen finished g) s := by
  cases finished with
  | false => exact ⟨hs, hno rfl⟩
  | true => exact safe_cleanup hs (h rfl)

end StealthHub.Reconcile

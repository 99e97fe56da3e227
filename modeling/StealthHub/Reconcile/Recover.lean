import StealthHub.Reconcile.Transaction

set_option autoImplicit false

namespace StealthHub.Reconcile

open Effect Effect.Program

variable {L : Type} {active : L → Bool} {w₀ : World L} {s s' : State L} {r : Reconciler}

/-- A point of a recovery whose transaction did start installations: it is still
to be undone, it is taken over, or every core is back where it was. -/
inductive Recovering (w₀ : World L) (s : State L) : Prop
  | pending (j : JournalEntry)
      (journal : s.state.journal = some j)
      (status : j.status = .applying ∨ j.status = .recoveryRequired)
      (unpublished : s.state.applied.generation ≠ j.generation)
      (recoverable : Recoverable w₀ s j)
  | adopted (j : JournalEntry)
      (journal : s.state.journal = some j)
      (published : s.state.applied.generation = j.generation)
      (verified : ∀ core ∈ installCalls s.log, Verified s core)
      (status : j.status = .applied ∨
        j.status = .applying ∧ newStateWasFullyVerified j = true)
  | restored (j : JournalEntry)
      (journal : s.state.journal = some j)
      (terminal : isTerminal j.status = true)
      (restored : ∀ core ∈ installCalls s.log, Restored w₀ s core)

theorem Recovering.calm (h : Recovering w₀ s) (hc : Calm s s') : Recovering w₀ s' := by
  cases h with
  | pending j journal status unpublished recoverable =>
    exact .pending j (hc.journal.trans journal) status (by rwa [hc.inert.applied])
      (recoverable.inert hc.inert hc.snapshots)
  | adopted j journal published verified status =>
    refine .adopted j (hc.journal.trans journal) (by rw [hc.inert.applied, published]) ?_ status
    intro core hm
    exact (verified core (hc.inert.installCalls_eq ▸ hm)).inert hc.inert
  | restored j journal terminal restored =>
    refine .restored j (hc.journal.trans journal) terminal fun core hm ↦ ?_
    exact (restored core (hc.inert.installCalls_eq ▸ hm)).inert hc.inert

theorem Recovering.settled (h : Recovering w₀ s) (hi : Inert s s')
    (hj : s'.state.journal = s.state.journal)
    (ht : ∀ j, s.state.journal = some j → isTerminal j.status = true) : Recovering w₀ s' := by
  cases h with
  | pending j journal status =>
    have hjt := ht j journal
    rcases status with hst | hst <;> rw [hst] at hjt <;> cases hjt
  | adopted j journal published verified status =>
    refine .adopted j (hj.trans journal) (by rw [hi.applied, published]) ?_ status
    intro core hm
    exact (verified core (hi.installCalls_eq ▸ hm)).inert hi
  | restored j journal terminal restored =>
    refine .restored j (hj.trans journal) terminal fun core hm ↦ ?_
    exact (restored core (hi.installCalls_eq ▸ hm)).inert hi

def Op.isRecovery : Op → Prop
  | .installConfig _ _ => False
  | _ => True

theorem installCalls_of_recovery {op : Op} {result : Reply op} (hop : op.isRecovery)
    (h : tracedStep (step active) s op result s') : installCalls s'.log = installCalls s.log := by
  have he : installCall ⟨op, result⟩ = none := by
    cases op <;> first | rfl | cases hop
  rw [h.2, installCalls_append]
  simp [installCalls, he]

/-- No journal, a terminal one, or one that calls for the operator. -/
def Settled (s : State L) : Prop :=
  ∀ j, s.state.journal = some j → isTerminal j.status = true ∨ j.status = .recoveryRequired

section settled

variable {ρ : Type} {R : ρ → State L → Prop} {cores : List String}

theorem safe_recoveryRequest {op : Op} {Q : Reply op → State L → Prop} (hop : op.isRecovery)
    (h : installCalls s.log = cores)
    (hQ : ∀ result s', installCalls s'.log = cores → tracedStep (step active) s op result s' →
      Q result s') :
    Safe (tracedStep (step active)) (fun t ↦ installCalls t.log = cores) (exits R) Q
      (request op : Program Reply (Exit ρ) (Reply op)) s := by
  refine safe_request h fun result s' hs ↦ ?_
  have h' := (installCalls_of_recovery hop hs).trans h
  exact ⟨h', hQ result s' h' hs⟩

theorem safe_saveSettled {j : JournalEntry} {Q : Unit → State L → Prop}
    (h : installCalls s.log = cores)
    (hQ : ∀ s', installCalls s'.log = cores → s'.state.journal = some j → Q () s') :
    Safe (tracedStep (step active)) (fun t ↦ installCalls t.log = cores) (exits R) Q
      (saveJournal j) s := by
  refine safe_saveJournal h (fun s' hc ↦ hc.inert.installCalls_eq.trans h) fun s' hs ↦ ?_
  have h' := hs.inert.installCalls_eq.trans h
  exact ⟨h', hQ s' h' hs.journal⟩

theorem safe_cleanupSettled {j : JournalEntry} (finished : Bool) {g : ℕ}
    (h : installCalls s.log = cores) (hj : s.state.journal = some j) :
    Safe (tracedStep (step active)) (fun t ↦ installCalls t.log = cores) (exits R)
      (fun _ t ↦ installCalls t.log = cores ∧ t.state.journal = some j)
      (r.cleanupWhen finished g) s := by
  refine safe_cleanupWhen h (fun _ ↦ ⟨h, hj⟩) fun _ s' hi hk ↦ ?_
  have h' := hi.installCalls_eq.trans h
  exact ⟨h', h', hk.trans hj⟩

theorem settled_of {j : JournalEntry} (hj : s.state.journal = some j)
    (h : isTerminal j.status = true ∨ j.status = .recoveryRequired) : Settled s := by
  intro j' hj'
  rw [hj] at hj'
  rwa [← Option.some.inj hj']

end settled

section settle

variable {R : Option ReconcileOutcome → State L → Prop} {cores : List String} {j : JournalEntry}

theorem safe_adopt_settled (h : installCalls s.log = cores) :
    Safe (tracedStep (step active)) (fun t ↦ installCalls t.log = cores) (exits R)
      (fun _ t ↦ Settled t) (r.adopt j) s := by
  simp only [Reconciler.adopt, bind_eq, safe_bind]
  refine safe_recoveryRequest trivial h fun completedAt s₁ h₁ _ ↦ ?_
  refine safe_saveSettled h₁ fun s₂ h₂ hj₂ ↦ ?_
  refine (safe_cleanupSettled true h₂ hj₂).mono (fun _ ↦ id) (fun _ _ _ ↦ id)
    fun _ s₃ _ ⟨h₃, hj₃⟩ ↦ ⟨h₃, settled_of hj₃ (.inl rfl)⟩

theorem safe_failInterrupted_settled (h : installCalls s.log = cores) :
    Safe (tracedStep (step active)) (fun t ↦ installCalls t.log = cores) (exits R)
      (fun _ t ↦ Settled t) (r.failInterrupted j) s := by
  simp only [Reconciler.failInterrupted, bind_eq, safe_bind]
  refine safe_recoveryRequest trivial h fun completedAt s₁ h₁ _ ↦ ?_
  refine safe_saveSettled h₁ fun s₂ h₂ hj₂ ↦ ?_
  refine (safe_cleanupSettled true h₂ hj₂).mono (fun _ ↦ id) (fun _ _ _ ↦ id)
    fun _ s₃ _ ⟨h₃, hj₃⟩ ↦ ⟨h₃, settled_of hj₃ (.inl rfl)⟩

theorem safe_recoverResource_installs {g : ℕ} {failed : Bool} {resource : JournalResource}
    (h : installCalls s.log = cores) :
    Safe (tracedStep (step active)) (fun t ↦ installCalls t.log = cores) (exits R)
      (fun _ t ↦ installCalls t.log = cores) (r.recoverResource g failed resource) s := by
  rw [Reconciler.recoverResource]
  split_ifs
  · exact ⟨h, h⟩
  · cases r.cores.get resource.coreId with
    | none => exact ⟨h, h⟩
    | some core =>
      simp only [bind_eq, safe_bind]
      exact safe_recoveryRequest trivial h fun _ s₁ h₁ _ ↦ ⟨h₁, h₁⟩

theorem safe_recoveryVerdict_settled {applied : AppliedState} {primary : String} {failed : Bool}
    (h : installCalls s.log = cores) :
    Safe (tracedStep (step active)) (fun t ↦ installCalls t.log = cores) (exits R)
      (fun j' t ↦ installCalls t.log = cores ∧
        (isTerminal j'.status = true ∨ j'.status = .recoveryRequired))
      (Reconciler.recoveryVerdict j applied primary failed) s := by
  rw [Reconciler.recoveryVerdict]
  split_ifs
  · exact ⟨h, h, .inr rfl⟩
  · have hend : ∀ (b : Bool) (t : State L), installCalls t.log = cores →
        Safe (tracedStep (step active)) (fun t ↦ installCalls t.log = cores) (exits R)
          (fun j' t ↦ installCalls t.log = cores ∧
            (isTerminal j'.status = true ∨ j'.status = .recoveryRequired))
          (if b then pure { j with
              phase := .rolledBack
              status := .rolledBack
              error := some (failureWithRollbackOutcome primary "recovery rollback verified") }
            else pure (recoveryFailed j primary
              "recovery rollback verified but applied generation changed concurrently")) t := by
      intro b t ht
      cases b
      · exact ⟨ht, ht, .inr rfl⟩
      · exact ⟨ht, ht, .inl rfl⟩
    rw [bind_eq, safe_bind, Reconciler.restoreApplied]
    split_ifs
    · refine safe_propagate (safe_recoveryRequest trivial h fun _ t ht _ b _ ↦ hend b t ht)
    · exact ⟨h, hend _ s h⟩

theorem safe_rollBackInterrupted_settled {applied : AppliedState}
    {resources : List JournalResource} (h : installCalls s.log = cores) :
    Safe (tracedStep (step active)) (fun t ↦ installCalls t.log = cores) (exits R)
      (fun _ t ↦ Settled t) (r.rollBackInterrupted j applied resources) s := by
  simp only [Reconciler.rollBackInterrupted, bind_eq, safe_bind]
  refine safe_saveSettled h fun s₁ h₁ _ ↦ ?_
  refine (safe_foldlM (fun _ _ t ↦ installCalls t.log = cores)
    (fun _ _ _ _ _ _ ht ↦ safe_recoverResource_installs ht) (fun _ _ ↦ id) h₁).mono (fun _ ↦ id)
    (fun _ _ _ ↦ id) fun failed s₂ _ h₂ ↦ ?_
  refine safe_recoveryRequest trivial h₂ fun completedAt s₃ h₃ _ ↦ ?_
  refine (safe_recoveryVerdict_settled h₃).mono (fun _ ↦ id) (fun _ _ _ ↦ id)
    fun j₄ s₄ _ ⟨h₄, hstatus⟩ ↦ ?_
  refine safe_saveSettled h₄ fun s₅ h₅ hj₅ ↦ ?_
  refine (safe_cleanupSettled _ h₅ hj₅).mono (fun _ ↦ id) (fun _ _ _ ↦ id)
    fun _ s₆ _ ⟨h₆, hj₆⟩ ↦ ⟨h₆, settled_of hj₆ hstatus⟩

theorem safe_recover_settled (h : installCalls s.log = cores) :
    Safe (tracedStep (step active)) (fun t ↦ installCalls t.log = cores) (fun _ _ ↦ True)
      (fun _ t ↦ Settled t) r.recover s := by
  refine safe_returning ?_
  simp only [bind_eq, safe_bind]
  refine safe_propagate (safe_recoveryRequest trivial h fun _ s₁ h₁ hs₁ journal hj ↦ ?_)
  subst hj
  obtain ⟨⟨hj₁, hw₁⟩, -⟩ := hs₁
  cases journal with
  | none => exact ⟨h₁, fun j hj ↦ by rw [hw₁, ← hj₁] at hj; cases hj⟩
  | some j =>
    have hj₁' : s₁.state.journal = some j := by rw [hw₁, ← hj₁]
    simp only
    by_cases ht : isTerminal j.status = true
    · rw [if_pos ht, safe_bind]
      refine (safe_cleanupSettled true h₁ hj₁').mono (fun _ ↦ id) (fun _ _ _ ↦ id)
        fun _ s₃ _ ⟨h₃, hj₃⟩ ↦ ⟨h₃, settled_of hj₃ (.inl ht)⟩
    · rw [if_neg ht, safe_bind]
      refine safe_propagate (safe_recoveryRequest trivial h₁ fun _ s₂ h₂ _ applied _ ↦ ?_)
      split_ifs
      · exact safe_adopt_settled h₂
      · exact safe_failInterrupted_settled h₂
      · exact safe_rollBackInterrupted_settled h₂

end settle

section undo

variable {R : Option ReconcileOutcome → State L → Prop} {j : JournalEntry}

/-- The loop of a recovery by rollback, after it went over `handled`. -/
structure Undoing (w₀ : World L) (j : JournalEntry) (handled : List JournalResource)
    (failed : Bool) (s : State L) : Prop where
  journal : s.state.journal = some j
  unpublished : s.state.applied.generation ≠ j.generation
  recoverable : Recoverable w₀ s j
  restored : failed = false → ∀ resource ∈ handled, Restored w₀ s resource.coreId

theorem Undoing.recovering {handled : List JournalResource} {failed : Bool}
    (h : Undoing w₀ j handled failed s) (hj : j.status = .applying) : Recovering w₀ s :=
  .pending j h.journal (.inl hj) h.unpublished h.recoverable

theorem safe_recoverResource {handled : List JournalResource} {failed : Bool}
    {resource : JournalResource} {g : ℕ} (h : Undoing w₀ j handled failed s)
    (hj : j.status = .applying) (hr : resource ∈ j.resources) :
    Safe (tracedStep (step active)) (Recovering w₀) (exits R)
      (Undoing w₀ j (handled ++ [resource])) (r.recoverResource g failed resource) s := by
  have hskip : Undoing w₀ j (handled ++ [resource]) true s :=
    ⟨h.journal, h.unpublished, h.recoverable, nofun⟩
  rw [Reconciler.recoverResource]
  split_ifs with hvalid
  · exact ⟨h.recovering hj, hskip⟩
  cases hg : r.cores.get resource.coreId with
  | none => exact ⟨h.recovering hj, hskip⟩
  | some core =>
    have hid : core.manifest.id = resource.coreId := r.cores.keyed _ _ hg
    simp only [bind_eq, safe_bind]
    refine safe_request (h.recovering hj) fun result s' hs ↦ ?_
    rw [hid] at hs
    have hjournal := step_keepsJournal hs.1 rfl
    have hsnapshots := step_keepsSnapshots hs.1 rfl
    have hsub : s.log ⊆ s'.log := hs.2 ▸ List.subset_append_left _ _
    obtain ⟨l, hl⟩ : ∃ l, s'.state = s.state.setLive resource.coreId l := by
      cases result with
      | ok => exact hs.1.imp fun _ h ↦ h.2
      | error => exact hs.1
    have hinstalls : installCalls s'.log = installCalls s.log :=
      installCalls_of_recovery (show Op.isRecovery (.rollbackConfig _ _) from trivial) hs
    have hnext : Undoing w₀ j (handled ++ [resource]) (failed || !result.isOk) s' := by
      refine ⟨hjournal.trans h.journal, by rw [hl]; exact h.unpublished,
        ⟨fun core hc ↦ h.recoverable.marked core (hinstalls ▸ hc),
          fun x hx ↦ (h.recoverable.kept x hx).mono hsub hsnapshots⟩, fun hor x hx ↦ ?_⟩
      obtain ⟨hf, hok⟩ := Bool.or_eq_false_iff.mp hor
      cases result with
      | error => simp [Except.isOk, Except.toBool] at hok
      | ok =>
        -- this core was just restored; the earlier ones are other cores or this one again
        by_cases hc : x.coreId = resource.coreId
        · rw [hc]
          exact .of_rollback (h.recoverable.kept resource hr) hs
        · have hx : x ∈ handled := by
            rcases List.mem_append.mp hx with hx | hx
            · exact hx
            · exact absurd (congrArg JournalResource.coreId (List.mem_singleton.mp hx)) hc
          refine (h.restored hf x hx).other hs.2 (by simpa [mutated] using Ne.symm hc) ?_
          rw [hl]
          exact Function.update_of_ne hc _ _
    exact ⟨hnext.recovering hj, hnext.recovering hj, hnext⟩

theorem Undoing.calm {handled : List JournalResource} {failed : Bool}
    (h : Undoing w₀ j handled failed s) (hc : Calm s s') : Undoing w₀ j handled failed s' :=
  ⟨hc.journal.trans h.journal, by rw [hc.inert.applied]; exact h.unpublished,
    h.recoverable.inert hc.inert hc.snapshots,
    fun hf x hx ↦ (h.restored hf x hx).inert hc.inert⟩

theorem safe_recoveryVerdict {C : State L → Prop} {applied : AppliedState} {primary : String}
    {failed : Bool} (h : C s) (hu : applied.generation ≠ j.generation) :
    Safe (tracedStep (step active)) C (exits R)
      (fun j' t ↦ t = s ∧ ∃ phase status error,
        j' = { j with phase := phase, status := status, error := error } ∧
        (status = .recoveryRequired ∨ status = .rolledBack ∧ failed = false))
      (Reconciler.recoveryVerdict j applied primary failed) s := by
  rw [Reconciler.recoveryVerdict]
  cases failed with
  | true => exact ⟨h, rfl, _, _, _, rfl, .inl rfl⟩
  | false =>
    simp only [Bool.false_eq_true, if_false, bind_eq, safe_bind]
    rw [Reconciler.restoreApplied, if_neg hu]
    refine ⟨h, ?_⟩
    cases decide (applied.generation = j.previousGeneration)
    · exact ⟨h, rfl, _, _, _, rfl, .inl rfl⟩
    · exact ⟨h, rfl, _, _, _, rfl, .inr ⟨rfl, trivial⟩⟩

theorem safe_rollBackInterrupted {applied : AppliedState} (ha : applied = s.state.applied)
    (hstatus : j.status = .applying ∨ j.status = .recoveryRequired)
    (hj : s.state.journal = some j) (hu : s.state.applied.generation ≠ j.generation)
    (hr : Recoverable w₀ s j) :
    Safe (tracedStep (step active)) (Recovering w₀) (exits R) (fun _ ↦ Recovering w₀)
      (r.rollBackInterrupted j applied (mutatedResourcesInRollbackOrder j)) s := by
  have hrec : Recovering w₀ s := .pending j hj hstatus hu hr
  simp only [Reconciler.rollBackInterrupted, bind_eq, safe_bind]
  set j₁ : JournalEntry := { j with
    phase := .rollbackStarted
    status := .applying
    error := some (j.error.getD "interrupted transaction") } with hj₁
  refine safe_saveJournal hrec (fun s' hc ↦ hrec.calm hc) fun s₁ hs₁ ↦ ?_
  have h₁ : Undoing w₀ j₁ [] false s₁ :=
    ⟨hs₁.journal, by rw [hs₁.inert.applied]; exact hu,
      ⟨hr.inert hs₁.inert hs₁.snapshots |>.marked, hr.inert hs₁.inert hs₁.snapshots |>.kept⟩,
      by simp⟩
  refine ⟨h₁.recovering rfl, ?_⟩
  refine (safe_foldlM (fun handled failed t ↦ Undoing w₀ j₁ handled failed t)
    (fun handled x rest failed t hl ht ↦ ?_) (fun _ _ ht ↦ ht.recovering rfl) h₁).mono
    (fun _ ↦ id) (fun _ _ _ ↦ id) fun failed s₂ _ h₂ ↦ ?_
  · have hx : x ∈ mutatedResourcesInRollbackOrder j := by simp [hl]
    exact safe_recoverResource ht rfl (List.mem_reverse.mp (List.mem_of_mem_filter hx))
  refine safe_now (h₂.recovering rfl) fun completedAt s₃ hc₃ ↦ ⟨(h₂.calm hc₃).recovering rfl, ?_⟩
  have h₃ := h₂.calm hc₃
  set j₂ : JournalEntry := { j₁ with currentCoreId := none, completedAt := some completedAt }
  refine (safe_recoveryVerdict (h₃.recovering rfl) (by rw [ha]; exact hu)).mono (fun _ ↦ id)
    (fun _ _ _ ↦ id) fun j₄ s₄ hrec₄ ⟨hs₄, phase, status, error, hj₄, hverdict⟩ ↦ ?_
  subst hs₄ hj₄
  have hnext : ∀ s₅, Saved { j₂ with phase := phase, status := status, error := error } s₄ s₅ →
      Recovering w₀ s₅ := by
    intro s₅ hs₅
    have hrecover := h₃.recoverable.inert hs₅.inert hs₅.snapshots
    rcases hverdict with hst | ⟨hst, hf⟩
    · refine .pending _ hs₅.journal (.inr hst) ?_ ⟨hrecover.marked, hrecover.kept⟩
      rw [hs₅.inert.applied]
      exact h₃.unpublished
    · refine .restored _ hs₅.journal (by simp [hst, isTerminal]) fun core hc ↦ ?_
      -- every started core has a marked resource, and each of those was handled
      obtain ⟨x, hx, rfl, hstarted⟩ := hrecover.marked core hc
      refine (h₃.restored hf x ?_).inert hs₅.inert
      exact List.mem_filter.mpr ⟨List.mem_reverse.mpr hx, hstarted⟩
  refine safe_saveJournal hrec₄ (fun s' hc ↦ hrec₄.calm hc) fun s₅ hs₅ ↦ ?_
  have hrec₅ := hnext s₅ hs₅
  refine ⟨hrec₅, safe_cleanupWhen hrec₅ (fun _ ↦ ⟨hrec₅, hrec₅⟩) fun hfinished s₆ hi₆ hj₆ ↦ ?_⟩
  have hrec₆ : Recovering w₀ s₆ := by
    refine hrec₅.settled hi₆ hj₆ fun j' hj' ↦ ?_
    rw [hs₅.journal] at hj'
    rw [← Option.some.inj hj']
    rcases of_decide_eq_true hfinished with hst | hst | hst <;> rw [hst] <;> rfl
  exact ⟨hrec₆, hrec₆, hrec₆⟩

theorem safe_adopt (h : Recovering w₀ s) (hp : s.state.applied.generation = j.generation)
    (hv : ∀ core ∈ installCalls s.log, Verified s core) :
    Safe (tracedStep (step active)) (Recovering w₀) (exits R) (fun _ ↦ Recovering w₀)
      (r.adopt j) s := by
  simp only [Reconciler.adopt, bind_eq, safe_bind]
  refine safe_now h fun completedAt s₁ hc₁ ↦ ⟨h.calm hc₁, ?_⟩
  refine safe_saveJournal (h.calm hc₁) (fun s' hc ↦ (h.calm hc₁).calm hc) fun s₂ hs₂ ↦ ?_
  have hi := hc₁.inert.trans hs₂.inert
  have h₂ : Recovering w₀ s₂ := by
    refine .adopted _ hs₂.journal (by rw [hi.applied]; exact hp) (fun core hc ↦ ?_) (.inl rfl)
    rw [hi.installCalls_eq] at hc
    exact (hv core hc).inert hi
  refine ⟨h₂, safe_cleanup h₂ fun s₃ hi₃ hj₃ ↦ ?_⟩
  have h₃ : Recovering w₀ s₃ := by
    refine h₂.settled hi₃ hj₃ fun j' hj' ↦ ?_
    rw [hs₂.journal] at hj'
    rw [← Option.some.inj hj']
    rfl
  exact ⟨h₃, h₃, h₃⟩

theorem safe_failInterrupted (h : Recovering w₀ s) (hn : installCalls s.log = []) :
    Safe (tracedStep (step active)) (Recovering w₀) (exits R) (fun _ ↦ Recovering w₀)
      (r.failInterrupted j) s := by
  simp only [Reconciler.failInterrupted, bind_eq, safe_bind]
  refine safe_now h fun completedAt s₁ hc₁ ↦ ⟨h.calm hc₁, ?_⟩
  refine safe_saveJournal (h.calm hc₁) (fun s' hc ↦ (h.calm hc₁).calm hc) fun s₂ hs₂ ↦ ?_
  have hn₂ : installCalls s₂.log = [] := by
    rw [hs₂.inert.installCalls_eq, hc₁.inert.installCalls_eq, hn]
  have h₂ : Recovering w₀ s₂ := .restored _ hs₂.journal rfl (by simp [hn₂])
  refine ⟨h₂, safe_cleanup h₂ fun s₃ hi₃ hj₃ ↦ ?_⟩
  have h₃ : Recovering w₀ s₃ := by
    refine .restored _ (hj₃.trans hs₂.journal) rfl ?_
    rw [hi₃.installCalls_eq, hn₂]
    simp
  exact ⟨h₃, h₃, h₃⟩

theorem safe_recover (h : Recovering w₀ s) :
    Safe (tracedStep (step active)) (Recovering w₀) (fun _ _ ↦ True) (fun _ ↦ Recovering w₀)
      r.recover s := by
  refine safe_returning ?_
  simp only [bind_eq, safe_bind]
  refine safe_propagate (safe_request h fun loaded s₁ hs₁ ↦ ?_)
  have hc₁ : Calm s s₁ := calm_of_step hs₁ rfl
  refine ⟨h.calm hc₁, fun journal hj ↦ ?_⟩
  subst hj
  have hj₁ : s₁.state.journal = journal := hc₁.journal.trans hs₁.1.1.symm
  have h₁ := h.calm hc₁
  cases journal with
  | none => exact ⟨h₁, h₁⟩
  | some j =>
    simp only
    by_cases ht : isTerminal j.status = true
    · rw [if_pos ht, safe_bind]
      refine safe_cleanup h₁ fun s₂ hi₂ hj₂ ↦ ?_
      have h₂ : Recovering w₀ s₂ := h₁.settled hi₂ hj₂ fun j' hj' ↦ by
        rw [hj₁] at hj'
        rwa [← Option.some.inj hj']
      exact ⟨h₂, h₂, h₂⟩
    rw [if_neg ht, safe_bind]
    refine safe_propagate (safe_request h₁ fun loaded s₂ hs₂ ↦ ?_)
    have hc₂ : Calm s₁ s₂ := calm_of_step hs₂ rfl
    refine ⟨h₁.calm hc₂, fun applied ha ↦ ?_⟩
    subst ha
    have hj₂ : s₂.state.journal = some j := hc₂.journal.trans hj₁
    have ha₂ : applied = s₂.state.applied := hs₂.1.1.trans hc₂.inert.applied.symm
    have h₂ := h₁.calm hc₂
    cases h₁.calm hc₂ with
    | pending j' hj' status unpublished recoverable =>
      obtain rfl : j' = j := Option.some.inj (hj'.symm.trans hj₂)
      rw [ha₂, if_neg fun hadopt ↦ unpublished hadopt.1]
      split_ifs with hnone
      · refine safe_failInterrupted h₂ (List.eq_nil_iff_forall_not_mem.mpr fun core hc ↦ ?_)
        obtain ⟨x, hx, -, hstarted⟩ := recoverable.marked core hc
        have hm : x ∈ mutatedResourcesInRollbackOrder j' :=
          List.mem_filter.mpr ⟨List.mem_reverse.mpr hx, hstarted⟩
        rw [List.isEmpty_iff.mp hnone] at hm
        cases hm
      · exact safe_rollBackInterrupted rfl status hj₂ unpublished recoverable
    | adopted j' hj' published verified status =>
      obtain rfl : j' = j := Option.some.inj (hj'.symm.trans hj₂)
      rcases status with hst | ⟨-, hfull⟩
      · rw [hst] at ht
        exact absurd rfl ht
      · rw [ha₂, if_pos ⟨published, .inr hfull⟩]
        exact safe_adopt h₂ published verified
    | restored j' hj' terminal restored =>
      obtain rfl : j' = j := Option.some.inj (hj'.symm.trans hj₂)
      exact absurd terminal ht

end undo

end StealthHub.Reconcile

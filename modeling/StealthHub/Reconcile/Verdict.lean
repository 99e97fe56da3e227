import StealthHub.Reconcile.Outcome

set_option autoImplicit false

namespace StealthHub.Reconcile

open Effect Effect.Program

variable {L : Type} {active : L → Bool} {r : Reconciler} {desired : DesiredState}
variable {secrets : SecretResolver} {w w' w₀ : World L} {s s' : State L} {j : JournalEntry}

/-- The applied state is the one the journal's transaction started from. -/
structure Previous (w : World L) (j : JournalEntry) : Prop where
  applied : w.applied = ⟨j.previousGeneration, j.previousActiveCoreIds⟩
  newer : j.previousGeneration < j.generation

theorem Previous.unpublished (h : Previous w j) : w.applied.generation ≠ j.generation := by
  rw [h.applied]
  exact ne_of_lt h.newer

/-- Publication took place, and the journal has not been completed yet. -/
structure Publishing (w : World L) (j : JournalEntry) : Prop where
  applied : w.applied.generation = j.generation
  phase : j.phase = .publishing
  verified : ∀ resource ∈ j.resources, resource.mutationStarted = true → resource.verified = true

def Coherent (w : World L) : Prop :=
  ∀ j, w.journal = some j → isTerminal j.status = false → Previous w j ∨ Publishing w j

/-- The store files that restarts of one worker can leave, from an empty directory. -/
inductive Reachable (active : L → Bool) (r : Reconciler) : World L → Prop
  | fresh {w : World L} : w.applied = .default → w.journal = none → Reachable active r w
  | reconcile {w w' : World L} (desired : DesiredState) (secrets : SecretResolver) :
      Reachable active r w → Stops (step active) (r.reconcile desired secrets) w w' →
      Reachable active r w'
  | recover {w w' : World L} :
      Reachable active r w → Stops (step active) r.recover w w' → Reachable active r w'

/-- The journal of a transaction without any core, stopped between the
publication of its generation and its last journal write. -/
def EmptyPublication (w : World L) : Prop :=
  ∃ j, w.journal = some j ∧ isTerminal j.status = false ∧ j.phase = .publishing ∧
    j.resources = [] ∧ w.applied.generation = j.generation

/-- What the recovery reports is what the store says. -/
structure Agrees (o : ReconcileOutcome) (j : JournalEntry) (w : World L) : Prop where
  applied : o.status = .applied ↔ w.applied.generation = j.generation
  previous : o.status = .failed ∨ o.status = .rolledBack →
    w.applied = ⟨j.previousGeneration, j.previousActiveCoreIds⟩

theorem Previous.own {generation : ℕ} (ho : Own w₀ generation j) (ha : w.applied = w₀.applied) :
    Previous w j := by
  refine ⟨?_, ?_⟩
  · rw [ha, ho.previousGeneration, ho.previousActive]
  · rw [ho.previousGeneration, ho.target]
    exact ho.newer

theorem Durable.coherent {generation : ℕ} (h : Durable w₀ generation s) (hc : Coherent w₀) :
    Coherent s.state := by
  intro j hj ht
  have hsame : ∀ j', s.state.journal = some j' → j' = j := fun j' hj' ↦
    Option.some.inj (hj'.symm.trans hj)
  cases h with
  | before quiet journal =>
    rcases journal with hold | ⟨j', hj', own, -⟩
    · rcases hc j (hold ▸ hj) ht with hp | hp
      · exact .inl ⟨quiet.applied.trans hp.applied, hp.newer⟩
      · exact .inr ⟨by rw [quiet.applied, hp.applied], hp.phase, hp.verified⟩
    · rw [← hsame j' hj']
      exact .inl (.own own quiet.applied)
  | installing j' hj' own status applied recoverable =>
    rw [← hsame j' hj']
    exact .inl (.own own applied)
  | published j' hj' own applied verified adoptable =>
    obtain rfl := hsame j' hj'
    rcases adoptable with hst | hadopt
    · rw [hst] at ht
      cases ht
    · exact .inr ⟨applied.trans own.target.symm, hadopt.phase, hadopt.verified⟩
  | rollingBack j' hj' own status phase applied restored =>
    rw [← hsame j' hj']
    exact .inl (.own own applied)
  | rolledBack j' hj' own status applied restored =>
    rw [← hsame j' hj']
    exact .inl (.own own applied)
  | recoveryRequired j' hj' own status applied recoverable =>
    rw [← hsame j' hj']
    exact .inl (.own own applied)

theorem Coherent.of_eq (h : Coherent w) (ha : w'.applied = w.applied)
    (hj : w'.journal = w.journal) : Coherent w' := by
  intro j hj' ht
  rcases h j (hj ▸ hj') ht with hp | hp
  · exact .inl ⟨ha.trans hp.applied, hp.newer⟩
  · exact .inr ⟨by rw [ha, hp.applied], hp.phase, hp.verified⟩

def CoherentAt (s : State L) : Prop := Coherent s.state

theorem CoherentAt.keep (h : CoherentAt s) (ha : s'.state.applied = s.state.applied)
    (hj : s'.state.journal = s.state.journal) : CoherentAt s' := Coherent.of_eq h ha hj

theorem CoherentAt.calm (h : CoherentAt s) (hc : Calm s s') : CoherentAt s' :=
  h.keep hc.inert.applied hc.journal

theorem CoherentAt.of_terminal (hj : s.state.journal = some j)
    (ht : isTerminal j.status = true) : CoherentAt s := by
  intro j' hj' hn
  rw [hj] at hj'
  rw [← Option.some.inj hj', ht] at hn
  cases hn

theorem CoherentAt.of_previous (hj : s.state.journal = some j) (h : Previous s.state j) :
    CoherentAt s := by
  intro j' hj' _
  rw [hj] at hj'
  rw [← Option.some.inj hj']
  exact .inl h

section recover

variable {R : Option ReconcileOutcome → State L → Prop}

theorem safe_recoverResource_store {g : ℕ} {failed : Bool} {resource : JournalResource}
    (hc : CoherentAt s) :
    Safe (tracedStep (step active)) CoherentAt (exits R)
      (fun _ t ↦ CoherentAt t ∧ t.state.applied = s.state.applied)
      (r.recoverResource g failed resource) s := by
  rw [Reconciler.recoverResource]
  split_ifs
  · exact ⟨hc, hc, rfl⟩
  cases r.cores.get resource.coreId with
  | none => exact ⟨hc, hc, rfl⟩
  | some core =>
    simp only [bind_eq, safe_bind]
    refine safe_request hc fun result t ht ↦ ?_
    have hjournal := step_keepsJournal ht.1 rfl
    have happlied : t.state.applied = s.state.applied := by
      cases result with
      | ok => exact ht.1.choose_spec.2 ▸ rfl
      | error => exact ht.1.choose_spec ▸ rfl
    have hct := hc.keep happlied hjournal
    exact ⟨hct, hct, hct, happlied⟩

theorem Agrees.of_previous {o : ReconcileOutcome} (h : Previous w j) (ho : o.status ≠ .applied) :
    Agrees o j w :=
  ⟨⟨fun hst ↦ absurd hst ho, fun hg ↦ absurd hg h.unpublished⟩, fun _ ↦ h.applied⟩

/-- What the caller of `recover` may rely on. -/
def Verdict (w : World L) (result : Option ReconcileOutcome) (t : State L) : Prop :=
  ∀ o, result = some o → o.status ≠ .recoveryRequired →
    ∃ j, w.journal = some j ∧ Agrees o j t.state

theorem safe_adopt_verdict (hj : s.state.journal = some j) (hw : s.state = w)
    (hc : CoherentAt s) (hp : s.state.applied.generation = j.generation) :
    Safe (tracedStep (step active)) CoherentAt (exits (Verdict w)) (Verdict w)
      (r.adopt j) s := by
  simp only [Reconciler.adopt, bind_eq, safe_bind]
  refine safe_now hc fun completedAt s₁ hc₁ ↦ ⟨hc.calm hc₁, ?_⟩
  refine safe_saveJournal (hc.calm hc₁) (fun t ht ↦ (hc.calm hc₁).calm ht) fun s₂ hs₂ ↦ ?_
  have hc₂ : CoherentAt s₂ := .of_terminal hs₂.journal rfl
  refine ⟨hc₂, safe_cleanup hc₂ fun s₃ hi₃ hj₃ ↦ ?_⟩
  have hc₃ : CoherentAt s₃ := hc₂.keep hi₃.applied hj₃
  refine ⟨hc₃, hc₃, fun o ho _ ↦ ⟨j, by rw [← hw, hj], ?_⟩⟩
  have happlied : s₃.state.applied = s.state.applied :=
    hi₃.applied.trans (hs₂.inert.applied.trans hc₁.inert.applied)
  rw [← Option.some.inj ho]
  exact ⟨⟨fun _ ↦ by rw [happlied, hp], fun _ ↦ rfl⟩, fun hst ↦ by simp at hst⟩

theorem safe_failInterrupted_verdict (hj : s.state.journal = some j) (hw : s.state = w)
    (hc : CoherentAt s) :
    Safe (tracedStep (step active)) CoherentAt
      (exits fun result t ↦ Previous w j → Verdict w result t)
      (fun result t ↦ Previous w j → Verdict w result t) (r.failInterrupted j) s := by
  simp only [Reconciler.failInterrupted, bind_eq, safe_bind]
  refine safe_now hc fun completedAt s₁ hc₁ ↦ ⟨hc.calm hc₁, ?_⟩
  refine safe_saveJournal (hc.calm hc₁) (fun t ht ↦ (hc.calm hc₁).calm ht) fun s₂ hs₂ ↦ ?_
  have hc₂ : CoherentAt s₂ := .of_terminal hs₂.journal rfl
  refine ⟨hc₂, safe_cleanup hc₂ fun s₃ hi₃ hj₃ ↦ ?_⟩
  have hc₃ : CoherentAt s₃ := hc₂.keep hi₃.applied hj₃
  refine ⟨hc₃, hc₃, fun hprev o ho _ ↦ ⟨j, by rw [← hw, hj], ?_⟩⟩
  have happlied : s₃.state.applied = w.applied := by
    rw [hi₃.applied, hs₂.inert.applied, hc₁.inert.applied, hw]
  rw [← Option.some.inj ho]
  exact .of_previous ⟨happlied.trans hprev.applied, hprev.newer⟩ fun hst ↦ by cases hst

theorem safe_rollBackInterrupted_verdict {applied : AppliedState} (hj : s.state.journal = some j)
    (hw : s.state = w) (ha : applied = s.state.applied) (hc : CoherentAt s)
    (hp : Previous w j) {resources : List JournalResource} :
    Safe (tracedStep (step active)) CoherentAt (exits (Verdict w)) (Verdict w)
      (r.rollBackInterrupted j applied resources) s := by
  subst hw
  simp only [Reconciler.rollBackInterrupted, bind_eq, safe_bind]
  have hprev : ∀ (t : State L) (j' : JournalEntry), t.state.applied = s.state.applied →
      j'.generation = j.generation → j'.previousGeneration = j.previousGeneration →
      j'.previousActiveCoreIds = j.previousActiveCoreIds → Previous t.state j' :=
    fun t j' h₁ h₂ h₃ h₄ ↦ ⟨by rw [h₁, h₃, h₄, hp.applied], by rw [h₂, h₃]; exact hp.newer⟩
  set j₁ : JournalEntry := { j with
    phase := .rollbackStarted
    status := .applying
    error := some (j.error.getD "interrupted transaction") }
  refine safe_saveJournal hc (fun t ht ↦ hc.calm ht) fun s₁ hs₁ ↦ ?_
  have hc₁ : CoherentAt s₁ :=
    .of_previous hs₁.journal (hprev s₁ _ hs₁.inert.applied rfl rfl rfl)
  refine ⟨hc₁, ?_⟩
  refine (safe_foldlM (fun _ _ t ↦ CoherentAt t ∧ t.state.applied = s.state.applied)
    (fun _ _ _ _ t _ ht ↦ ?_) (fun _ _ ht ↦ ht.1) ⟨hc₁, hs₁.inert.applied⟩).mono (fun _ ↦ id)
    (fun _ _ _ ↦ id) fun failed s₂ _ hs₂ ↦ ?_
  · exact (safe_recoverResource_store ht.1).mono (fun _ ↦ id) (fun _ _ _ ↦ id)
      fun _ _ _ hu ↦ ⟨hu.1, hu.2.trans ht.2⟩
  obtain ⟨hc₂, ha₂⟩ := hs₂
  refine safe_now hc₂ fun completedAt s₃ hc₃ ↦ ⟨hc₂.calm hc₃, ?_⟩
  have ha₃ : s₃.state.applied = s.state.applied := hc₃.inert.applied.trans ha₂
  set j₂ : JournalEntry := { j₁ with currentCoreId := none, completedAt := some completedAt }
  have hu : applied.generation ≠ j₂.generation := by
    rw [ha]
    exact hp.unpublished
  refine (safe_recoveryVerdict (hc₂.calm hc₃) hu).mono (fun _ ↦ id) (fun _ _ _ ↦ id)
    fun j₄ s₄ (hc₄ : CoherentAt s₄) hs₄ ↦ ?_
  obtain ⟨rfl, phase, status, error, rfl, hverdict⟩ := hs₄
  refine safe_saveJournal hc₄ (fun t ht ↦ hc₄.calm ht) fun s₅ hs₅ ↦ ?_
  have ha₅ : s₅.state.applied = s.state.applied := hs₅.inert.applied.trans ha₃
  have hc₅ : CoherentAt s₅ := .of_previous hs₅.journal (hprev s₅ _ ha₅ rfl rfl rfl)
  have hfinal : ∀ t : State L, t.state.applied = s.state.applied →
      Verdict s.state (some (outcomeOf j.generation
        { j with status := status, error := error })) t := by
    intro t hat o ho hrequired
    refine ⟨j, hj, ?_⟩
    rw [← Option.some.inj ho] at hrequired ⊢
    refine .of_previous ⟨hat.trans hp.applied, hp.newer⟩ fun hst ↦ ?_
    rcases hverdict with hs | ⟨hs, -⟩ <;> cases hs.symm.trans hst
  refine ⟨hc₅, safe_cleanupWhen hc₅ (fun _ ↦ ⟨hc₅, hfinal s₅ ha₅⟩) fun _ s₆ hi₆ hj₆ ↦ ?_⟩
  have hc₆ : CoherentAt s₆ := hc₅.keep hi₆.applied hj₆
  exact ⟨hc₆, hc₆, hfinal s₆ (hi₆.applied.trans ha₅)⟩

theorem resources_eq_nil {j : JournalEntry} (h : ∀ x ∈ j.resources, x.mutationStarted = true →
    x.verified = true) (hn : newStateWasFullyVerified j = false) : j.resources = [] := by
  by_contra hne
  have hfull : newStateWasFullyVerified j = true := by
    simp only [newStateWasFullyVerified, Bool.and_eq_true, Bool.not_eq_true', List.all_eq_true,
      List.mem_filter, List.isEmpty_eq_false_iff]
    exact ⟨hne, fun x hx ↦ h x hx.1 hx.2⟩
  rw [hn] at hfull
  cases hfull

theorem safe_recover_verdict (hc : CoherentAt s) :
    Safe (tracedStep (step active)) CoherentAt (fun _ _ ↦ True)
      (fun result t ↦ ¬EmptyPublication s.state → Verdict s.state result t) r.recover s := by
  refine safe_returning ?_
  simp only [bind_eq, safe_bind]
  refine safe_propagate (safe_request hc fun loaded s₁ hs₁ ↦ ?_)
  have hcalm₁ : Calm s s₁ := calm_of_step hs₁ rfl
  refine ⟨hc.calm hcalm₁, fun journal hj ↦ ?_⟩
  subst hj
  obtain ⟨hj₁, hw₁⟩ := hs₁.1
  have hc₁ := hc.calm hcalm₁
  have hnone : ∀ t : State L, Verdict s.state none t := fun t o ho ↦ by cases ho
  cases journal with
  | none => exact ⟨hc₁, fun _ ↦ hnone s₁⟩
  | some j =>
    simp only
    by_cases ht : isTerminal j.status = true
    · rw [if_pos ht, safe_bind]
      refine safe_cleanup hc₁ fun s₂ hi₂ hj₂ ↦ ?_
      have hc₂ : CoherentAt s₂ := hc₁.keep hi₂.applied hj₂
      exact ⟨hc₂, hc₂, fun _ ↦ hnone s₂⟩
    rw [if_neg ht, safe_bind]
    refine safe_propagate (safe_request hc₁ fun loaded s₂ hs₂ ↦ ?_)
    refine ⟨hc₁.calm (calm_of_step hs₂ rfl), fun applied ha ↦ ?_⟩
    subst ha
    obtain ⟨ha₂, hw₂⟩ := hs₂.1
    have hw : s₂.state = s.state := hw₂.trans hw₁
    have hj₂ : s₂.state.journal = some j := by rw [hw, hj₁]
    have hc₂ : CoherentAt s₂ := by
      unfold CoherentAt
      rwa [hw]
    rw [ha₂, ← hw₂]
    rcases hc₂ j hj₂ (by simpa using ht) with hp | hp
    · rw [if_neg fun hadopt ↦ hp.unpublished hadopt.1]
      split_ifs
      · refine (safe_failInterrupted_verdict hj₂ hw hc₂).mono (fun _ ↦ id) (fun e t _ he ↦ ?_)
          fun _ _ _ hv _ ↦ hv (hw ▸ hp)
        cases e with
        | error => trivial
        | returned => exact fun _ ↦ he (hw ▸ hp)
      · refine (safe_rollBackInterrupted_verdict hj₂ hw rfl hc₂ (hw ▸ hp)).mono (fun _ ↦ id)
          (fun e t _ he ↦ ?_) fun _ _ _ hv _ ↦ hv
        cases e with
        | error => trivial
        | returned => exact fun _ ↦ he
    · cases hfull : newStateWasFullyVerified j with
      | true =>
        rw [if_pos ⟨hp.applied, .inr rfl⟩]
        refine (safe_adopt_verdict hj₂ hw hc₂ hp.applied).mono (fun _ ↦ id)
          (fun e t _ he ↦ ?_) fun _ _ _ hv _ ↦ hv
        cases e with
        | error => trivial
        | returned => exact fun _ ↦ he
      | false =>
        -- only an empty transaction gets here, and it is wrongly reported as failed
        have hempty := resources_eq_nil hp.verified hfull
        have hpub : EmptyPublication s.state :=
          ⟨j, by rw [hj₁], by simpa using ht, hp.phase, hempty, by rw [← hw]; exact hp.applied⟩
        have hadopt : ¬(s₂.state.applied.generation = j.generation ∧
            (j.phase = .published ∨ false = true)) := by
          simp [hp.phase]
        rw [if_neg hadopt, mutatedResourcesInRollbackOrder, hempty]
        refine (safe_failInterrupted_verdict hj₂ hw hc₂).mono (fun _ ↦ id) (fun e t _ _ ↦ ?_)
          fun _ _ _ _ hno ↦ absurd hpub hno
        cases e with
        | error => trivial
        | returned => exact fun hno ↦ absurd hpub hno

end recover

theorem Reachable.coherent (h : Reachable active r w) : Coherent w := by
  induction h with
  | fresh happlied hjournal =>
    intro j hj
    rw [hjournal] at hj
    cases hj
  | reconcile desired secrets _ hstop ih =>
    obtain ⟨q, hrun⟩ := hstop
    obtain ⟨log, hrun⟩ := hrun.traced []
    exact ((safe_reconcile rfl rfl).stops ⟨q, hrun⟩).coherent ih
  | @recover w w' _ hstop ih =>
    obtain ⟨q, hrun⟩ := hstop
    obtain ⟨log, hrun⟩ := hrun.traced []
    exact (safe_recover_verdict (show CoherentAt ⟨w, []⟩ from ih)).stops ⟨q, hrun⟩

theorem recover_of_emptyPublication (h : EmptyPublication w) :
    ∃ o w', Completes (step active) r.recover w (some o) w' ∧ o.status = .failed ∧
      w'.applied = w.applied := by
  obtain ⟨j, hj, ht, hphase, hempty, happlied⟩ := h
  have hload : step active w .loadJournal (.ok (some j)) w := ⟨hj.symm, rfl⟩
  have happ : step active w .loadApplied (.ok w.applied) w := ⟨rfl, rfl⟩
  have hfull : newStateWasFullyVerified j = false := by simp [newStateWasFullyVerified, hempty]
  have hadopt : ¬(w.applied.generation = j.generation ∧
      (j.phase = .published ∨ newStateWasFullyVerified j = true)) := by simp [hphase, hfull]
  have hnone : (mutatedResourcesInRollbackOrder j).isEmpty = true := by
    simp [mutatedResourcesInRollbackOrder, hempty]
  let j' : JournalEntry := { j with
    status := .failed
    error := some "interrupted before live mutation"
    completedAt := some "" }
  let w' : World L := { w with journal := some j' }
  have hnow : step active w .now "" w := rfl
  have hsave : step active w (.saveJournal j') (.ok ()) w' := rfl
  have hclean : step active w' (.cleanupTransactionDirectory (r.transactionDir j.generation)) ()
      w' := .refl _ _
  refine ⟨outcomeOf j.generation j', w', .call hload ?_, rfl, rfl⟩
  simp only [Except.mapError, lift, done_bind, ht, Bool.false_eq_true, if_false]
  refine .call happ ?_
  simp only [Except.mapError, lift, done_bind, if_neg hadopt, if_pos hnone]
  exact .call hnow (.call hsave (.call hclean (.stop _ _)))

theorem EmptyPublication.misjudged (h : EmptyPublication w) :
    ¬∀ o w', Completes (step active) r.recover w (some o) w' → o.status ≠ .recoveryRequired →
      ∃ j, w.journal = some j ∧ Agrees o j w' := by
  intro hall
  obtain ⟨o, w', hrun, hst, happlied⟩ := recover_of_emptyPublication (r := r) h
  obtain ⟨j, hj, hagrees⟩ := hall o w' hrun (by simp [hst])
  obtain ⟨j', hj', -, -, -, hpub⟩ := h
  obtain rfl : j' = j := Option.some.inj (hj'.symm.trans hj)
  have happlied := hagrees.applied.mpr (by rw [happlied, hpub])
  rw [hst] at happlied
  cases happlied

/-- The verdict of a recovery agrees with the store exactly when the recovery
does not start from the publication of an empty plan. -/
theorem recovery_verdict_iff (h : Reachable active r w) :
    (∀ o w', Completes (step active) r.recover w (some o) w' → o.status ≠ .recoveryRequired →
      ∃ j, w.journal = some j ∧ Agrees o j w') ↔ ¬EmptyPublication w := by
  refine ⟨fun hall hempty ↦ hempty.misjudged hall, fun hno o w' hrun hrequired ↦ ?_⟩
  obtain ⟨log, hrun⟩ := hrun.traced []
  have hc : CoherentAt ⟨w, []⟩ := h.coherent
  exact (safe_recover_verdict hc).completes hrun hno o rfl hrequired

def emptyDesired : DesiredState := { loneDesired with infrastructure := [] }

def stoppedAfterPublication : World Bool :=
  (exec (loneHost true) 13 (loneCore.reconcile emptyDesired noSecrets) loneWorld).2

theorem stoppedAfterPublication_reachable : Reachable id loneCore stoppedAfterPublication :=
  .reconcile emptyDesired noSecrets (.fresh rfl rfl)
    ⟨_, exec_run (loneHost_step true) _ _ _⟩

theorem stoppedAfterPublication_empty : EmptyPublication stoppedAfterPublication := by
  refine ⟨stoppedAfterPublication.journal.get (by decide), ?_, ?_, ?_, ?_, ?_⟩
  · simp
  · decide
  · decide
  · decide
  · decide

theorem empty_publication_misjudged :
    Reachable id loneCore stoppedAfterPublication ∧
    ¬∀ o w', Completes (step id) loneCore.recover stoppedAfterPublication (some o) w' →
      o.status ≠ .recoveryRequired →
      ∃ j, stoppedAfterPublication.journal = some j ∧ Agrees o j w' :=
  ⟨stoppedAfterPublication_reachable, stoppedAfterPublication_empty.misjudged⟩

def stoppedAfterInstall : World Bool :=
  (exec (loneHost true) 27 (loneCore.reconcile loneDesired noSecrets) loneWorld).2

theorem recovery_verdict_iff_lone : stoppedAfterInstall.applied.generation = 1 ∧
    ∀ o w', Completes (step id) loneCore.recover stoppedAfterInstall (some o) w' →
      o.status ≠ .recoveryRequired →
        ∃ j, stoppedAfterInstall.journal = some j ∧ Agrees o j w' := by
  have hreachable : Reachable id loneCore stoppedAfterInstall :=
    .reconcile loneDesired noSecrets (.fresh rfl rfl) ⟨_, exec_run (loneHost_step true) _ _ _⟩
  have hnonempty : ¬EmptyPublication stoppedAfterInstall := by
    rintro ⟨j, hj, -, -, hempty, -⟩
    have hmutated : ∀ j ∈ stoppedAfterInstall.journal, j.resources ≠ [] := by decide
    exact hmutated j hj hempty
  exact ⟨by decide, (recovery_verdict_iff hreachable).mpr hnonempty⟩

end StealthHub.Reconcile

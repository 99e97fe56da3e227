import StealthHub.Effect.Interleave
import StealthHub.Reconcile.Verdict

set_option autoImplicit false

namespace StealthHub.Reconcile

open Effect Effect.Program

variable {L : Type} {active : L → Bool} {r : Reconciler} {desired : DesiredState}
variable {secrets : SecretResolver} {w w' w₀ : World L} {s s' : State L} {j : JournalEntry}
variable {bound : ℕ}

/-- The applied generation is the one the transaction started from or its own. -/
structure Filed (w : World L) (j : JournalEntry) : Prop where
  newer : j.previousGeneration < j.generation
  applied : w.applied.generation = j.previousGeneration ∨ w.applied.generation = j.generation

/-- Files that only know of generations up to a bound. -/
structure Bounded (bound : ℕ) (w : World L) : Prop where
  fresh : w.journal = none → w.applied.generation = 0
  filed : ∀ j, w.journal = some j → Filed w j
  bounded : ∀ j, w.journal = some j → j.generation ≤ bound

theorem Bounded.mono {bound' : ℕ} (h : Bounded bound w) (hb : bound ≤ bound') :
    Bounded bound' w :=
  ⟨h.fresh, h.filed, fun j hj ↦ (h.bounded j hj).trans hb⟩

theorem Bounded.applied_le (h : Bounded bound w) : w.applied.generation ≤ bound := by
  cases hj : w.journal with
  | none =>
    rw [h.fresh hj]
    exact Nat.zero_le _
  | some j =>
    have hb := h.bounded j hj
    obtain ⟨hn, ha⟩ := h.filed j hj
    omega

theorem Bounded.of_journal (hj : w.journal = some j) (hf : Filed w j)
    (hb : j.generation ≤ bound) : Bounded bound w := by
  refine ⟨fun hn ↦ ?_, fun j' hj' ↦ ?_, fun j' hj' ↦ ?_⟩
  · rw [hj] at hn
    cases hn
  · rw [hj] at hj'
    rwa [← Option.some.inj hj']
  · rw [hj] at hj'
    rwa [← Option.some.inj hj']

theorem Bounded.of_eq (h : Bounded bound w)
    (ha : w'.applied.generation = w.applied.generation) (hj : w'.journal = w.journal) :
    Bounded bound w' := by
  refine ⟨fun hn ↦ ?_, fun j hj' ↦ ?_, fun j hj' ↦ h.bounded j (hj ▸ hj')⟩
  · rw [ha, h.fresh (hj ▸ hn)]
  · obtain ⟨hn, happ⟩ := h.filed j (hj ▸ hj')
    exact ⟨hn, by rwa [ha]⟩

def BoundedAt (bound : ℕ) (s : State L) : Prop := Bounded bound s.state

theorem BoundedAt.calm (h : BoundedAt bound s) (hc : Calm s s') : BoundedAt bound s' :=
  Bounded.of_eq h (by rw [hc.inert.applied]) hc.journal

theorem BoundedAt.saved {j' : JournalEntry} (h : BoundedAt bound s)
    (hj : s.state.journal = some j) (hs : Saved j' s s') (hg : j'.generation = j.generation)
    (hp : j'.previousGeneration = j.previousGeneration) : BoundedAt bound s' := by
  obtain ⟨hn, ha⟩ := h.filed j hj
  refine Bounded.of_journal hs.journal ⟨by rwa [hg, hp], ?_⟩ (hg ▸ h.bounded j hj)
  rwa [hs.inert.applied, hg, hp]

def Hollow (j : JournalEntry) : Prop := j.phase ≠ .published ∧ j.resources = []

/-- What a recovery that closes the transaction leaves behind. The generation of
a hollow transaction stays published, and is nevertheless reported as failed. -/
structure Closed (w : World L) (j : JournalEntry) (o : ReconcileOutcome) (w' : World L) :
    Prop where
  journal : ∃ j', w'.journal = some j' ∧ j'.generation = j.generation ∧
    isTerminal j'.status = true
  judged : w'.applied.generation = j.generation →
    w.applied.generation = j.generation ∧ (o.status = .applied ↔ ¬Hollow j)
  hollow : w.applied.generation = j.generation → Hollow j → w'.applied.generation = j.generation

def Recovered (w : World L) : Option ReconcileOutcome → World L → Prop
  | none, w' => (∀ j, w.journal = some j → isTerminal j.status = true) ∧
      w'.applied = w.applied ∧ w'.journal = w.journal
  | some o, w' => ∃ j, w.journal = some j ∧ isTerminal j.status = false ∧
      (o.status ≠ .recoveryRequired → Closed w j o w')

section recover

variable {R Q : Option ReconcileOutcome → State L → Prop}

theorem safe_close (close : String → JournalEntry) (report : JournalEntry → ReconcileOutcome)
    (h : BoundedAt bound s) (hj : s.state.journal = some j)
    (hg : ∀ time, (close time).generation = j.generation)
    (hp : ∀ time, (close time).previousGeneration = j.previousGeneration)
    (hQ : ∀ time t, t.state.applied = s.state.applied → t.state.journal = some (close time) →
      Q (some (report (close time))) t) :
    Safe (tracedStep (step active)) (BoundedAt bound) (exits R) Q
      (do
        let completedAt ← now
        saveJournal (close completedAt)
        r.cleanup (close completedAt).generation
        pure (some (report (close completedAt)))) s := by
  simp only [bind_eq, safe_bind]
  refine safe_now h fun completedAt s₁ hc₁ ↦ ⟨h.calm hc₁, ?_⟩
  have h₁ := h.calm hc₁
  have hj₁ : s₁.state.journal = some j := hc₁.journal.trans hj
  refine safe_saveJournal h₁ (fun t ht ↦ h₁.calm ht) fun s₂ hs₂ ↦ ?_
  have h₂ := h₁.saved hj₁ hs₂ (hg completedAt) (hp completedAt)
  refine ⟨h₂, safe_cleanup h₂ fun s₃ hi₃ hj₃ ↦ ?_⟩
  have h₃ : BoundedAt bound s₃ := Bounded.of_eq h₂ (by rw [hi₃.applied]) hj₃
  refine ⟨h₃, h₃, hQ completedAt s₃ ?_ (hj₃.trans hs₂.journal)⟩
  rw [hi₃.applied, hs₂.inert.applied, hc₁.inert.applied]

theorem safe_recoverResource_files {g : ℕ} {failed : Bool} {resource : JournalResource}
    (h : BoundedAt bound s) (hj : s.state.journal = some j) :
    Safe (tracedStep (step active)) (BoundedAt bound) (exits R)
      (fun _ t ↦ BoundedAt bound t ∧ t.state.journal = some j ∧
        t.state.applied = s.state.applied)
      (r.recoverResource g failed resource) s := by
  rw [Reconciler.recoverResource]
  split_ifs
  · exact ⟨h, h, hj, rfl⟩
  cases r.cores.get resource.coreId with
  | none => exact ⟨h, h, hj, rfl⟩
  | some core =>
    simp only [bind_eq, safe_bind]
    refine safe_request h fun result t ht ↦ ?_
    have hjournal := step_keepsJournal ht.1 rfl
    have happlied : t.state.applied = s.state.applied := by
      cases result with
      | ok => exact ht.1.choose_spec.2 ▸ rfl
      | error => exact ht.1.choose_spec ▸ rfl
    have ht' : BoundedAt bound t := Bounded.of_eq h (by rw [happlied]) hjournal
    exact ⟨ht', ht', ht', hjournal.trans hj, happlied⟩

theorem safe_recoveryVerdict_files {stored : JournalEntry} {applied : AppliedState}
    {primary : String} {failed : Bool} (h : BoundedAt bound s)
    (hj : s.state.journal = some stored) (hg : j.generation = stored.generation)
    (hp : j.previousGeneration = stored.previousGeneration) (ha : applied = s.state.applied) :
    Safe (tracedStep (step active)) (BoundedAt bound) (exits R)
      (fun j' t ↦ BoundedAt bound t ∧ t.state.journal = some stored ∧
        j'.generation = stored.generation ∧ j'.previousGeneration = stored.previousGeneration ∧
        (j'.status = .recoveryRequired ∨
          j'.status = .rolledBack ∧ t.state.applied.generation = stored.previousGeneration))
      (Reconciler.recoveryVerdict j applied primary failed) s := by
  have hf := h.filed stored hj
  have hb := h.bounded stored hj
  rw [Reconciler.recoveryVerdict]
  split_ifs with hfailed
  · exact ⟨h, h, hj, hg, hp, .inl rfl⟩
  have hend : ∀ (restored : Bool) (t : State L), BoundedAt bound t →
      t.state.journal = some stored →
      (restored = true → t.state.applied.generation = stored.previousGeneration) →
      Safe (tracedStep (step active)) (BoundedAt bound) (exits R)
        (fun j' t ↦ BoundedAt bound t ∧ t.state.journal = some stored ∧
          j'.generation = stored.generation ∧
          j'.previousGeneration = stored.previousGeneration ∧
          (j'.status = .recoveryRequired ∨
            j'.status = .rolledBack ∧ t.state.applied.generation = stored.previousGeneration))
        (if restored then pure { j with
            phase := .rolledBack
            status := .rolledBack
            error := some (failureWithRollbackOutcome primary "recovery rollback verified") }
          else pure (recoveryFailed j primary
            "recovery rollback verified but applied generation changed concurrently")) t := by
    intro restored t ht hjt hgen
    cases restored with
    | false => exact ⟨ht, ht, hjt, hg, hp, .inl rfl⟩
    | true => exact ⟨ht, ht, hjt, hg, hp, .inr ⟨rfl, hgen rfl⟩⟩
  rw [bind_eq, safe_bind, Reconciler.restoreApplied]
  split_ifs with hpub
  · refine safe_propagate (safe_request h fun result t ht ↦ ?_)
    have hjt : t.state.journal = some stored := (step_keepsJournal ht.1 rfl).trans hj
    have hstep := ht.1
    rcases result with m | (_ | _)
    · refine ⟨?_, fun b hb ↦ by cases hb⟩
      rcases hstep with hw | ⟨-, hw⟩
      · exact Bounded.of_eq h (by rw [hw]) (by rw [hw])
      · have hgen : t.state.applied.generation = stored.previousGeneration := by rw [hw, ← hp]
        exact Bounded.of_journal hjt ⟨hf.newer, .inl hgen⟩ hb
    · -- another generation was published in between
      obtain ⟨-, hw⟩ := hstep
      have ht' : BoundedAt bound t := Bounded.of_eq h (by rw [hw]) (by rw [hw])
      refine ⟨ht', fun b hb ↦ hend b t ht' hjt fun hr ↦ ?_⟩
      rw [← Except.ok.inj hb] at hr
      cases hr
    · obtain ⟨-, hw⟩ := hstep
      have hgen : t.state.applied.generation = stored.previousGeneration := by rw [hw, ← hp]
      have ht' : BoundedAt bound t := Bounded.of_journal hjt ⟨hf.newer, .inl hgen⟩ hb
      exact ⟨ht', fun b _ ↦ hend b t ht' hjt fun _ ↦ hgen⟩
  · refine ⟨h, hend _ s h hj fun hr ↦ ?_⟩
    rw [← ha, ← hp]
    exact of_decide_eq_true hr

theorem safe_rollBackInterrupted_files {applied : AppliedState}
    {resources : List JournalResource} (h : BoundedAt bound s) (hj : s.state.journal = some j)
    (ha : applied = s.state.applied) :
    Safe (tracedStep (step active)) (BoundedAt bound) (exits R)
      (fun result t ↦ ∃ o, result = some o ∧ (o.status ≠ .recoveryRequired →
        t.state.applied.generation = j.previousGeneration ∧
        ∃ j', t.state.journal = some j' ∧ j'.generation = j.generation ∧
          isTerminal j'.status = true))
      (r.rollBackInterrupted j applied resources) s := by
  simp only [Reconciler.rollBackInterrupted, bind_eq, safe_bind]
  set j₁ : JournalEntry := { j with
    phase := .rollbackStarted
    status := .applying
    error := some (j.error.getD "interrupted transaction") }
  refine safe_saveJournal h (fun t ht ↦ h.calm ht) fun s₁ hs₁ ↦ ?_
  have h₁ : BoundedAt bound s₁ := h.saved hj hs₁ rfl rfl
  refine ⟨h₁, ?_⟩
  refine (safe_foldlM (fun _ _ t ↦ BoundedAt bound t ∧ t.state.journal = some j₁ ∧
    t.state.applied = s.state.applied) (fun _ _ _ _ t _ ht ↦ ?_) (fun _ _ ht ↦ ht.1)
    ⟨h₁, hs₁.journal, hs₁.inert.applied⟩).mono (fun _ ↦ id) (fun _ _ _ ↦ id)
    fun failed s₂ _ hs₂ ↦ ?_
  · exact (safe_recoverResource_files ht.1 ht.2.1).mono (fun _ ↦ id) (fun _ _ _ ↦ id)
      fun _ _ _ hu ↦ ⟨hu.1, hu.2.1, hu.2.2.trans ht.2.2⟩
  obtain ⟨h₂, hj₂, ha₂⟩ := hs₂
  refine safe_now h₂ fun completedAt s₃ hc₃ ↦ ⟨h₂.calm hc₃, ?_⟩
  have h₃ := h₂.calm hc₃
  have hj₃ : s₃.state.journal = some j₁ := hc₃.journal.trans hj₂
  have ha₃ : s₃.state.applied = s.state.applied := hc₃.inert.applied.trans ha₂
  set j₂ : JournalEntry := { j₁ with currentCoreId := none, completedAt := some completedAt }
  have hg₂ : j₂.generation = j₁.generation := rfl
  have hp₂ : j₂.previousGeneration = j₁.previousGeneration := rfl
  refine (safe_recoveryVerdict_files h₃ hj₃ hg₂ hp₂ (ha.trans ha₃.symm)).mono (fun _ ↦ id)
    (fun _ _ _ ↦ id) fun j₄ s₄ _ hs₄ ↦ ?_
  obtain ⟨h₄, hj₄, hg₄, hp₄, hstatus⟩ := hs₄
  refine safe_saveJournal h₄ (fun t ht ↦ h₄.calm ht) fun s₅ hs₅ ↦ ?_
  have h₅ : BoundedAt bound s₅ := h₄.saved hj₄ hs₅ hg₄ hp₄
  have hend : ∀ t : State L, t.state.applied = s₄.state.applied → t.state.journal = some j₄ →
      ∃ o, some (outcomeOf j₄.generation j₄) = some o ∧ (o.status ≠ .recoveryRequired →
        t.state.applied.generation = j.previousGeneration ∧
        ∃ j', t.state.journal = some j' ∧ j'.generation = j.generation ∧
          isTerminal j'.status = true) := by
    intro t hat hjt
    refine ⟨_, rfl, fun hnot ↦ ?_⟩
    obtain ⟨hst, hgen⟩ := hstatus.resolve_left hnot
    exact ⟨by rw [hat, hgen], j₄, hjt, hg₄, by rw [hst]; rfl⟩
  refine ⟨h₅, safe_cleanupWhen h₅ (fun _ ↦ ⟨h₅, hend s₅ hs₅.inert.applied hs₅.journal⟩)
    fun _ s₆ hi₆ hj₆ ↦ ?_⟩
  have h₆ : BoundedAt bound s₆ := Bounded.of_eq h₅ (by rw [hi₆.applied]) hj₆
  exact ⟨h₆, h₆, hend s₆ (hi₆.applied.trans hs₅.inert.applied) (hj₆.trans hs₅.journal)⟩

theorem hollow_of_not_adopted {applied : AppliedState}
    (hpub : applied.generation = j.generation)
    (hadopt : ¬(applied.generation = j.generation ∧
      (j.phase = .published ∨ newStateWasFullyVerified j = true)))
    (hnone : mutatedResourcesInRollbackOrder j = []) : Hollow j := by
  refine ⟨fun hphase ↦ hadopt ⟨hpub, .inl hphase⟩, ?_⟩
  refine resources_eq_nil (fun x hx hstarted ↦ ?_) ?_
  · have hm : x ∈ mutatedResourcesInRollbackOrder j :=
      List.mem_filter.mpr ⟨List.mem_reverse.mpr hx, hstarted⟩
    rw [hnone] at hm
    cases hm
  · rw [← Bool.not_eq_true]
    exact fun hfull ↦ hadopt ⟨hpub, .inr hfull⟩

theorem safe_recover_files (h : BoundedAt bound s) :
    Safe (tracedStep (step active)) (BoundedAt bound) (fun _ _ ↦ True)
      (fun result t ↦ Recovered s.state result t.state) r.recover s := by
  refine safe_returning ?_
  simp only [bind_eq, safe_bind]
  refine safe_propagate (safe_request h fun loaded s₁ hs₁ ↦ ?_)
  have h₁ : BoundedAt bound s₁ := h.calm (calm_of_step hs₁ rfl)
  refine ⟨h₁, fun journal hj ↦ ?_⟩
  subst hj
  obtain ⟨hj, hw₁⟩ := hs₁.1
  cases journal with
  | none =>
    refine ⟨h₁, fun j' hj' ↦ ?_, by rw [hw₁], by rw [hw₁]⟩
    rw [← hj] at hj'
    cases hj'
  | some j =>
    have hsame : ∀ j', s.state.journal = some j' → j' = j := fun j' hj' ↦
      Option.some.inj (hj'.symm.trans hj.symm)
    simp only
    by_cases hterminal : isTerminal j.status = true
    · rw [if_pos hterminal, safe_bind]
      refine safe_cleanup h₁ fun s₂ hi₂ hj₂ ↦ ?_
      have h₂ : BoundedAt bound s₂ := Bounded.of_eq h₁ (by rw [hi₂.applied]) hj₂
      refine ⟨h₂, h₂, fun j' hj' ↦ ?_, by rw [hi₂.applied, hw₁], by rw [hj₂, hw₁]⟩
      rw [hsame j' hj', hterminal]
    rw [if_neg hterminal, safe_bind]
    refine safe_propagate (safe_request h₁ fun loaded s₂ hs₂ ↦ ?_)
    have h₂ : BoundedAt bound s₂ := h₁.calm (calm_of_step hs₂ rfl)
    refine ⟨h₂, fun applied ha ↦ ?_⟩
    subst ha
    obtain ⟨ha, hw₂⟩ := hs₂.1
    have hw : s₂.state = s.state := hw₂.trans hw₁
    have hj₂ : s₂.state.journal = some j := by rw [hw, hj]
    have ha₂ : applied = s₂.state.applied := by rw [ha, hw₂]
    have hopen : isTerminal j.status = false := by simpa using hterminal
    split_ifs with hadopt hnone
    · refine safe_close (fun completedAt ↦ { j with
        phase := .published
        status := .applied
        completedAt := some completedAt })
        (fun journal ↦ ⟨journal.generation, journal.status, none⟩) h₂ hj₂ (fun _ ↦ rfl)
        (fun _ ↦ rfl) fun time t hat hjt ↦ ?_
      refine ⟨j, hj.symm, hopen, fun _ ↦ ⟨⟨_, hjt, rfl, rfl⟩, fun _ ↦ ?_, fun hpub _ ↦ ?_⟩⟩
      · refine ⟨by rw [← hw, ← ha₂, hadopt.1], fun _ hhollow ↦ ?_, fun _ ↦ rfl⟩
        rcases hadopt.2 with hphase | hfull
        · exact hhollow.1 hphase
        · rw [newStateWasFullyVerified, hhollow.2] at hfull
          cases hfull
      · rw [hat, hw, hpub]
    · refine safe_close (fun completedAt ↦ { j with
        status := .failed
        error := some "interrupted before live mutation"
        completedAt := some completedAt })
        (fun journal ↦ outcomeOf journal.generation journal) h₂ hj₂ (fun _ ↦ rfl)
        (fun _ ↦ rfl) fun time t hat hjt ↦ ?_
      refine ⟨j, hj.symm, hopen, fun _ ↦ ⟨⟨_, hjt, rfl, rfl⟩, fun hpub ↦ ?_, fun hpub _ ↦ ?_⟩⟩
      · rw [hat, ← ha₂] at hpub
        refine ⟨by rw [← hw, ← ha₂, hpub], (fun h ↦ by cases h), fun hhollow ↦ absurd ?_ hhollow⟩
        exact hollow_of_not_adopted hpub hadopt (List.isEmpty_iff.mp hnone)
      · rw [hat, hw, hpub]
    · refine (safe_rollBackInterrupted_files h₂ hj₂ ha₂).mono (fun _ ↦ id) (fun _ _ _ ↦ id)
        fun result t _ ht ↦ ?_
      obtain ⟨o, rfl, hclosed⟩ := ht
      refine ⟨j, hj.symm, hopen, fun hnot ↦ ?_⟩
      obtain ⟨hgen, hjournal⟩ := hclosed hnot
      have hnewer := (h₂.filed j hj₂).newer
      refine ⟨hjournal, fun hpub ↦ ?_, fun _ hhollow ↦ ?_⟩
      · rw [hgen] at hpub
        exact absurd hpub (Nat.ne_of_lt hnewer)
      · rw [mutatedResourcesInRollbackOrder, hhollow.2] at hnone
        exact absurd rfl hnone

theorem safe_recover_store (hw : Bounded bound w) :
    Safe (step active) (Bounded bound) (fun _ _ ↦ True) (Recovered w) r.recover w := by
  have h : BoundedAt bound (⟨w, []⟩ : State L) := hw
  refine (Safe.untraced (safe_recover_files h)).mono ?_ (fun _ _ _ _ ↦ trivial) ?_
  · exact fun t ⟨_, ht⟩ ↦ ht
  · exact fun result t _ ⟨_, ht⟩ ↦ ht

end recover

section reconcile

/-- A call that ends early does not claim to have applied anything. -/
def Refuses : Exit ReconcileOutcome → Prop
  | .error _ => True
  | .returned o => o.status ≠ .applied

theorem refuses_propagate {α : Type} {p : Program Reply (Exit ReconcileOutcome) (Except String α)}
    (h : p.Raises Refuses) : (propagate p).Raises Refuses := by
  refine raises_seq h fun result ↦ ?_
  cases result <;> trivial

theorem refuses_request (op : Op) :
    (request op : Program Reply (Exit ReconcileOutcome) (Reply op)).Raises Refuses :=
  fun _ ↦ trivial

theorem refuses_saveJournal : (saveJournal j).Raises Refuses :=
  refuses_propagate (refuses_request _)

theorem refuses_exitWith {α : Type} {p : Program Reply (Exit ReconcileOutcome) ReconcileOutcome}
    (hp : p.Raises Refuses) (hr : p.Returns fun o ↦ o.status ≠ .applied) :
    (exitWith p : Program Reply (Exit ReconcileOutcome) α).Raises Refuses :=
  raises_bind hp hr

theorem refuses_orExit {α : Type} {result : Except String α}
    {p : Program Reply (Exit ReconcileOutcome) ReconcileOutcome}
    (hp : p.Raises Refuses) (hr : p.Returns fun o ↦ o.status ≠ .applied) :
    (orExit result p).Raises Refuses := by
  cases result with
  | ok a => trivial
  | error m => exact refuses_exitWith hp hr

theorem failWithoutMutation_returns (error : String) :
    (r.failWithoutMutation j error).Returns fun o ↦ o.status ≠ .applied := by
  refine returns_bind (returns_true _) fun _ _ ↦ ?_
  refine returns_bind (returns_true _) fun _ _ ↦ ?_
  refine returns_bind (returns_true _) fun _ _ ↦ ?_
  exact nofun

theorem failWithoutMutation_refuses (error : String) :
    (r.failWithoutMutation j error).Raises Refuses := by
  refine raises_seq (refuses_request _) fun _ ↦ ?_
  refine raises_seq refuses_saveJournal fun _ ↦ ?_
  exact raises_seq (refuses_request _) fun _ ↦ trivial

theorem rollbackVerdict_status (error : String) (failed : Bool) :
    (rollbackVerdict j error failed).status ≠ .applied := by
  cases failed <;> exact nofun

theorem rollback_returns (generation : ℕ) (all : List PreparedCore) (error : String) :
    (r.rollback generation all j error).Returns fun o ↦ o.status ≠ .applied := by
  refine returns_bind (returns_true _) fun _ _ ↦ ?_
  refine returns_bind (returns_true _) fun state _ ↦ ?_
  refine returns_bind (returns_true _) fun _ _ ↦ ?_
  refine returns_bind (returns_true _) fun _ _ ↦ ?_
  refine returns_bind (returns_true _) fun _ _ ↦ ?_
  exact rollbackVerdict_status error state.2

theorem rollbackStep_refuses (state : OrderedMap String PreparedCore × Bool)
    (resource : JournalResource) :
    (Reconciler.rollbackStep state resource).Raises Refuses := by
  rw [Reconciler.rollbackStep]
  cases state.1.get? resource.coreId with
  | none => trivial
  | some prepared => exact raises_seq (refuses_request _) fun _ ↦ trivial

theorem cleanupWhen_refuses (finished : Bool) (generation : ℕ) :
    (r.cleanupWhen finished generation).Raises Refuses := by
  cases finished with
  | false => trivial
  | true => exact refuses_request _

theorem rollback_refuses (generation : ℕ) (all : List PreparedCore) (error : String) :
    (r.rollback generation all j error).Raises Refuses := by
  refine raises_seq refuses_saveJournal fun _ ↦ ?_
  refine raises_seq (raises_foldlM rollbackStep_refuses) fun state ↦ ?_
  refine raises_seq (refuses_request _) fun _ ↦ ?_
  refine raises_seq refuses_saveJournal fun _ ↦ ?_
  exact raises_seq (cleanupWhen_refuses _ _) fun _ ↦ trivial

theorem rejectInterrupted_refuses (generation : ℕ) :
    (Reconciler.rejectInterrupted generation).Raises Refuses := by
  refine raises_seq (refuses_propagate (refuses_request _)) fun journal ↦ ?_
  cases journal with
  | none => trivial
  | some j =>
    simp only
    split_ifs
    · exact nofun
    · trivial

theorem beginJournal_refuses (applied : AppliedState) :
    (Reconciler.beginJournal desired applied).Raises Refuses := by
  refine raises_seq (refuses_request _) fun _ ↦ ?_
  refine raises_seq (refuses_request _) fun _ ↦ ?_
  exact raises_seq refuses_saveJournal fun _ ↦ trivial

theorem planTransaction_refuses (applied : AppliedState) :
    (r.planTransaction desired secrets applied j).Raises Refuses := by
  refine raises_seq (raises_seq (raises_attempt _) fun result ↦ ?_) fun _ ↦ ?_
  · cases result with
    | ok => trivial
    | error m =>
      refine raises_seq (refuses_request _) fun _ ↦ ?_
      exact raises_seq refuses_saveJournal fun _ ↦ nofun
  · refine raises_seq (raises_attempt _) fun built ↦ ?_
    refine raises_seq (refuses_orExit (failWithoutMutation_refuses _)
      (failWithoutMutation_returns _)) fun plans ↦ ?_
    exact raises_seq (refuses_orExit (failWithoutMutation_refuses _)
      (failWithoutMutation_returns _)) fun _ ↦ trivial

theorem stageCore_refuses (generation : ℕ)
    (state : JournalEntry × List (CoreAdapter × CorePlan × Path))
    (entry : String × CoreAdapter × CorePlan) :
    (r.stageCore generation state entry).Raises Refuses := by
  refine raises_seq (refuses_propagate (refuses_request _)) fun _ ↦ ?_
  refine raises_seq (refuses_request _) fun staged ↦ ?_
  refine raises_seq (refuses_orExit (failWithoutMutation_refuses _)
    (failWithoutMutation_returns _)) fun _ ↦ ?_
  exact raises_seq refuses_saveJournal fun _ ↦ trivial

theorem validateCore_refuses (journal : JournalEntry) (prepared : CoreAdapter × CorePlan × Path) :
    (r.validateCore journal prepared).Raises Refuses := by
  refine raises_seq (refuses_request _) fun _ ↦ ?_
  exact raises_seq (refuses_orExit (failWithoutMutation_refuses _)
    (failWithoutMutation_returns _)) fun _ ↦ trivial

theorem snapshotCore_refuses (generation : ℕ) (state : JournalEntry × List PreparedCore)
    (prepared : CoreAdapter × CorePlan × Path) :
    (r.snapshotCore generation state prepared).Raises Refuses := by
  refine raises_seq (refuses_request _) fun _ ↦ ?_
  refine raises_seq (refuses_orExit (failWithoutMutation_refuses _)
    (failWithoutMutation_returns _)) fun _ ↦ ?_
  exact raises_seq refuses_saveJournal fun _ ↦ trivial

theorem prepareTransaction_refuses (plans : CorePlans) :
    (r.prepareTransaction desired plans j).Raises Refuses := by
  refine raises_seq refuses_saveJournal fun _ ↦ ?_
  refine raises_seq (refuses_propagate (refuses_request _)) fun _ ↦ ?_
  refine raises_seq (raises_foldlM (stageCore_refuses _)) fun staged ↦ ?_
  refine raises_seq (raises_foldlM validateCore_refuses) fun _ ↦ ?_
  refine raises_seq refuses_saveJournal fun _ ↦ ?_
  refine raises_seq (raises_foldlM (snapshotCore_refuses _)) fun _ ↦ ?_
  refine raises_seq refuses_saveJournal fun _ ↦ ?_
  refine raises_seq (refuses_propagate (refuses_request _)) fun current ↦ ?_
  cases current with
  | true => trivial
  | false =>
    exact refuses_exitWith (failWithoutMutation_refuses _) (failWithoutMutation_returns _)

theorem installCore_refuses (generation : ℕ) (all : List PreparedCore) (journal : JournalEntry)
    (prepared : PreparedCore) :
    (r.installCore generation all journal prepared).Raises Refuses := by
  have hroll : ∀ {α : Type} (result : Except String α) (j : JournalEntry) (error : String),
      (orExit result (r.rollback generation all j error)).Raises Refuses :=
    fun _ _ _ ↦ refuses_orExit (rollback_refuses _ _ _) (rollback_returns _ _ _)
  refine raises_seq ?_ fun j ↦ ?_
  · rw [Reconciler.markStarted]
    cases updateResource prepared.plan.coreId _ journal.resources <;> trivial
  refine raises_seq refuses_saveJournal fun _ ↦ ?_
  refine raises_seq (refuses_request _) fun _ ↦ raises_seq (hroll _ _ _) fun _ ↦ ?_
  refine raises_seq refuses_saveJournal fun _ ↦ ?_
  refine raises_seq (refuses_request _) fun _ ↦ raises_seq (hroll _ _ _) fun _ ↦ ?_
  refine raises_seq refuses_saveJournal fun _ ↦ ?_
  refine raises_seq ?_ fun _ ↦ ?_
  · rw [Reconciler.checkHealth]
    split_ifs
    · trivial
    · exact raises_seq (refuses_request _) fun _ ↦ hroll _ _ _
  refine raises_seq (refuses_request _) fun _ ↦ raises_seq (hroll _ _ _) fun _ ↦ ?_
  refine raises_seq ?_ fun _ ↦ ?_
  · rw [Reconciler.checkUsers]
    split_ifs
    · refine raises_seq (refuses_request _) fun observed ↦ ?_
      cases observationFailure observed with
      | none => trivial
      | some message => exact refuses_exitWith (rollback_refuses _ _ _) (rollback_returns _ _ _)
    · trivial
  exact raises_seq refuses_saveJournal fun _ ↦ trivial

def Told (o : ReconcileOutcome) (t : State L) : Prop :=
  o.status = .applied → ∃ j, t.state.journal = some j ∧ isTerminal j.status = true

theorem safe_refusing {α : Type} {p : Program Reply (Exit ReconcileOutcome) α}
    (h : p.Raises Refuses) {Q : α → State L → Prop} (hQ : ∀ a t, Q a t) :
    Safe (tracedStep (step active)) (fun _ ↦ True) (exits Told) Q p s := by
  refine (safe_of_raises h (returns_true p) s).mono (fun _ ↦ id) (fun e t _ he ↦ ?_)
    fun a t _ _ ↦ hQ a t
  cases e with
  | error m => trivial
  | returned o => exact fun ho ↦ absurd ho he

theorem safe_refused {p : Program Reply (Exit ReconcileOutcome) ReconcileOutcome}
    (hp : p.Raises Refuses) (hr : p.Returns fun o ↦ o.status ≠ .applied) :
    Safe (tracedStep (step active)) (fun _ ↦ True) (exits Told) Told p s := by
  refine (safe_of_raises hp hr s).mono (fun _ ↦ id) (fun e t _ he ↦ ?_)
    fun o t _ hne ho ↦ absurd ho hne
  cases e with
  | error m => trivial
  | returned o => exact fun ho ↦ absurd ho he

theorem safe_publish_told {applied : AppliedState} {plans : CorePlans}
    {all : List PreparedCore} :
    Safe (tracedStep (step active)) (fun _ ↦ True) (exits Told) Told
      (r.publish desired applied plans all j) s := by
  have hroll : ∀ (j : JournalEntry) (error : String) (t : State L),
      Safe (tracedStep (step active)) (fun _ ↦ True) (exits Told) Told
        (r.rollback desired.generation all j error) t :=
    fun _ _ _ ↦ safe_refused (rollback_refuses _ _ _) (rollback_returns _ _ _)
  simp only [Reconciler.publish, bind_eq, safe_bind]
  refine safe_refusing (refuses_propagate (refuses_request _)) fun current s₁ ↦ ?_
  cases current with
  | false => exact hroll _ _ _
  | true =>
    simp only [Bool.not_true, Bool.false_eq_true, if_false, safe_bind]
    refine safe_refusing refuses_saveJournal fun _ s₂ ↦ ?_
    refine safe_refusing (refuses_propagate (refuses_request _)) fun published s₃ ↦ ?_
    cases published with
    | false => exact hroll _ _ _
    | true =>
      simp only [Bool.not_true, Bool.false_eq_true, if_false, safe_bind]
      refine safe_refusing (refuses_request _) fun completedAt s₄ ↦ ?_
      refine safe_saveJournal trivial (fun _ _ ↦ trivial) fun s₅ hs₅ ↦ ⟨trivial, ?_⟩
      refine safe_cleanup trivial fun s₆ _ hj₆ ↦ ⟨trivial, trivial, fun _ ↦ ?_⟩
      exact ⟨_, hj₆.trans hs₅.journal, rfl⟩

theorem safe_reconcile_told (hnewer : s.state.applied.generation < desired.generation) :
    Safe (tracedStep (step active)) (fun _ ↦ True) (fun _ _ ↦ True) Told
      (r.reconcile desired secrets) s := by
  refine safe_returning ?_
  simp only [bind_eq, safe_bind]
  refine safe_propagate (safe_request trivial fun loaded s₁ hs₁ ↦ ⟨trivial, fun applied ha ↦ ?_⟩)
  subst ha
  obtain rfl : applied = s.state.applied := hs₁.1.1
  rw [if_neg (not_le.mpr hnewer)]
  simp only [safe_bind]
  refine safe_refusing (rejectInterrupted_refuses _) fun _ s₂ ↦ ?_
  refine safe_refusing (beginJournal_refuses _) fun j s₃ ↦ ?_
  refine safe_refusing (planTransaction_refuses _) fun plans s₄ ↦ ?_
  refine safe_refusing (prepareTransaction_refuses _) fun prepared s₅ ↦ ?_
  refine safe_refusing (raises_foldlM (installCore_refuses _ _)) fun j' s₆ ↦ ?_
  exact safe_publish_told

/-- What a call of `reconcile` for a newer generation leaves in the files. -/
structure Reconciled (w : World L) (generation : ℕ) (o : ReconcileOutcome) (w' : World L) :
    Prop where
  kept : o.status ≠ .applied → w'.applied = w.applied
  published : o.status = .applied → w'.applied.generation = generation ∧
    ∃ j, w'.journal = some j ∧ j.generation = generation ∧ isTerminal j.status = true

theorem Durable.bounded {generation : ℕ} (h : Durable w₀ generation s) (hw : Bounded bound w₀)
    (hb : generation ≤ bound) : Bounded bound s.state := by
  have hown : ∀ j, s.state.journal = some j → Own w₀ generation j →
      s.state.applied = w₀.applied ∨ s.state.applied.generation = generation →
      Bounded bound s.state := by
    intro j hj own happlied
    refine Bounded.of_journal hj ⟨?_, ?_⟩ (by rwa [own.target])
    · rw [own.previousGeneration, own.target]
      exact own.newer
    · rw [own.previousGeneration, own.target]
      exact happlied.imp_left fun ha ↦ by rw [ha]
  cases h with
  | before quiet journal =>
    rcases journal with hold | ⟨j, hj, own, -⟩
    · exact Bounded.of_eq hw (by rw [quiet.applied]) hold
    · exact hown j hj own (.inl quiet.applied)
  | installing j journal own status applied => exact hown j journal own (.inl applied)
  | published j journal own applied => exact hown j journal own (.inr applied)
  | rollingBack j journal own status phase applied => exact hown j journal own (.inl applied)
  | rolledBack j journal own status applied => exact hown j journal own (.inl applied)
  | recoveryRequired j journal own status applied => exact hown j journal own (.inl applied)

theorem Durable.published_journal {generation : ℕ} (h : Durable w₀ generation s)
    (hg : s.state.applied.generation = generation) (hnewer : w₀.applied.generation < generation)
    (hj : s.state.journal = some j) : j.generation = generation := by
  have hne : s.state.applied ≠ w₀.applied := fun ha ↦ by
    rw [ha] at hg
    omega
  cases h with
  | published j' journal own =>
    rw [hj] at journal
    rw [Option.some.inj journal, own.target]
  | before quiet => exact absurd quiet.applied hne
  | installing j' _ _ _ applied => exact absurd applied hne
  | rollingBack j' _ _ _ _ applied => exact absurd applied hne
  | rolledBack j' _ _ _ applied => exact absurd applied hne
  | recoveryRequired j' _ _ _ applied => exact absurd applied hne

theorem Finished.kept {o : ReconcileOutcome} (h : Finished active r desired secrets w₀ o s)
    (hst : o.status ≠ .applied) : s.state.applied = w₀.applied := by
  cases h with
  | upToDate older status quiet => exact quiet.applied
  | refused status quiet => exact quiet.applied
  | transacted plans planned well outcome =>
    cases outcome with
    | failed status quiet => exact quiet.applied
    | rolledBack status applied => exact applied
    | recoveryRequired status applied => exact applied
    | applied status => exact absurd status hst

theorem safe_reconcile_files (hw : Bounded bound w) (hb : desired.generation ≤ bound)
    (hnewer : w.applied.generation < desired.generation) :
    Safe (step active) (Bounded bound) (fun _ _ ↦ True)
      (Reconciled w desired.generation) (r.reconcile desired secrets) w := by
  have hsafe := (safe_reconcile rfl rfl : Safe (tracedStep (step active)) (Durable w _) _ _
    (r.reconcile desired secrets) ⟨w, []⟩).and (safe_reconcile_told hnewer)
  refine (Safe.untraced hsafe).mono (fun t ⟨log, hd, _⟩ ↦ hd.bounded hw hb) (fun _ _ _ _ ↦ trivial)
    fun o t ⟨log, hd, _⟩ ⟨log', hf, htold⟩ ↦ ⟨fun hst ↦ hf.kept hst, fun hst ↦ ?_⟩
  obtain ⟨plans, -, -, happlied⟩ := hf.of_applied hnewer hst
  have hg : t.applied.generation = desired.generation := congrArg AppliedState.generation happlied
  obtain ⟨j, hj, hterminal⟩ := htold hst
  exact ⟨hg, j, hj, hd.published_journal hg hnewer hj, hterminal⟩

end reconcile

end StealthHub.Reconcile

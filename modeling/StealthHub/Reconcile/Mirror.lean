import StealthHub.Reconcile.Files
import StealthHub.Reconcile.WorkerSpec

set_option autoImplicit false

namespace StealthHub.Reconcile

open Effect Effect.Program

variable {L : Type} {active : L → Bool} {s s' t t' u s₀ : System L}

/-- The panel shows what it desires as applied. -/
def Mirrored (row : ReconcileStateRecord) : Prop :=
  row.appliedGeneration = row.desiredGeneration ∧ row.status = "applied"

/-- The desired generation is published and the panel has not been told: its
transaction is closed, or it has no core and will be closed as failed. -/
def Unreported (s : System L) : Prop :=
  ∃ j, s.store.journal = some j ∧ s.store.applied.generation = j.generation ∧
    s.row.desiredGeneration = j.generation ∧
    if isTerminal j.status = true then ¬Mirrored s.row else Hollow j

/-- What holds of files and row at every moment. -/
structure Sound (s : System L) : Prop where
  files : Bounded s.row.desiredGeneration s.store
  fresh : s.row.desiredGeneration = 0 → Mirrored s.row

def RowSince (s s' : System L) : Prop :=
  s'.row = s.row ∨ s.row.desiredGeneration < s'.row.desiredGeneration

/-- The files are as they were, and only the panel may have changed the row. -/
structure Since (s s' : System L) : Prop where
  applied : s'.store.applied = s.store.applied
  journal : s'.store.journal = s.store.journal
  row : RowSince s s'

theorem RowSince.le (h : RowSince s s') :
    s.row.desiredGeneration ≤ s'.row.desiredGeneration := by
  rcases h with h | h
  · rw [h]
  · exact h.le

theorem RowSince.trans (h : RowSince s t) (h' : RowSince t u) : RowSince s u := by
  have hle := h.le
  have hle' := h'.le
  rcases h with h | h
  · rcases h' with h' | h'
    · exact .inl (h'.trans h)
    · exact .inr (by omega)
  · exact .inr (by omega)

theorem Since.refl (s : System L) : Since s s := ⟨rfl, rfl, .inl rfl⟩

theorem Since.trans (h : Since s t) (h' : Since t u) : Since s u :=
  ⟨h'.applied.trans h.applied, h'.journal.trans h.journal, h.row.trans h'.row⟩

theorem Sound.since (h : Sound s) (hs : Since s s') : Sound s' := by
  refine ⟨(h.files.mono hs.row.le).of_eq (by rw [hs.applied]) hs.journal, fun hz ↦ ?_⟩
  have hle := hs.row.le
  rcases hs.row with hr | hr
  · rw [hr] at hz ⊢
    exact h.fresh hz
  · omega

theorem since_of_commits (h : Relation.ReflTransGen Commit s t) :
    Since s t ∧ t.store = s.store ∧ t.marker = s.marker := by
  induction h with
  | refl => exact ⟨.refl s, rfl, rfl⟩
  | tail _ hc ih =>
    obtain ⟨operationId, rfl⟩ := hc
    refine ⟨ih.1.trans ⟨rfl, rfl, .inr ?_⟩, ih.2.1, ih.2.2⟩
    exact Nat.lt_succ_self _

def WorkerOp.isStill : WorkerOp → Bool
  | .markReconcileResult _ => false
  | .reconciler op => op.isInert && op.keepsJournal
  | _ => true

theorem since_of_workerStep {op : WorkerOp} {r : WorkerReply op} (h : workerStep active s op r t)
    (hop : op.isStill) : Since s t := by
  cases op with
  | markReconcileResult update => cases hop
  | reconciler op =>
    obtain ⟨hs, hrow, -⟩ := workerStep_reconciler h
    obtain ⟨hi, hk⟩ := Bool.and_eq_true_iff.mp hop
    exact ⟨(step_inert hs hi).1, step_keepsJournal hs hk, .inl hrow⟩
  | publishDesiredGeneration g =>
    cases r with
    | ok => exact h ▸ ⟨rfl, rfl, .inl rfl⟩
    | error => rcases h with rfl | rfl <;> exact ⟨rfl, rfl, .inl rfl⟩
  | loadDesiredState =>
    cases r with
    | ok => exact h.2 ▸ .refl s
    | error => exact h ▸ .refl s
  | _ => exact h ▸ .refl s

abbrev sharedStep (active : L → Bool) (s : System L) (op : WorkerOp) (r : WorkerReply op)
    (t : System L) : Prop :=
  interleaved (workerStep active) Commit s op r t

theorem isStill_of_isAside (op : WorkerOp) (h : op.isAside) : op.isStill = true := by
  cases op with
  | loadDesiredState | markReconcileResult => cases h
  | reconciler op => cases op <;> first | rfl | cases h
  | _ => rfl

theorem since_of_sharedStep {op : WorkerOp} {r : WorkerReply op} (h : sharedStep active s op r t)
    (hop : op.isStill) : Since s t := by
  obtain ⟨m, hm, hs⟩ := h
  exact (since_of_commits hm).1.trans (since_of_workerStep hs hop)

theorem unreported_since (h : Sound s) (hs : Since s t) :
    Unreported t ↔ Unreported s ∧ t.row.desiredGeneration = s.row.desiredGeneration := by
  rcases hs.row with hr | hr
  · simp only [Unreported, hs.applied, hs.journal, hr, and_true]
  · constructor
    · intro ⟨j, hj, _, hd, _⟩
      have hb := h.files.bounded j (hs.journal ▸ hj)
      omega
    · intro ⟨_, hd⟩
      omega

/-- A run from `s₀` neither leaves a report out nor makes up for one, unless the
panel has moved on. -/
structure Follows (s₀ t : System L) : Prop where
  sound : Sound t
  le : s₀.row.desiredGeneration ≤ t.row.desiredGeneration
  unreported : Unreported t ↔
    Unreported s₀ ∧ t.row.desiredGeneration = s₀.row.desiredGeneration

theorem Follows.refl (h : Sound s) : Follows s s := ⟨h, le_rfl, by simp⟩

theorem Follows.since (h : Follows s₀ t) (ht : Since t u) : Follows s₀ u := by
  have hle := ht.row.le
  have hle₀ := h.le
  refine ⟨h.sound.since ht, by omega, ?_⟩
  rw [unreported_since h.sound ht, h.unreported, and_assoc]
  refine and_congr_right fun _ ↦ ?_
  omega

section rules

variable {α : Type}

theorem safe_aside {p : WorkerProgram α} (hp : p.Uses WorkerOp.isAside) (hs : Sound s) :
    Safe (sharedStep active) Sound (fun _ _ ↦ True) (fun _ t ↦ Since s t) p s := by
  have h : Safe (sharedStep active) (Since s) (fun _ ↦ Since s) (fun _ ↦ Since s) p s := by
    refine safe_of_uses hp (fun m op r t hop hm ht ↦ ?_) (.refl s)
    exact hm.trans (since_of_sharedStep ht (isStill_of_isAside op hop))
  exact h.mono (fun t ht ↦ hs.since ht) (fun _ _ _ _ ↦ trivial) fun _ _ _ ht ↦ ht

theorem safe_demand {C : System L → Prop} {Q : α → System L → Prop}
    {p : WorkerProgram (Except String α)}
    (h : Safe (sharedStep active) C (fun _ _ ↦ True) (fun r t ↦ ∀ a, r = .ok a → Q a t) p s) :
    Safe (sharedStep active) C (fun _ _ ↦ True) Q (demand p) s := by
  rw [demand, safe_bind]
  refine h.mono (fun _ ↦ id) (fun _ _ _ ↦ id) fun r t hC hQ ↦ ?_
  cases r with
  | ok a => exact ⟨hC, hQ a rfl⟩
  | error m => exact ⟨hC, trivial⟩

theorem sharedStep_store {op : Op} {r : Reply op} (h : sharedStep active s (.reconciler op) r t) :
    step active s.store op r t.store ∧ RowSince s t := by
  obtain ⟨m, hm, hs⟩ := h
  obtain ⟨hstep, hrow, -⟩ := workerStep_reconciler hs
  obtain ⟨hsince, hstore, -⟩ := since_of_commits hm
  rw [hstore] at hstep
  refine ⟨hstep, hsince.row.imp (fun hr ↦ hrow.trans hr) fun hr ↦ ?_⟩
  rwa [hrow]

theorem safe_perform {C : World L → Prop} {Q : α → World L → Prop} {p : Program Reply String α}
    (h : Safe (step active) C (fun _ _ ↦ True) Q p s.store) :
    Safe (sharedStep active) (fun t ↦ C t.store ∧ RowSince s t) (fun _ _ ↦ True)
      (fun a t ↦ Q a t.store ∧ RowSince s t) (perform p) s := by
  have hstep : ∀ (m : System L) (op : Op) (r : Reply op) (t : System L),
      sharedStep active m (.reconciler op) r t → step active m.store op r t.store :=
    fun m op r t ht ↦ (sharedStep_store ht).1
  have hfiles : Safe (sharedStep active) (fun t ↦ C t.store) (fun _ _ ↦ True)
      (fun a t ↦ Q a t.store) (perform p) s :=
    @Safe.embed _ Reply _ _ _ _ _ WorkerReply _ _ WorkerOp.reconciler (fun _ r ↦ r) System.store
      _ _ _ hstep _ _ h
  have huses : (perform p).Uses fun op ↦ ∃ o, op = .reconciler o :=
    perform_uses (p.uses_true.mono fun op _ ↦ ⟨op, rfl⟩)
  have hrow : Safe (sharedStep active) (RowSince s) (fun _ ↦ RowSince s) (fun _ ↦ RowSince s)
      (perform p) s := by
    refine safe_of_uses huses (fun m op r t hop hm ht ↦ ?_) (.inl rfl)
    obtain ⟨o, rfl⟩ := hop
    exact hm.trans (sharedStep_store ht).2
  exact (hfiles.and hrow).mono (fun _ ↦ id) (fun _ _ _ _ ↦ trivial) fun _ _ _ ↦ id

end rules

theorem Sound.of_store {bound : ℕ} (h : Sound s) (hb : bound = s.row.desiredGeneration)
    (hf : Bounded bound t.store) (hr : RowSince s t) : Sound t := by
  subst hb
  have hle := hr.le
  refine ⟨hf.mono hle, fun hz ↦ ?_⟩
  rcases hr with hr | hr
  · rw [hr] at hz ⊢
    exact h.fresh hz
  · omega

/-- The row tells the outcome of the transaction in the journal, if its generation
is still desired. -/
structure Reported (status : ReconcileStatus) (s t : System L) : Prop where
  applied : t.store.applied = s.store.applied
  journal : t.store.journal = s.store.journal
  le : s.row.desiredGeneration ≤ t.row.desiredGeneration
  row : ∃ j, s.store.journal = some j ∧ (t.row.desiredGeneration = j.generation →
    t.row.appliedGeneration = s.store.applied.generation ∧ t.row.status = statusName status)

theorem markReconcileResult_desired (row : ReconcileStateRecord)
    (update : ReconcileResultUpdate) :
    (row.markReconcileResult update).desiredGeneration = row.desiredGeneration := by
  rw [ReconcileStateRecord.markReconcileResult]
  split_ifs <;> rfl

theorem Sound.marked (h : Sound s) (update : ReconcileResultUpdate)
    (hu : update.desiredGeneration ≠ 0) :
    Sound { s with row := s.row.markReconcileResult update } := by
  refine ⟨by rw [markReconcileResult_desired]; exact h.files, fun hz ↦ ?_⟩
  rw [markReconcileResult_desired] at hz
  have hne : s.row.desiredGeneration ≠ update.desiredGeneration := by omega
  rw [ReconcileStateRecord.markReconcileResult, if_neg hne]
  exact h.fresh hz

theorem safe_persistStatus {status : ReconcileStatus} {error : Option String} (hs : Sound s) :
    Safe (sharedStep active) Sound (fun _ _ ↦ True) (fun _ t ↦ Sound t ∧ Reported status s t)
      (persistStatus status error) s := by
  rw [persistStatus]
  simp only [bind_eq, safe_bind]
  refine safe_demand (safe_request hs fun loaded s₁ hs₁ ↦ ?_)
  have h₁ : Since s s₁ := since_of_sharedStep hs₁ rfl
  refine ⟨hs.since h₁, fun journal hj ↦ ?_⟩
  subst hj
  have hj : journal = s.store.journal := (sharedStep_store hs₁).1.1
  cases journal with
  | none => exact ⟨hs.since h₁, trivial⟩
  | some j =>
    simp only [safe_bind]
    refine safe_demand (safe_request (hs.since h₁) fun loaded s₂ hs₂ ↦ ?_)
    have h₂ : Since s s₂ := h₁.trans (since_of_sharedStep hs₂ rfl)
    refine ⟨hs.since h₂, fun applied ha ↦ ?_⟩
    subst ha
    obtain rfl : applied = s.store.applied := (sharedStep_store hs₂).1.1.trans h₁.applied
    refine safe_demand (safe_request (hs.since h₂) fun result t ht ↦ ?_)
    obtain ⟨m, hm, ht⟩ := ht
    have hsm : Since s m := h₂.trans (since_of_commits hm).1
    have hnewer := (hs.files.filed j hj.symm).newer
    have hm' : Sound m := hs.since hsm
    have hpos : j.generation ≠ 0 := by omega
    match result, ht with
    | .error message, ht =>
      refine ⟨?_, fun _ hok ↦ by cases hok⟩
      rcases ht with rfl | rfl
      · exact hm'
      · exact hm'.marked _ (by exact hpos)
    | .ok (), ht =>
      have hmarked : Sound t := by
        rw [ht]
        exact hm'.marked _ (by exact hpos)
      subst ht
      refine ⟨hmarked, fun _ _ ↦ ⟨hmarked, hsm.applied, hsm.journal, ?_, j, hj.symm, fun hd ↦ ?_⟩⟩
      · rw [markReconcileResult_desired]
        exact hsm.row.le
      · rw [markReconcileResult_desired] at hd
        rw [ReconcileStateRecord.markReconcileResult, if_pos hd]
        exact ⟨rfl, rfl⟩

theorem statusName_eq_applied {status : ReconcileStatus} :
    statusName status = "applied" ↔ status = .applied := by
  cases status <;> decide

theorem Reported.unreported {status : ReconcileStatus} {j : JournalEntry}
    (h : Reported status s t) (hj : s.store.journal = some j)
    (hterminal : isTerminal j.status = true) :
    Unreported t ↔ s.store.applied.generation = j.generation ∧
      t.row.desiredGeneration = j.generation ∧ status ≠ .applied := by
  obtain ⟨j', hj', hrow⟩ := h.row
  obtain rfl : j' = j := Option.some.inj (hj'.symm.trans hj)
  have hmirrored : t.row.desiredGeneration = j'.generation →
      s.store.applied.generation = j'.generation →
      (¬Mirrored t.row ↔ status ≠ .applied) := by
    intro hd ha
    obtain ⟨happlied, hstatus⟩ := hrow hd
    rw [Mirrored, happlied, hstatus, statusName_eq_applied, ha, hd]
    simp
  constructor
  · intro ⟨i, hi, ha, hd, hrest⟩
    obtain rfl : j' = i := by
      rw [h.journal, hj] at hi
      exact Option.some.inj hi
    rw [h.applied] at ha
    rw [if_pos hterminal] at hrest
    exact ⟨ha, hd, (hmirrored hd ha).mp hrest⟩
  · intro ⟨ha, hd, hst⟩
    refine ⟨j', h.journal.trans hj, by rw [h.applied, ha], hd, ?_⟩
    rw [if_pos hterminal]
    exact (hmirrored hd ha).mpr hst

theorem Follows.trans (h : Follows s t) (h' : Follows t u) : Follows s u := by
  have hle := h.le
  have hle' := h'.le
  refine ⟨h'.sound, by omega, ?_⟩
  rw [h'.unreported, h.unreported, and_assoc]
  refine and_congr_right fun _ ↦ ?_
  omega

def Quiescent (s : System L) : Prop :=
  ∀ j, s.store.journal = some j → isTerminal j.status = true

theorem Quiescent.of_journal (h : Quiescent s) (hj : t.store.journal = s.store.journal) :
    Quiescent t := fun j hjt ↦ h j (hj ▸ hjt)

def Finishes (s : System L) : Prop :=
  s.store.applied.generation = s.row.desiredGeneration → Quiescent s

theorem Finishes.since (h : Finishes s) (hs : Sound s) (ht : Since s t) : Finishes t := by
  intro hg
  have hle := ht.row.le
  have happlied := hs.files.applied_le
  rw [ht.applied] at hg
  exact (h (by omega)).of_journal ht.journal

theorem not_unreported (h : s.store.applied.generation ≠ s.row.desiredGeneration) :
    ¬Unreported s := fun ⟨_, _, ha, hd, _⟩ ↦ h (ha.trans hd.symm)

variable {r : Reconciler} {desired : DesiredState} {secrets : SecretResolver}

/-- The recovery reports what it has closed. The published generation of a hollow
transaction is reported as failed, which leaves the applied one unreported. -/
theorem safe_recoverInterrupted (hs : Sound s) :
    Safe (sharedStep active) Sound (fun _ _ ↦ True) (fun _ t ↦ Follows s t ∧ Quiescent t)
      (recoverInterrupted r) s := by
  rw [recoverInterrupted, bind_eq, safe_bind]
  refine (safe_perform (safe_recover_store hs.files)).mono
    (fun t ht ↦ hs.of_store rfl ht.1 ht.2) (fun _ _ _ _ ↦ trivial) fun result t₁ hc₁ ⟨hrec, hrow⟩ ↦ ?_
  have hs₁ : Sound t₁ := hs.of_store rfl hc₁.1 hrow
  cases result with
  | none =>
    obtain ⟨hclosed, happlied, hjournal⟩ := hrec
    have hsince : Since s t₁ := ⟨happlied, hjournal, hrow⟩
    have hq : Quiescent s := hclosed
    exact ⟨hs₁, (Follows.refl hs).since hsince, hq.of_journal hjournal⟩
  | some o =>
    obtain ⟨j, hj, hopen, hclosed⟩ := hrec
    simp only
    rw [bind_eq, safe_bind]
    refine (safe_persistStatus hs₁).mono (fun _ ↦ id) (fun _ _ _ ↦ id) fun _ t₂ _ ⟨hs₂, hrep⟩ ↦ ?_
    split_ifs with hrequired
    · exact ⟨hs₂, trivial⟩
    obtain ⟨⟨j', hj', hg, hterminal⟩, hjudged, hhollow⟩ := hclosed hrequired
    have hle₁ := hrow.le
    have hle₂ := hrep.le
    have hbound := hs.files.bounded j hj
    have hunreported : Unreported s ↔ s.store.applied.generation = j.generation ∧
        s.row.desiredGeneration = j.generation ∧ Hollow j := by
      constructor
      · intro ⟨i, hi, ha, hd, hrest⟩
        obtain rfl : j = i := Option.some.inj (hj.symm.trans hi)
        rw [if_neg (by simp [hopen])] at hrest
        exact ⟨ha, hd, hrest⟩
      · intro ⟨ha, hd, hrest⟩
        exact ⟨j, hj, ha, hd, by rwa [if_neg (by simp [hopen])]⟩
    refine ⟨hs₂, ⟨hs₂, by omega, ?_⟩, ?_⟩
    · rw [hrep.unreported hj' hterminal, hunreported, hg]
      constructor
      · intro ⟨ha, hd, hst⟩
        obtain ⟨ha₀, hiff⟩ := hjudged ha
        exact ⟨⟨ha₀, by omega, not_not.mp (mt hiff.mpr hst)⟩, by omega⟩
      · intro ⟨⟨ha₀, hd₀, hhol⟩, hd⟩
        have ha := hhollow ha₀ hhol
        exact ⟨ha, by omega, fun hst ↦ (hjudged ha).2.mp hst hhol⟩
    · intro i hi
      rw [hrep.journal, hj'] at hi
      rwa [← Option.some.inj hi]

theorem safe_applyDesired (hs : Sound s) (hq : Quiescent s)
    (hd : desired.generation ≤ s.row.desiredGeneration) :
    Safe (sharedStep active) Sound (fun _ _ ↦ True) (fun _ t ↦ Follows s t ∧ Finishes t)
      (applyDesired r desired secrets) s := by
  rw [applyDesired]
  simp only [bind_eq, safe_bind]
  refine safe_demand (safe_request hs fun loaded s₁ ht₁ ↦ ?_)
  have hsince : Since s s₁ := since_of_sharedStep ht₁ rfl
  have hs₁ : Sound s₁ := hs.since hsince
  refine ⟨hs₁, fun applied ha ↦ ?_⟩
  subst ha
  obtain rfl : applied = s.store.applied := (sharedStep_store ht₁).1.1
  have hle₁ := hsince.row.le
  split_ifs with hnewer
  · simp only [safe_bind]
    have hnewer₁ : s₁.store.applied.generation < desired.generation := by rwa [hsince.applied]
    refine (safe_perform (safe_reconcile_files hs₁.files (by omega) hnewer₁)).mono
      (fun t ht ↦ hs₁.of_store rfl ht.1 ht.2) (fun _ _ _ _ ↦ trivial)
      fun o t₂ hc₂ ⟨⟨hkept, hpublished⟩, hrow₂⟩ ↦ ?_
    have hs₂ : Sound t₂ := hs₁.of_store rfl hc₂.1 hrow₂
    have hle₂ := hrow₂.le
    refine (safe_persistStatus hs₂).mono (fun _ ↦ id) (fun _ _ _ ↦ id) fun _ t₃ _ ⟨hs₃, hrep⟩ ↦ ?_
    have hle₃ := hrep.le
    -- a generation that was still to be applied cannot have been left unreported
    have hbefore : ¬Unreported s := not_unreported (by omega)
    have hafter : ¬Unreported t₃ ∧ Finishes t₃ := by
      by_cases hst : o.status = .applied
      · obtain ⟨hg, j, hj, hjg, hterminal⟩ := hpublished hst
        refine ⟨fun hun ↦ ?_, fun _ i hi ↦ ?_⟩
        · exact ((hrep.unreported hj hterminal).mp hun).2.2 hst
        · rw [hrep.journal, hj] at hi
          rwa [← Option.some.inj hi]
      · have hold : t₃.store.applied.generation < desired.generation := by
          rw [hrep.applied, hkept hst, hsince.applied]
          exact hnewer
        exact ⟨not_unreported (by omega), fun hg ↦ by omega⟩
    exact ⟨hs₃, ⟨hs₃, by omega, by simp [hbefore, hafter.1]⟩, hafter.2⟩
  · exact ⟨hs₁, (Follows.refl hs).since hsince, fun _ ↦ hq.of_journal hsince.journal⟩

theorem safe_converge (hs : Sound s) (hd : desired.generation ≤ s.row.desiredGeneration) :
    Safe (sharedStep active) Sound (fun _ _ ↦ True) (fun _ t ↦ Follows s t ∧ Finishes t)
      (converge r desired) s := by
  rw [converge]
  simp only [bind_eq, safe_bind]
  refine (safe_recoverInterrupted hs).mono (fun _ ↦ id) (fun _ _ _ ↦ id)
    fun _ t₁ hs₁ ⟨hf₁, hq₁⟩ ↦ ?_
  have hasecrets : (demand (request (WorkerOp.loadPrivilegedSecrets desired)) :
      WorkerProgram (OrderedMap String String)).Uses WorkerOp.isAside :=
    demand_uses (request_uses trivial)
  refine (safe_aside hasecrets hs₁).mono (fun _ ↦ id) (fun _ _ _ ↦ id) fun values t₂ hs₂ hsince₂ ↦ ?_
  have hf₂ := hf₁.since hsince₂
  refine (safe_applyDesired hs₂ (hq₁.of_journal hsince₂.journal) (hd.trans hf₂.le)).mono
    (fun _ ↦ id) (fun _ _ _ ↦ id) fun outcome t₃ hs₃ ⟨hf₃, hfin₃⟩ ↦ ?_
  refine (safe_aside (recordUserSync_uses r desired _) hs₃).mono (fun _ ↦ id) (fun _ _ _ ↦ id)
    fun _ t₄ hs₄ hsince₄ ↦ ?_
  split_ifs
  · exact ⟨hs₄, trivial⟩
  · exact ⟨hs₄, (hf₂.trans hf₃).since hsince₄, hfin₃.since hs₃ hsince₄⟩

theorem safe_process (worker : Worker) (hs : Sound s) :
    Safe (sharedStep active) Sound (fun _ _ ↦ True) (fun _ t ↦ Follows s t ∧ Finishes t)
      (process worker) s := by
  rw [process]
  simp only [bind_eq, safe_bind]
  refine (safe_aside (readRequest_uses.mono fun _ h ↦ h.isAside) hs).mono (fun _ ↦ id) (fun _ _ _ ↦ id)
    fun req t₁ hs₁ hsince₁ ↦ ?_
  have hopen : (demand (request WorkerOp.openPool) : WorkerProgram Unit).Uses WorkerOp.isAside :=
    demand_uses (request_uses trivial)
  refine (safe_aside hopen hs₁).mono (fun _ ↦ id) (fun _ _ _ ↦ id) fun _ t₂ hs₂ hsince₂ ↦ ?_
  refine safe_demand (safe_request hs₂ fun loaded t₃ ht₃ ↦ ?_)
  have hsince₃ : Since t₂ t₃ := since_of_sharedStep ht₃ rfl
  have hs₃ := hs₂.since hsince₃
  refine ⟨hs₃, fun desired hloaded ↦ ?_⟩
  subst hloaded
  obtain ⟨m, hm, hgen, rfl⟩ := ht₃
  have hprepare := (prepare_uses worker req desired).mono fun _ h ↦ h.isAside
  refine ((safe_aside hprepare hs₃).returns (prepare_returns worker req desired)).mono
    (fun _ ↦ id) (fun _ _ _ ↦ id) fun result t₄ hs₄ ⟨hsince₄, hg⟩ ↦ ?_
  have hle₄ := hsince₄.row.le
  refine (safe_converge hs₄ (by omega)).mono (fun _ ↦ id) (fun _ _ _ ↦ id)
    fun _ t₅ _ ⟨hf₅, hfin₅⟩ ↦ ⟨?_, hfin₅⟩
  have hsince : Since s t₄ := ((hsince₁.trans hsince₂).trans hsince₃).trans hsince₄
  exact ((Follows.refl hs).since hsince).trans hf₅

end StealthHub.Reconcile

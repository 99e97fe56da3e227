import StealthHub.Reconcile.Built
import StealthHub.Reconcile.Ports
import StealthHub.Reconcile.Transaction

set_option autoImplicit false

namespace StealthHub.Reconcile

open Effect Effect.Program Function

variable {host : Host} {ρ α : Type} {E : Exit ρ → PortHost → Prop}
variable {s s₀ t : PortHost} {r : Reconciler} {generation : ℕ}

section requests

@[simp] theorem ends_saveJournal {j : JournalEntry} {Q : Unit → PortHost → Prop} :
    (saveJournal j).Ends (answer host) E Q s ↔ Q () { s with journal := some j } := Iff.rfl

@[simp] theorem ends_now {Q : String → PortHost → Prop} :
    now.Ends (answer host) E Q s ↔ Q (host .now) s := Iff.rfl

@[simp] theorem ends_cleanup {Q : Unit → PortHost → Prop} :
    (r.cleanup generation).Ends (answer host) E Q s ↔ Q () s := Iff.rfl

theorem ends_cleanupWhen {finished : Bool} {Q : Unit → PortHost → Prop} :
    (r.cleanupWhen finished generation).Ends (answer host) E Q s ↔ Q () s := by
  cases finished <;> exact Iff.rfl

theorem ends_desiredGenerationIsCurrent (hsmooth : host.Smooth) {Q : Bool → PortHost → Prop} :
    (desiredGenerationIsCurrent generation).Ends (answer host) E Q s ↔ Q true s := by
  rw [desiredGenerationIsCurrent, propagate, ends_bind]
  show (lift ((host (.desiredGenerationIsCurrent generation)).mapError Exit.error)).Ends
    (answer host) E Q s ↔ Q true s
  rw [hsmooth.current]
  exact Iff.rfl

theorem ends_prepareTransactionDirectory (hsmooth : host.Smooth) {path : Path}
    {Q : Unit → PortHost → Prop} :
    (prepareTransactionDirectory path).Ends (answer host) E Q s ↔ Q () s := by
  rw [prepareTransactionDirectory, propagate, ends_bind]
  show (lift ((host (.prepareTransactionDirectory path)).mapError Exit.error)).Ends
    (answer host) E Q s ↔ Q () s
  rw [hsmooth.prepares]
  exact Iff.rfl

theorem ends_createDirAll (hsmooth : host.Smooth) {path : Path} {Q : Unit → PortHost → Prop} :
    (createDirAll path).Ends (answer host) E Q s ↔ Q () s := by
  rw [createDirAll, propagate, ends_bind]
  show (lift ((host (.createDirAll path)).mapError Exit.error)).Ends (answer host) E Q s ↔ Q () s
  rw [hsmooth.creates]
  exact Iff.rfl

theorem ends_compareAndSetApplied {next : AppliedState} {Q : Bool → PortHost → Prop}
    (hQ : Q true { s with applied := next }) :
    (compareAndSetApplied s.applied.generation next).Ends (answer host) E Q s := by
  have hreply : answer host s (.compareAndSetApplied s.applied.generation next) =
      (.ok true, { s with applied := next }) := if_pos rfl
  rw [compareAndSetApplied, propagate, request, ends_bind, ends_call, hreply]
  exact hQ

end requests

/-- The ports and their owners, the configurations and the store's generation stay. -/
structure SamePorts (s t : PortHost) : Prop where
  installed : t.installed = s.installed
  owner : t.owner = s.owner
  applied : t.applied = s.applied

def exitsUnapplied (e : Exit ReconcileOutcome) : Prop :=
  ∃ outcome, e = .returned outcome ∧ outcome.status ≠ .applied

theorem ends_failWithoutMutation {j : JournalEntry} {error : String} {E : Exit ReconcileOutcome → PortHost → Prop} :
    (r.failWithoutMutation j error).Ends (answer host) E
      (fun outcome _ ↦ outcome.status ≠ .applied) s :=
  nofun

theorem ends_rollback {snapshots : List PreparedCore} {j : JournalEntry} {error : String}
    {E : Exit ReconcileOutcome → PortHost → Prop} :
    (r.rollback generation snapshots j error).Ends (answer host) E
      (fun outcome _ ↦ outcome.status ≠ .applied) s := by
  simp only [Reconciler.rollback, bind_eq, ends_bind, ends_saveJournal]
  refine (ends_foldlM (fun _ _ _ ↦ True) ?_ trivial).mono (fun _ _ ↦ id) ?_
  · rintro - resource - ⟨prepared, failed⟩ t - -
    rw [Reconciler.rollbackStep]
    cases prepared.get? resource.coreId <;> trivial
  · rintro ⟨prepared, failed⟩ t -
    simp only [ends_now, ends_cleanupWhen]
    cases failed <;> exact fun h ↦ by cases h

theorem ends_exitWith {p : Program Reply (Exit ReconcileOutcome) ReconcileOutcome}
    {E : Exit ReconcileOutcome → PortHost → Prop} {Q : α → PortHost → Prop}
    (h : p.Ends (answer host) E (fun outcome _ ↦ outcome.status ≠ .applied) s)
    (hE : ∀ e t, exitsUnapplied e → E e t) :
    (exitWith p : Program Reply (Exit ReconcileOutcome) α).Ends (answer host) E Q s := by
  rw [exitWith, ends_bind]
  exact h.mono (fun _ _ ↦ id) fun outcome t hstatus ↦ hE _ t ⟨outcome, rfl, hstatus⟩

section prepare

variable {j : JournalEntry} {staged : List (CoreAdapter × CorePlan × Path)}
variable {plans : CorePlans} {all : List PreparedCore}
variable {E : Exit ReconcileOutcome → PortHost → Prop}

theorem ends_stageCore (hsmooth : host.Smooth) {entry : String × CoreAdapter × CorePlan}
    (hid : entry.2.1.manifest.id = entry.1) :
    (r.stageCore generation (j, staged) entry).Ends (answer host) E
      (fun result t ↦ result.1.resources = j.resources ∧
        (∃ candidate, result.2 = staged ++ [(entry.2.1, entry.2.2, candidate)]) ∧
        ∃ journal, t = { s.stage entry.1 entry.2.2 with journal := journal }) s := by
  obtain ⟨coreId, core, plan⟩ := entry
  obtain rfl : core.manifest.id = coreId := hid
  simp only [Reconciler.stageCore, bind_eq, ends_bind, ends_createDirAll hsmooth]
  exact ⟨rfl, ⟨_, rfl⟩, _, rfl⟩

theorem ends_validateCore (hsmooth : host.Smooth) {prepared : CoreAdapter × CorePlan × Path} :
    (r.validateCore j prepared).Ends (answer host) E
      (fun j' t ↦ j'.resources = j.resources ∧ t = s) s := by
  obtain ⟨core, plan, candidate⟩ := prepared
  simp only [Reconciler.validateCore, bind_eq, ends_bind]
  show (orExit (host (.validateConfig core.manifest.id candidate)) _).Ends _ _ _ s
  rw [hsmooth.validates]
  exact ⟨rfl, rfl⟩

theorem ends_snapshotCore {prepared : CoreAdapter × CorePlan × Path} {taken : List PreparedCore} :
    (r.snapshotCore generation (j, taken) prepared).Ends (answer host) E
      (fun result t ↦ (∃ p : PreparedCore, p.core = prepared.1 ∧ p.plan = prepared.2.1 ∧
          result.2 = taken ++ [p] ∧ result.1.resources = j.resources ++ [resourceOf [] [] p]) ∧
        ∃ journal, t = { s.snapshot prepared.1.manifest.id with journal := journal }) s := by
  obtain ⟨core, plan, candidate⟩ := prepared
  exact ⟨⟨⟨core, plan, candidate, _⟩, rfl, rfl, rfl, rfl⟩, _, rfl⟩

/-- What staging leaves behind for the cores it has come to. -/
structure Staged (s : PortHost) (entries : List (String × CoreAdapter × CorePlan))
    (t : PortHost) : Prop where
  same : SamePorts s t
  staged : ∀ e ∈ entries, t.staged e.1 = planListeners e.2.2
  previous : ∀ e ∈ entries, t.previous e.1 = s.installed e.1

theorem Staged.stage {entries : List (String × CoreAdapter × CorePlan)}
    {entry : String × CoreAdapter × CorePlan} (h : Staged s entries t)
    (hnew : ∀ e ∈ entries, e.1 ≠ entry.1) (journal : Option JournalEntry) :
    Staged s (entries ++ [entry]) { t.stage entry.1 entry.2.2 with journal := journal } := by
  refine ⟨⟨h.same.installed, h.same.owner, h.same.applied⟩, fun e he ↦ ?_, fun e he ↦ ?_⟩
  all_goals
    rcases List.mem_append.mp he with he | he
  · exact (update_of_ne (hnew e he) _ _).trans (h.staged e he)
  · rw [List.mem_singleton.mp he]
    exact update_self ..
  · exact (update_of_ne (hnew e he) _ _).trans (h.previous e he)
  · rw [List.mem_singleton.mp he, ← h.same.installed]
    exact update_self ..

theorem Staged.saved {entries : List (String × CoreAdapter × CorePlan)} (h : Staged s entries t)
    (journal : Option JournalEntry) : Staged s entries { t with journal := journal } :=
  ⟨⟨h.same.installed, h.same.owner, h.same.applied⟩, h.staged, h.previous⟩

theorem Staged.of_saved {entries : List (String × CoreAdapter × CorePlan)}
    {journal : Option JournalEntry} (h : Staged { s with journal := journal } entries t) :
    Staged s entries t :=
  ⟨⟨h.same.installed, h.same.owner, h.same.applied⟩, h.staged, h.previous⟩

theorem ends_stageAll (hsmooth : host.Smooth)
    (hid : ∀ e ∈ plans.entries, e.2.1.manifest.id = e.1) :
    (plans.entries.foldlM (r.stageCore generation) (j, [])).Ends (answer host) E
      (fun result t ↦ result.1.resources = j.resources ∧
        result.2.map (fun x ↦ (x.1, x.2.1)) = plans.values ∧ Staged s plans.entries t) s := by
  refine (ends_foldlM (fun before (result : JournalEntry × List (CoreAdapter × CorePlan × Path)) t ↦
    result.1.resources = j.resources ∧ result.2.map (fun x ↦ (x.1, x.2.1)) = before.map Prod.snd ∧ Staged s before t) ?_ ?_).mono
    (fun _ _ ↦ id) fun _ _ ↦ id
  · rintro before entry after ⟨j', staged⟩ t hsplit ⟨hresources, hcovered, hstaged⟩
    have hentry : entry ∈ plans.entries := hsplit ▸ by simp
    have hnew : ∀ e ∈ before, e.1 ≠ entry.1 := by
      have hnodup := plans.keys_nodup
      rw [OrderedMap.keys, hsplit, List.map_append, List.nodup_append] at hnodup
      intro e he
      exact hnodup.2.2 _ (List.mem_map_of_mem he) _ (List.mem_map_of_mem List.mem_cons_self)
    refine (ends_stageCore hsmooth (hid entry hentry)).mono (fun _ _ ↦ id) ?_
    rintro ⟨j'', staged'⟩ - ⟨hresources', ⟨candidate, rfl⟩, journal, rfl⟩
    refine ⟨hresources'.trans hresources, ?_, hstaged.stage hnew journal⟩
    simp [hcovered]
  · exact ⟨rfl, rfl, ⟨rfl, rfl, rfl⟩, List.forall_mem_nil _, List.forall_mem_nil _⟩

theorem ends_validateAll (hsmooth : host.Smooth) :
    (staged.foldlM r.validateCore j).Ends (answer host) E
      (fun j' t ↦ j'.resources = j.resources ∧ t = s) s := by
  refine ends_foldlM (fun _ (j' : JournalEntry) t ↦ j'.resources = j.resources ∧ t = s) ?_ ⟨rfl, rfl⟩
  rintro - prepared - j' - - ⟨hresources, rfl⟩
  refine (ends_validateCore hsmooth).mono (fun _ _ ↦ id) fun j'' t h ↦ ?_
  exact ⟨h.1.trans hresources, h.2⟩

theorem ends_snapshotAll {entries : List (String × CoreAdapter × CorePlan)}
    (hstaged : Staged s₀ entries s) (hresources : j.resources = []) :
    (staged.foldlM (r.snapshotCore generation) (j, [])).Ends (answer host) E
      (fun result t ↦ result.1.resources = marks result.2 [] [] ∧
        result.2.map (fun p ↦ (p.core, p.plan)) = staged.map (fun x ↦ (x.1, x.2.1)) ∧
        Staged s₀ entries t) s := by
  refine ends_foldlM (fun (before : List (CoreAdapter × CorePlan × Path))
    (result : JournalEntry × List PreparedCore) t ↦ result.1.resources = marks result.2 [] [] ∧
    result.2.map (fun p ↦ (p.core, p.plan)) = before.map (fun x ↦ (x.1, x.2.1)) ∧
    Staged s₀ entries t) ?_ ⟨hresources, rfl, hstaged⟩
  rintro before prepared - ⟨j', taken⟩ t - ⟨hresources, hcovered, hstaged⟩
  refine ends_snapshotCore.mono (fun _ _ ↦ id) ?_
  rintro ⟨j'', taken'⟩ - ⟨⟨p, hcore, hplan, rfl, hresources'⟩, journal, rfl⟩
  refine ⟨?_, ?_, ⟨hstaged.same.installed, hstaged.same.owner, hstaged.same.applied⟩,
    hstaged.staged, hstaged.previous⟩
  · rw [hresources', hresources, marks, marks, List.map_append]
    rfl
  · rw [List.map_append, List.map_append, hcovered, List.map_singleton, List.map_singleton, hcore,
      hplan]

theorem ends_prepareTransaction {desired : DesiredState} (hsmooth : host.Smooth)
    (hid : ∀ e ∈ plans.entries, e.2.1.manifest.id = e.1) (hresources : j.resources = []) :
    (r.prepareTransaction desired plans j).Ends (answer host) E
      (fun result t ↦ result.1.resources = marks result.2 [] [] ∧ Covers plans result.2 ∧
        Staged s plans.entries t) s := by
  simp only [Reconciler.prepareTransaction, bind_eq, ends_bind, ends_saveJournal,
    ends_prepareTransactionDirectory hsmooth]
  refine (ends_stageAll hsmooth hid).mono (fun _ _ ↦ id) ?_
  rintro ⟨j₁, staged⟩ t₁ ⟨hresources₁, hcovered₁, hstaged₁⟩
  refine (ends_validateAll hsmooth).mono (fun _ _ ↦ id) ?_
  rintro j₂ t₂ ⟨hresources₂, ht₂⟩
  rw [ht₂]
  refine (ends_snapshotAll (hstaged₁.of_saved.saved _) ?_).mono (fun _ _ ↦ id) ?_
  · exact hresources₂.trans (hresources₁.trans hresources)
  rintro ⟨j₃, all⟩ t₃ ⟨hresources₃, hcovered₃, hstaged₃⟩
  rw [ends_desiredGenerationIsCurrent hsmooth]
  exact ⟨hresources₃, hcovered₃.trans hcovered₁, hstaged₃.saved _⟩

end prepare

def Takes (s : PortHost) (core : String) (plan : CorePlan) : Prop :=
  ∀ claim ∈ planListeners plan, ∀ holder, s.owner claim = some holder → holder ≤ core

/-- The plans of a transaction, in order, no two with a listener in common. -/
structure Disposed (s₀ : PortHost) (all : List PreparedCore) : Prop where
  aligned : Aligned all
  sorted : (ids all).Pairwise (· < ·)
  apart : all.Pairwise fun p q ↦ ∀ claim ∈ planListeners p.plan, claim ∉ planListeners q.plan
  covered : ∀ claim holder, s₀.owner claim = some holder → holder ∈ ids all

/-- The first cores have what they are to have, the others what they had. -/
structure Handed (s₀ : PortHost) (all done : List PreparedCore) (t : PortHost) : Prop where
  bound : t.Bound
  given : ∀ p ∈ done, t.installed p.id = planListeners p.plan
  others : ∀ core, core ∉ ids done → t.installed core = s₀.installed core
  staged : ∀ p ∈ all, t.staged p.id = planListeners p.plan
  previous : ∀ p ∈ all, t.previous p.id = s₀.installed p.id
  applied : t.applied = s₀.applied
  took : ∀ p ∈ done, Takes s₀ p.id p.plan

theorem Handed.saved {all done : List PreparedCore} (h : Handed s₀ all done t)
    (journal : Option JournalEntry) : Handed s₀ all done { t with journal := journal } :=
  ⟨h.bound, h.given, h.others, h.staged, h.previous, h.applied, h.took⟩

section install

variable {all done rest : List PreparedCore} {p : PreparedCore} {claim : ListenerClaim}

theorem Handed.clear_iff (h : Handed s₀ all done t) (hbound : s₀.Bound) (hall : Disposed s₀ all)
    (hsplit : all = done ++ p :: rest) :
    t.Clear p.id p.plan ↔ Takes s₀ p.id p.plan := by
  have hsorted := hall.sorted
  have hapart := hall.apart
  rw [hsplit, ids, List.map_append, List.map_cons, List.pairwise_append] at hsorted
  rw [hsplit, List.pairwise_append] at hapart
  constructor
  · intro hclear claim hclaim holder hholder
    by_contra hlater
    have hlt : p.id < holder := lt_of_not_ge hlater
    have hnot : holder ∉ ids done := by
      intro hmem
      exact absurd (hsorted.2.2 holder hmem p.id List.mem_cons_self) (lt_asymm hlt)
    refine hclear claim hclaim holder (ne_of_gt hlt) ?_
    rw [h.bound, h.others holder hnot, ← hbound]
    exact hholder
  · intro htakes claim hclaim holder hne howner
    rw [h.bound] at howner
    by_cases hmem : holder ∈ ids done
    · obtain ⟨q, hq, rfl⟩ := mem_ids.mp hmem
      rw [h.given q hq] at howner
      exact hapart.2.2 q hq p List.mem_cons_self claim howner hclaim
    · rw [h.others holder hmem, ← hbound] at howner
      have hle := htakes claim hclaim holder howner
      have hin := hall.covered claim holder howner
      rw [hsplit, ids, List.map_append, List.map_cons, List.mem_append, List.mem_cons] at hin
      rcases hin with hin | hin | hin
      · exact hmem hin
      · exact hne hin
      · exact absurd ((List.pairwise_cons.mp hsorted.2.1).1 holder hin) (not_lt_of_ge hle)

theorem Handed.released (h : Handed s₀ all done t) (hbound : s₀.Bound) (hall : Disposed s₀ all)
    (hsplit : all = done ++ p :: rest) (hclaim : claim ∈ s₀.installed p.id) {holder : String}
    (howner : t.owner claim = some holder) : holder = p.id := by
  have hheld : s₀.owner claim = some p.id := (hbound claim p.id).mpr hclaim
  rw [h.bound] at howner
  by_cases hmem : holder ∈ ids done
  · obtain ⟨q, hq, rfl⟩ := mem_ids.mp hmem
    rw [h.given q hq] at howner
    have hsorted := hall.sorted
    rw [hsplit, ids, List.map_append, List.map_cons, List.pairwise_append] at hsorted
    have hlt := hsorted.2.2 q.id hmem p.id List.mem_cons_self
    exact absurd hlt (not_lt_of_ge (h.took q hq claim howner p.id hheld))
  · rw [h.others holder hmem, ← hbound, hheld] at howner
    exact (Option.some.inj howner).symm

theorem Handed.install (h : Handed s₀ all done t) (hp : p ∈ all) :
    (t.install p.id).installed p.id = planListeners p.plan :=
  (update_self ..).trans (h.staged p hp)

theorem Handed.activate (h : Handed s₀ all done t) (hbound : s₀.Bound) (hall : Disposed s₀ all)
    (hsplit : all = done ++ p :: rest) (htakes : Takes s₀ p.id p.plan) :
    Handed s₀ all (done ++ [p]) ((t.install p.id).activate p.id p.plan) := by
  have hp : p ∈ all := hsplit ▸ by simp
  have hclear := (h.clear_iff hbound hall hsplit).mpr htakes
  have hown := h.install hp
  have hother : ∀ core, core ≠ p.id → (t.install p.id).installed core = t.installed core :=
    fun core hne ↦ update_of_ne hne _ _
  refine ⟨fun claim core ↦ ?_, fun q hq ↦ ?_, fun core hcore ↦ ?_, ?_, ?_, ?_, fun q hq ↦ ?_⟩
  · rw [PortHost.activate_owner hown hclear, PortHost.activate_installed]
    by_cases hcore : core = p.id
    · subst hcore
      rw [hown]
      split_ifs with hmem
      · exact iff_of_true rfl hmem
      · exact iff_of_false (fun hholds ↦ hholds.2 rfl) hmem
    · rw [hother core hcore]
      split_ifs with hmem
      · refine iff_of_false hcore fun hin ↦ ?_
        exact hclear claim hmem core hcore ((h.bound claim core).mpr hin)
      · rw [and_iff_left hcore]
        exact h.bound claim core
  · rw [PortHost.activate_installed]
    by_cases heq : q.id = p.id
    · have hq' : q ∈ all := by
        rcases List.mem_append.mp hq with hq | hq
        · exact hsplit ▸ List.mem_append_left _ hq
        · exact List.mem_singleton.mp hq ▸ hp
      rw [heq, hown, List.inj_on_of_nodup_map hall.aligned.nodup hq' hp heq]
    · rw [hother _ heq]
      refine h.given q ?_
      rcases List.mem_append.mp hq with hq | hq
      · exact hq
      · rw [List.mem_singleton.mp hq] at heq
        exact absurd rfl heq
  · rw [ids, List.map_append, List.mem_append, not_or, List.map_singleton,
      List.mem_singleton] at hcore
    rw [PortHost.activate_installed, hother core hcore.2]
    exact h.others core hcore.1
  · rw [PortHost.activate_staged]
    exact h.staged
  · rw [PortHost.activate_previous]
    exact h.previous
  · rw [PortHost.activate_applied]
    exact h.applied
  · rcases List.mem_append.mp hq with hq | hq
    · exact h.took q hq
    · exact List.mem_singleton.mp hq ▸ htakes

theorem Handed.verified (h : Handed s₀ all done t) (hbound : s₀.Bound) (hall : Disposed s₀ all)
    (hsplit : all = done ++ p :: rest) (htakes : Takes s₀ p.id p.plan) :
    ((t.install p.id).activate p.id p.plan).verifyListeners p.id p.plan = .ok () := by
  have hp : p ∈ all := hsplit ▸ by simp
  have hclear := (h.clear_iff hbound hall hsplit).mpr htakes
  have hown := h.install hp
  refine (PortHost.verifyListeners_ok ?_).mpr ⟨fun claim hclaim ↦ ?_, fun claim hclaim hmem ↦ ?_⟩
  · rw [PortHost.activate_staged]
    exact h.staged p hp
  · rw [PortHost.activate_owner hown hclear, if_pos hclaim]
  · rw [PortHost.activate_previous] at hclaim
    have hhad : claim ∈ s₀.installed p.id := h.previous p hp ▸ hclaim
    refine Option.eq_none_iff_forall_ne_some.mpr fun holder howner ↦ ?_
    rw [PortHost.activate_owner hown hclear, if_neg hmem] at howner
    exact howner.2 (h.released hbound hall hsplit hhad howner.1)

theorem ends_checkHealth {j : JournalEntry} {E : Exit ReconcileOutcome → PortHost → Prop}
    {Q : Unit → PortHost → Prop}
    (hactive : p.plan.fragments.isEmpty = false → s.active p.core.manifest.id = true)
    (hQ : Q () s) : (r.checkHealth generation all j p).Ends (answer host) E Q s := by
  rw [Reconciler.checkHealth]
  cases hplanned : p.plan.fragments.isEmpty with
  | true => exact hQ
  | false =>
    show (orExit (if s.active p.core.manifest.id then _ else _) _).Ends (answer host) E Q s
    rw [if_pos (hactive hplanned)]
    exact hQ

theorem ends_unhealthy {j : JournalEntry} {Q : Unit → PortHost → Prop}
    (hplanned : p.plan.fragments.isEmpty = false)
    (hdown : s.active p.core.manifest.id = false) :
    (r.checkHealth generation all j p).Ends (answer host) (fun e _ ↦ exitsUnapplied e) Q s := by
  rw [Reconciler.checkHealth, hplanned]
  show (orExit (if s.active p.core.manifest.id then _ else _) _).Ends (answer host) _ Q s
  rw [hdown]
  exact ends_exitWith ends_rollback fun _ _ ↦ id

theorem ends_checkUsers (hsmooth : host.Smooth) {j : JournalEntry}
    {E : Exit ReconcileOutcome → PortHost → Prop} {Q : Unit → PortHost → Prop} (hQ : Q () s) :
    (r.checkUsers generation all j p).Ends (answer host) E Q s := by
  rw [Reconciler.checkUsers]
  split_ifs
  · obtain ⟨count, hobserved⟩ := hsmooth.observes p.core.manifest.id p.plan
    rw [bind_eq, ends_bind, ends_request]
    have hreply : (answer host s (.observeUsers p.core.manifest.id p.plan)).1 =
        host (.observeUsers p.core.manifest.id p.plan) := rfl
    simp only [hreply, hobserved]
    exact hQ
  · exact hQ

theorem ends_installCore (hsmooth : host.Smooth) {j : JournalEntry} (h : Handed s₀ all done t)
    (hbound : s₀.Bound) (hall : Disposed s₀ all) (hsplit : all = done ++ p :: rest)
    (hresources : j.resources = marks all (ids done) (ids done)) :
    (r.installCore generation all j p).Ends (answer host)
      (fun e _ ↦ exitsUnapplied e ∧ ¬Takes s₀ p.id p.plan)
      (fun j' u ↦ j'.resources = marks all (ids (done ++ [p])) (ids (done ++ [p])) ∧
        Handed s₀ all (done ++ [p]) u) t := by
  have hp : p ∈ all := hsplit ▸ by simp
  have hcore : p.core.manifest.id = p.id := hall.aligned.core p hp
  have hids : ids done ++ [p.id] = ids (done ++ [p]) := by simp [ids]
  have hmarked : Reconciler.markStarted j p.plan.coreId = (pure { j with
      currentCoreId := some p.id
      resources := marks all (ids (done ++ [p])) (ids done) } :
      Program Reply (Exit ReconcileOutcome) JournalEntry) := by
    have hupdated := updateResource_started hall.aligned hp (ids done) (ids done)
    rw [PreparedCore.id] at hupdated
    rw [Reconciler.markStarted, hresources, hupdated, ← hids]
    rfl
  simp only [Reconciler.installCore, hmarked, bind_eq, pure_eq, ends_bind, ends_done,
    ends_saveJournal]
  show (r.checkHealth generation all _ p).Ends (answer host) _ _
    { (PortHost.install { t with journal := _ } p.core.manifest.id).activate
        p.core.manifest.id p.plan with journal := _ }
  rw [hcore]
  have hsaved := h.saved (some { j with
    currentCoreId := some p.id
    resources := marks all (ids (done ++ [p])) (ids done)
    phase := .installed })
  have hclear := hsaved.clear_iff hbound hall hsplit
  by_cases htakes : Takes s₀ p.id p.plan
  · refine ends_checkHealth (fun hplanned ↦ ?_) ?_
    · rw [hcore]
      exact (PortHost.activate_active (hsaved.install hp) hplanned).mpr (hclear.mpr htakes)
    · have hverified := hsaved.verified hbound hall hsplit htakes
      have hupdated := updateResource_verified hall.aligned hp (ids (done ++ [p])) (ids done)
      rw [PreparedCore.id] at hupdated
      rw [ends_request]
      show (orExit (PortHost.verifyListeners _ p.id p.plan) _).Ends (answer host) _ _ _
      refine hverified ▸ ends_checkUsers hsmooth ⟨?_, ?_⟩
      · rw [markVerified, hupdated, ← hids]
        rfl
      · exact (hsaved.activate hbound hall hsplit htakes).saved _
  · cases hplanned : p.plan.fragments.isEmpty with
    | true => exact absurd (hclear.mp (PortHost.clear_of_empty hplanned)) htakes
    | false =>
      refine (ends_unhealthy hplanned ?_).mono (fun e _ he ↦ ⟨he, htakes⟩) (fun _ _ ↦ False.elim)
      rw [hcore, ← Bool.not_eq_true]
      exact fun hactive ↦ htakes (hclear.mp
        ((PortHost.activate_active (hsaved.install hp) hplanned).mp hactive))

theorem ends_installAll (hsmooth : host.Smooth) {j : JournalEntry} (h : Handed s₀ all [] t)
    (hbound : s₀.Bound) (hall : Disposed s₀ all) (hresources : j.resources = marks all [] []) :
    (all.foldlM (r.installCore generation all) j).Ends (answer host)
      (fun e _ ↦ exitsUnapplied e ∧ ∃ p ∈ all, ¬Takes s₀ p.id p.plan)
      (fun _ u ↦ Handed s₀ all all u) t := by
  refine (ends_foldlM (fun done (j' : JournalEntry) u ↦
    j'.resources = marks all (ids done) (ids done) ∧ Handed s₀ all done u) ?_ ?_).mono
    (fun _ _ ↦ id) fun _ _ ↦ And.right
  · rintro done p rest j' u hsplit ⟨hresources', h'⟩
    refine (ends_installCore hsmooth h' hbound hall hsplit hresources').mono ?_ fun _ _ ↦ id
    rintro e - ⟨hexit, htakes⟩
    exact ⟨hexit, p, hsplit ▸ by simp, htakes⟩
  · exact ⟨hresources, h⟩

end install

section publish

variable {desired : DesiredState} {secrets : SecretResolver} {plans : CorePlans}
variable {all : List PreparedCore} {j : JournalEntry}

/-- What publication leaves behind. -/
structure Released (s : PortHost) (next : AppliedState) (t : PortHost) : Prop where
  installed : t.installed = s.installed
  owner : t.owner = s.owner
  applied : t.applied = next
  journal : ∀ j, t.journal = some j → j.status = .applied

theorem ends_publish (hsmooth : host.Smooth) {applied : AppliedState} (happlied : s.applied = applied)
    {E : Exit ReconcileOutcome → PortHost → Prop} :
    (r.publish desired applied plans all j).Ends (answer host) E
      (fun outcome t ↦ outcome.status = .applied ∧
        Released s (nextApplied desired.generation plans) t) s := by
  subst happlied
  simp only [Reconciler.publish, bind_eq, ends_bind]
  rw [ends_desiredGenerationIsCurrent hsmooth]
  simp only [Bool.not_true, Bool.false_eq_true, if_false, ends_bind, ends_saveJournal]
  refine ends_compareAndSetApplied ?_
  simp only [Bool.not_true, Bool.false_eq_true, if_false, ends_bind, ends_now, ends_saveJournal,
    ends_cleanup]
  refine ⟨rfl, rfl, rfl, rfl, ?_⟩
  rintro _ ⟨⟩
  rfl

/-- The adapters are there and render, and no listener is planned twice. -/
structure Plannable (r : Reconciler) (host : Host) (desired : DesiredState)
    (secrets : SecretResolver) (applied : AppliedState) (plans : CorePlans) : Prop where
  graph : (r.validateGraph desired applied).under host = .ok ()
  built : (r.buildPlans desired secrets applied).under host = .ok plans
  apart : validateListenerPlan plans = .ok ()

theorem Plannable.unique {applied : AppliedState} {plans' : CorePlans}
    (h : Plannable r host desired secrets applied plans)
    (h' : Plannable r host desired secrets applied plans') : plans = plans' := by
  have hbuilt := h.built
  rw [h'.built] at hbuilt
  exact (Except.ok.inj hbuilt).symm

theorem answer_probe {op : Op} (h : op.isProbe) : answer host s op = (host op, s) := by
  cases op <;> first | rfl | exact h.elim

theorem ends_planTransaction {applied : AppliedState} :
    (r.planTransaction desired secrets applied j).Ends (answer host)
      (fun e _ ↦ exitsUnapplied e ∧ ¬∃ plans, Plannable r host desired secrets applied plans)
      (fun plans t ↦ t = s ∧ Plannable r host desired secrets applied plans) s := by
  simp only [Reconciler.planTransaction, Reconciler.checkGraph, bind_eq, ends_bind, ends_attempt]
  refine (ends_of_uses (r.validateGraph_uses desired applied) fun _ ↦ answer_probe).mono ?_ ?_
  · rintro message t ⟨rfl, hgraph⟩
    refine ⟨⟨_, rfl, fun h ↦ by cases h⟩, ?_⟩
    rintro ⟨plans, h⟩
    rw [h.graph] at hgraph
    cases hgraph
  rintro ⟨⟩ t ⟨rfl, hgraph⟩
  refine (ends_of_uses (r.buildPlans_uses desired secrets applied) fun _ ↦ answer_probe).mono ?_ ?_
  · rintro message t ⟨rfl, hbuilt⟩
    refine ends_exitWith ends_failWithoutMutation fun e _ hexit ↦ ⟨hexit, ?_⟩
    rintro ⟨plans, h⟩
    rw [h.built] at hbuilt
    cases hbuilt
  rintro plans t ⟨rfl, hbuilt⟩
  simp only [orExit, ends_done]
  cases hvalid : validateListenerPlan plans with
  | error message =>
    refine ends_exitWith ends_failWithoutMutation fun e _ hexit ↦ ⟨hexit, ?_⟩
    rintro ⟨plans', h⟩
    have hplans := h.built
    rw [hbuilt] at hplans
    rw [Except.ok.inj hplans, h.apart] at hvalid
    cases hvalid
  | ok _ => exact ⟨rfl, hgraph, hbuilt, hvalid⟩

/-- What holds of a host between reconciles that were all applied. -/
structure PortHost.Sound (s : PortHost) : Prop where
  bound : s.Bound
  active : ∀ core, s.installed core ≠ [] → core ∈ s.applied.activeCoreIds
  journal : ∀ j, s.journal = some j → j.status = .applied

def InOrder (s : PortHost) (plans : CorePlans) : Prop :=
  ∀ entry ∈ plans.entries, Takes s entry.1 entry.2.2

theorem Covers.entry (h : Covers plans all) (hw : WellPlanned s.applied plans) {p : PreparedCore}
    (hp : p ∈ all) : (p.id, p.core, p.plan) ∈ plans.entries := by
  have hmem : (p.core, p.plan) ∈ plans.values := h ▸ List.mem_map_of_mem hp
  obtain ⟨e, he, hv⟩ := List.mem_map.mp hmem
  have hcore := hw.plan e he
  rw [hv] at hcore
  rwa [PreparedCore.id, hcore, ← hv]

theorem Covers.inOrder_iff (h : Covers plans all) (hw : WellPlanned s.applied plans) :
    InOrder s plans ↔ ∀ p ∈ all, Takes s p.id p.plan := by
  refine ⟨fun horder p hp ↦ horder _ (h.entry hw hp), fun hall e he ↦ ?_⟩
  obtain ⟨p, hp, hplan, hid⟩ := h.mem hw he
  rw [← hplan, ← hid]
  exact hall p hp

theorem PortHost.Sound.disposed (hs : PortHost.Sound s) (hw : WellPlanned s.applied plans) (h : Covers plans all)
    (hapart : validateListenerPlan plans = .ok ()) : Disposed s all := by
  have hids := h.ids_eq hw
  refine ⟨h.aligned hw, ?_, ?_, fun claim holder howner ↦ ?_⟩
  · rw [hids, OrderedMap.keys, List.pairwise_map]
    exact plans.sorted
  · rw [validateListenerPlan_ok, ← h, List.flatMap_map, List.nodup_flatMap] at hapart
    exact hapart.2.imp fun hdisjoint claim hp hq ↦ hdisjoint hp hq
  · rw [hids]
    refine hw.previous holder (hs.active holder fun hnil ↦ ?_)
    have hclaim := (hs.bound claim holder).mp howner
    rw [hnil] at hclaim
    cases hclaim

theorem Staged.handed (ht : Staged s plans.entries t) (hs : PortHost.Sound s)
    (hw : WellPlanned s.applied plans) (h : Covers plans all) : Handed s all [] t := by
  refine ⟨fun claim core ↦ ?_, nofun, fun core _ ↦ ?_, fun p hp ↦ ?_, fun p hp ↦ ?_,
    ht.same.applied, nofun⟩
  · rw [ht.same.owner, ht.same.installed]
    exact hs.bound claim core
  · rw [ht.same.installed]
  · exact ht.staged _ (h.entry hw hp)
  · exact ht.previous _ (h.entry hw hp)

/-- What an applied transaction leads to. -/
structure Carried (generation : ℕ) (plans : CorePlans) (t : PortHost) : Prop where
  sound : PortHost.Sound t
  installed : ∀ entry ∈ plans.entries, t.installed entry.1 = planListeners entry.2.2
  applied : t.applied = nextApplied generation plans

theorem Handed.carried {u : PortHost} (ht : Handed s all all t) (hs : PortHost.Sound s)
    (hw : WellPlanned s.applied plans) (h : Covers plans all)
    (hu : Released t (nextApplied generation plans) u) : Carried generation plans u := by
  refine ⟨⟨fun claim core ↦ ?_, fun core hne ↦ ?_, hu.journal⟩, fun e he ↦ ?_, ?_⟩
  · rw [hu.owner, hu.installed]
    exact ht.bound claim core
  · rw [hu.installed] at hne
    rw [hu.applied]
    by_cases hmem : core ∈ ids all
    · obtain ⟨p, hp, rfl⟩ := mem_ids.mp hmem
      rw [ht.given p hp] at hne
      refine List.mem_map.mpr ⟨_, List.mem_filter.mpr ⟨h.entry hw hp, ?_⟩, rfl⟩
      rw [Bool.not_eq_eq_eq_not, Bool.not_true, ← Bool.not_eq_true]
      exact fun hempty ↦ hne (PortHost.planListeners_empty hempty)
    · rw [ht.others core hmem] at hne
      rw [h.ids_eq hw] at hmem
      exact absurd (hw.previous core (hs.active core hne)) hmem
  · obtain ⟨p, hp, hplan, hid⟩ := h.mem hw he
    rw [hu.installed, ← hplan, ← hid]
    exact ht.given p hp
  · exact hu.applied

theorem ends_rejectInterrupted (hs : PortHost.Sound s) {E : Exit ReconcileOutcome → PortHost → Prop}
    {Q : Unit → PortHost → Prop} (hQ : Q () s) :
    (Reconciler.rejectInterrupted generation).Ends (answer host) E Q s := by
  rw [Reconciler.rejectInterrupted, bind_eq, ends_bind]
  have hload : ∀ {Q : Option JournalEntry → PortHost → Prop}, Q s.journal s →
      (loadJournal : Program Reply (Exit ReconcileOutcome) _).Ends (answer host) E Q s := id
  apply hload
  cases hjournal : s.journal with
  | none => exact hQ
  | some j =>
    simp only [hs.journal j hjournal]
    exact hQ

theorem ends_beginJournal {applied : AppliedState} {E : Exit ReconcileOutcome → PortHost → Prop}
    {Q : JournalEntry → PortHost → Prop}
    (hQ : ∀ j, j.resources = [] → Q j { s with journal := some j }) :
    (Reconciler.beginJournal desired applied).Ends (answer host) E Q s :=
  hQ _ rfl

theorem ends_reconcile (hsmooth : host.Smooth) (hs : PortHost.Sound s) :
    (r.reconcile desired secrets).Ends (answer host) (fun _ _ ↦ False)
      (fun outcome t ↦ (outcome.status = .applied ↔
        desired.generation ≤ s.applied.generation ∨
          ∃ plans, Plannable r host desired secrets s.applied plans ∧ InOrder s plans) ∧
        (outcome.status = .applied → desired.generation ≤ s.applied.generation ∧ t = s ∨
          ∃ plans, Plannable r host desired secrets s.applied plans ∧
            Carried desired.generation plans t)) s := by
  rw [Reconciler.reconcile, returning, ends_handle, bind_eq, ends_bind]
  show Ends (answer host) _ _ (if desired.generation ≤ s.applied.generation then _ else _) s
  split_ifs with hgeneration
  · exact ⟨iff_of_true rfl (.inl hgeneration), fun _ ↦ .inl ⟨hgeneration, rfl⟩⟩
  have hexit : ∀ (outcome : ReconcileOutcome) (t : PortHost), outcome.status ≠ .applied →
      (¬∃ plans, Plannable r host desired secrets s.applied plans ∧ InOrder s plans) →
      (outcome.status = .applied ↔ desired.generation ≤ s.applied.generation ∨
        ∃ plans, Plannable r host desired secrets s.applied plans ∧ InOrder s plans) ∧
      (outcome.status = .applied → desired.generation ≤ s.applied.generation ∧ t = s ∨
        ∃ plans, Plannable r host desired secrets s.applied plans ∧
          Carried desired.generation plans t) := by
    intro outcome t hstatus hplans
    refine ⟨iff_of_false hstatus (not_or.mpr ⟨hgeneration, hplans⟩), fun happlied ↦ ?_⟩
    exact absurd happlied hstatus
  rw [bind_eq, ends_bind]
  refine ends_rejectInterrupted hs ?_
  rw [bind_eq, ends_bind]
  refine ends_beginJournal fun j hresources ↦ ?_
  rw [bind_eq, ends_bind]
  refine ends_planTransaction.mono ?_ ?_
  · rintro _ t ⟨⟨outcome, rfl, hstatus⟩, hplannable⟩
    refine hexit outcome t hstatus fun hinOrder ↦ hplannable ?_
    exact hinOrder.imp fun _ ↦ And.left
  rintro plans t ⟨ht, hplans⟩
  have hw := (r.buildPlans_returns desired secrets s.applied).under hplans.built
  rw [bind_eq, ends_bind]
  refine (ends_prepareTransaction hsmooth hw.core hresources).mono (fun _ _ ↦ id) ?_
  rintro ⟨j₁, all⟩ t₁ ⟨hresources₁, hcovers, hstaged⟩
  have hbase : Staged s plans.entries t₁ := by
    rw [ht] at hstaged
    exact hstaged.of_saved
  have hall := hs.disposed hw hcovers hplans.apart
  have horder := hcovers.inOrder_iff hw
  simp only [bind_eq, ends_bind]
  refine (ends_installAll hsmooth (hbase.handed hs hw hcovers) hs.bound hall hresources₁).mono ?_ ?_
  · rintro _ u ⟨⟨outcome, rfl, hstatus⟩, p, hp, htakes⟩
    refine hexit outcome u hstatus ?_
    rintro ⟨plans', hplans', horder'⟩
    rw [hplans'.unique hplans] at horder'
    exact htakes (horder.mp horder' p hp)
  intro j₂ t₂ hhanded
  refine (ends_publish hsmooth hhanded.applied).mono (fun _ _ ↦ id) ?_
  rintro outcome u ⟨hstatus, hreleased⟩
  refine ⟨iff_of_true hstatus (.inr ⟨plans, hplans, horder.mpr hhanded.took⟩), fun _ ↦ ?_⟩
  exact .inr ⟨plans, hplans, hhanded.carried hs hw hcovers hreleased⟩

theorem PortHost.Settled.sound (h : PortHost.Settled s) : PortHost.Sound s := by
  induction h with
  | idle =>
    refine ⟨fun _ _ ↦ iff_of_false nofun List.not_mem_nil, fun core hcore ↦ absurd rfl hcore, ?_⟩
    intro j hj
    cases hj
  | @reconciled s host r desired secrets outcome _ hsmooth hresult happlied ih =>
    have hends := (@ends_reconcile host s r desired secrets hsmooth ih).eval
    rw [hresult] at hends
    rcases hends with ⟨_, ⟨⟩, ⟨⟩⟩ | ⟨outcome', houtcome, -, hcarried⟩
    cases houtcome
    rcases hcarried happlied with ⟨-, hsame⟩ | ⟨plans, -, hcarried⟩
    · rw [hsame]
      exact ih
    · exact hcarried.sound

end publish

end StealthHub.Reconcile

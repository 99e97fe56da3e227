import StealthHub.Data.Sorting
import StealthHub.Reconcile.Plan

set_option autoImplicit false

namespace StealthHub.CoreRegistry

variable {registry : CoreRegistry} {required : Finset String}

def Before (a b : CoreAdapter) : Prop :=
  b.manifest.selectionPriority < a.manifest.selectionPriority ∨
    a.manifest.selectionPriority = b.manifest.selectionPriority ∧ a.manifest.id < b.manifest.id

theorem Before.asymm {a b : CoreAdapter} (h : Before a b) : ¬Before b a := by
  rintro (hlt | ⟨heq, hid⟩) <;> rcases h with hlt' | ⟨heq', hid'⟩
  · exact lt_asymm hlt hlt'
  · exact hlt.ne heq'
  · exact hlt'.ne heq
  · exact lt_asymm hid hid'

instance : Std.Total fun a b : CoreAdapter ↦
    b.manifest.selectionPriority ≤ a.manifest.selectionPriority := ⟨fun _ _ ↦ le_total _ _⟩

instance : IsTrans CoreAdapter fun a b ↦
    b.manifest.selectionPriority ≤ a.manifest.selectionPriority := ⟨fun _ _ _ hab hbc ↦ hbc.trans hab⟩

theorem mem_values {core : CoreAdapter} : core ∈ registry.adapters.values ↔
    registry.get core.manifest.id = some core := by
  rw [OrderedMap.mem_values]
  constructor
  · rintro ⟨id, hget⟩
    rwa [registry.keyed id core hget]
  · exact fun hget ↦ ⟨_, hget⟩

theorem values_pairwise (registry : CoreRegistry) :
    registry.adapters.values.Pairwise fun a b ↦ a.manifest.id < b.manifest.id := by
  rw [OrderedMap.values, List.pairwise_map]
  refine registry.adapters.sorted.imp_of_mem fun {a b} ha hb hlt ↦ ?_
  rwa [registry.keyed _ _ (OrderedMap.mem_entries.mp ha),
    registry.keyed _ _ (OrderedMap.mem_entries.mp hb)]

theorem compatible_pairwise : (registry.compatible required).Pairwise Before := by
  refine ((registry.values_pairwise.filter _).insertionSort_stable).imp ?_
  rintro a b ⟨hle, hid⟩
  rcases hle.lt_or_eq with hlt | heq
  · exact .inl hlt
  · exact .inr ⟨heq.symm, hid heq.ge⟩

end StealthHub.CoreRegistry

namespace StealthHub.Reconcile

open Effect Effect.Program

/-- The answers of a host that stays as it is. -/
abbrev Host := (op : Op) → Reply op

variable {host : Host} {core adapter : CoreAdapter} {required : Finset String}
variable {registry : CoreRegistry} {adapters : List CoreAdapter} {id : String}

/-- A core that is installed, in a version that supports the capabilities. -/
structure Host.Runs (host : Host) (core : CoreAdapter) (required : Finset String) : Prop where
  compatible : host (.compatible core.manifest.id required) = .ok true
  installed : host (.installed core.manifest.id) = .ok true

def Host.Declines (host : Host) (core : CoreAdapter) (required : Finset String) : Prop :=
  host (.compatible core.manifest.id required) = .ok false ∨
    host (.compatible core.manifest.id required) = .ok true ∧
      host (.installed core.manifest.id) = .ok false

theorem Host.Runs.not_declines (h : host.Runs core required) : ¬host.Declines core required := by
  rintro (hcompatible | ⟨-, hinstalled⟩)
  · rw [h.compatible] at hcompatible
    cases hcompatible
  · rw [h.installed] at hinstalled
    cases hinstalled

theorem context_under {α : Type} {message : String} {x : Option α} {a : α} :
    (context message x).under host = .ok a ↔ x = some a := by
  cases x with
  | none => simp [context]
  | some b => simp [context]

theorem usable_under {answer : Bool} : (usable core required).under host = .ok answer ↔
    if answer then host.Runs core required else host.Declines core required := by
  have hask : (usable core required).under host =
      (do
        let compatible ← host (.compatible core.manifest.id required)
        if compatible then host (.installed core.manifest.id) else pure false) := by
    simp only [usable, ask, request, bind_eq, call_bind, done_bind, under_call]
    cases host (.compatible core.manifest.id required) with
    | error m => rfl
    | ok compatible =>
      cases compatible with
      | false => rfl
      | true => exact under_lift _
  rw [hask, Except.bind_eq_ok]
  cases answer with
  | true =>
    rw [if_pos rfl]
    constructor
    · rintro ⟨compatible, hcompatible, h⟩
      cases compatible with
      | false => cases h
      | true => exact ⟨hcompatible, h⟩
    · intro h
      exact ⟨true, h.compatible, h.installed⟩
  | false =>
    rw [if_neg nofun]
    constructor
    · rintro ⟨compatible, hcompatible, h⟩
      cases compatible with
      | false => exact .inl hcompatible
      | true => exact .inr ⟨hcompatible, h⟩
    · rintro (hcompatible | ⟨hcompatible, hinstalled⟩)
      · exact ⟨false, hcompatible, rfl⟩
      · exact ⟨true, hcompatible, hinstalled⟩

theorem firstUsable_under : (firstUsable required adapters).under host = .ok (some core) ↔
    ∃ before after, adapters = before ++ core :: after ∧
      (∀ adapter ∈ before, host.Declines adapter required) ∧ host.Runs core required := by
  induction adapters with
  | nil =>
    refine iff_of_false ?_ ?_
    · simp [firstUsable]
    · simp
  | cons adapter rest ih =>
    rw [firstUsable, bind_eq, under_bind_ok]
    constructor
    · rintro ⟨answer, hanswer, h⟩
      rw [usable_under] at hanswer
      cases answer with
      | true =>
        cases h
        exact ⟨[], rest, rfl, nofun, hanswer⟩
      | false =>
        obtain ⟨before, after, rfl, hbefore, hcore⟩ := ih.mp h
        exact ⟨adapter :: before, after, rfl, List.forall_mem_cons.mpr ⟨hanswer, hbefore⟩, hcore⟩
    · rintro ⟨before, after, hsplit, hbefore, hcore⟩
      cases before with
      | nil =>
        cases hsplit
        exact ⟨true, usable_under.mpr hcore, rfl⟩
      | cons first before =>
        cases hsplit
        obtain ⟨hfirst, hbefore⟩ := List.forall_mem_cons.mp hbefore
        exact ⟨false, usable_under.mpr hfirst, ih.mpr ⟨before, after, rfl, hbefore, hcore⟩⟩

/-- Whether the host has an answer for every core that is asked after in this order. -/
def Host.Answers (host : Host) (required : Finset String) : List CoreAdapter → Prop
  | [] => True
  | core :: rest =>
    host.Runs core required ∨ host.Declines core required ∧ host.Answers required rest

theorem firstUsable_some : (∃ core, (firstUsable required adapters).under host = .ok (some core)) ↔
    host.Answers required adapters ∧ ∃ core ∈ adapters, host.Runs core required := by
  simp only [firstUsable_under]
  induction adapters with
  | nil => simp
  | cons first rest ih =>
    constructor
    · rintro ⟨core, before, after, hsplit, hbefore, hcore⟩
      cases before with
      | nil =>
        cases hsplit
        exact ⟨.inl hcore, first, List.mem_cons_self, hcore⟩
      | cons other before =>
        cases hsplit
        obtain ⟨hfirst, hbefore⟩ := List.forall_mem_cons.mp hbefore
        obtain ⟨hanswers, found, hfound, hruns⟩ :=
          ih.mp ⟨core, before, after, rfl, hbefore, hcore⟩
        exact ⟨.inr ⟨hfirst, hanswers⟩, found, List.mem_cons_of_mem _ hfound, hruns⟩
    · rintro ⟨hruns | ⟨hfirst, hanswers⟩, core, hmem, hcore⟩
      · exact ⟨first, [], rest, rfl, nofun, hruns⟩
      · rcases List.mem_cons.mp hmem with rfl | hmem
        · exact absurd hfirst hcore.not_declines
        · obtain ⟨found, before, after, rfl, hbefore, hfound⟩ :=
            ih.mpr ⟨hanswers, core, hmem, hcore⟩
          exact ⟨found, first :: before, after, rfl,
            List.forall_mem_cons.mpr ⟨hfirst, hbefore⟩, hfound⟩

theorem firstUsable_compatible :
    (firstUsable required (registry.compatible required)).under host = .ok (some core) ↔
      core ∈ registry.compatible required ∧ host.Runs core required ∧
        ∀ other ∈ registry.compatible required, CoreRegistry.Before other core →
          host.Declines other required := by
  rw [firstUsable_under]
  constructor
  · rintro ⟨before, after, hsplit, hbefore, hruns⟩
    have hpairwise : (registry.compatible required).Pairwise CoreRegistry.Before :=
      CoreRegistry.compatible_pairwise
    rw [hsplit] at hpairwise ⊢
    refine ⟨List.mem_append_right _ List.mem_cons_self, hruns, fun other hmem hother ↦ ?_⟩
    obtain ⟨-, hafter, -⟩ := List.pairwise_append.mp hpairwise
    rcases List.mem_append.mp hmem with hmem | hmem
    · exact hbefore other hmem
    · rcases List.mem_cons.mp hmem with rfl | hmem
      · exact absurd hother hother.asymm
      · exact absurd hother ((List.pairwise_cons.mp hafter).1 other hmem).asymm
  · rintro ⟨hmem, hruns, hbefore⟩
    obtain ⟨before, after, hsplit⟩ := List.append_of_mem hmem
    refine ⟨before, after, hsplit, fun other hother ↦ ?_, hruns⟩
    have hpairwise : (registry.compatible required).Pairwise CoreRegistry.Before :=
      CoreRegistry.compatible_pairwise
    rw [hsplit] at hpairwise hbefore
    exact hbefore other (List.mem_append_left _ hother)
      ((List.pairwise_append.mp hpairwise).2.2 other hother core List.mem_cons_self)

theorem select_preferred : (select registry required (some id)).under host = .ok (some core) ↔
    registry.get id = some core ∧ required ⊆ core.manifest.capabilities ∧
      host.Runs core required := by
  rw [select, bind_eq, under_bind_ok]
  constructor
  · rintro ⟨adapter, hadapter, h⟩
    split_ifs at h with hrequired
    · obtain ⟨answer, hanswer, h⟩ := under_bind_ok.mp h
      cases answer with
      | false => cases h
      | true =>
        cases h
        exact ⟨context_under.mp hadapter, hrequired, usable_under.mp hanswer⟩
    · cases h
  · rintro ⟨hadapter, hrequired, hcore⟩
    refine ⟨core, context_under.mpr hadapter, ?_⟩
    rw [if_pos hrequired]
    exact under_bind_ok.mpr ⟨true, usable_under.mpr hcore, rfl⟩

theorem select_registered {preferred : Option String}
    (h : (select registry required preferred).under host = .ok (some core)) :
    registry.get core.manifest.id = some core ∧ required ⊆ core.manifest.capabilities := by
  cases preferred with
  | some id =>
    obtain ⟨hcore, hcapable, -⟩ := select_preferred.mp h
    have hid := registry.keyed _ _ hcore
    rw [hid]
    exact ⟨hcore, hcapable⟩
  | none =>
    obtain ⟨hmem, -⟩ := firstUsable_compatible.mp h
    obtain ⟨hvalue, hcapable⟩ := CoreRegistry.mem_compatible.mp hmem
    exact ⟨CoreRegistry.mem_values.mp hvalue, hcapable⟩

def readyHost : Host
  | .installed _ | .compatible _ _ => .ok true
  | .cleanupTransactionDirectory _ => ()
  | .newOperationId | .now => ""
  | .loadApplied | .compareAndSetApplied _ _ | .loadJournal | .saveJournal _
  | .desiredGenerationIsCurrent _ | .stageConfig _ _ _ | .validateConfig _ _
  | .snapshotConfig _ _ | .installConfig _ _ | .activateConfig _ _ | .healthcheck _ _
  | .verifyListeners _ _ | .observeUsers _ _ | .rollbackConfig _ _
  | .prepareTransactionDirectory _ | .createDirAll _ => .error "not asked"

theorem readyHost_runs (core : CoreAdapter) (required : Finset String) :
    readyHost.Runs core required := ⟨rfl, rfl⟩

end StealthHub.Reconcile

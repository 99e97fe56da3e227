import StealthHub.Data.Acyclic
import StealthHub.Data.Depth
import StealthHub.Reconcile.Plan

set_option autoImplicit false

namespace OrderedMap

variable {α β : Type} [LinearOrder α] {l : List (α × β)} {m : OrderedMap α β} {k : α}

theorem mem_keys_foldl_insert :
    k ∈ (l.foldl (fun m e ↦ m.insert e.1 e.2) m).keys ↔ k ∈ m.keys ∨ k ∈ l.map Prod.fst := by
  induction l generalizing m with
  | nil => simp
  | cons e rest ih =>
    rw [List.foldl_cons, ih, mem_keys_insert, List.map_cons, List.mem_cons, or_assoc, or_left_comm]

theorem mem_keys_ofList : k ∈ (ofList l).keys ↔ k ∈ l.map Prod.fst :=
  mem_keys_foldl_insert.trans (or_iff_right List.not_mem_nil)

theorem length_ofList : (ofList l).entries.length = l.length ↔ (l.map Prod.fst).Nodup := by
  have hkeys : (ofList l).keys.toFinset = (l.map Prod.fst).toFinset := by
    ext k
    rw [List.mem_toFinset, List.mem_toFinset, mem_keys_ofList]
  have hlength : (ofList l).entries.length = (ofList l).keys.toFinset.card := by
    rw [List.toFinset_card_of_nodup (keys_nodup _), keys, List.length_map]
  have hcard : (l.map Prod.fst).toFinset.card = (l.map Prod.fst).length ↔
      (l.map Prod.fst).Nodup :=
    Multiset.toFinset_card_eq_card_iff_nodup (m := (l.map Prod.fst : Multiset α))
  rw [hlength, hkeys, ← hcard, List.length_map]

end OrderedMap

namespace StealthHub.Reconcile

open Relation

/-- The search with the lookup that it makes: it is stuck on an identity that is not there, and
below `fuel` calls. -/
def visitWithin (resources : OrderedMap String InfrastructureResource) :
    ℕ → Finset String × Finset String → String →
      Limited String (Finset String × Finset String)
  | 0, _, _ => Limited.stuck
  | fuel + 1, (visiting, visited), id =>
    if id ∈ visited then return (visiting, visited)
    else if id ∈ visiting then throw "infrastructure dependency cycle"
    else
      match resources.get? id with
      | none => Limited.stuck
      | some resource => do
        let (visiting, visited) ←
          resource.dependencies.foldlM (visitWithin resources fuel) (insert id visiting, visited)
        return (visiting.erase id, insert id visited)

def validateDependenciesWithin (resources : List InfrastructureResource) :
    Limited String Unit := do
  let active := resources.filter InfrastructureResource.enabled
  let enabled := OrderedMap.ofList (active.map fun resource ↦ (resource.resourceId, resource))
  if enabled.entries.length ≠ active.length then throw "duplicate infrastructure resource ID"
  else if enabled.values.any fun resource ↦
      resource.dependencies.any fun dependency ↦ !enabled.contains dependency then
    throw "infrastructure dependency is missing or disabled"
  else
    let _ ← enabled.keys.foldlM (visitWithin enabled (enabled.entries.length + 1)) (∅, ∅)
    return ()

def DependsOn (resources : List InfrastructureResource) (a b : String) : Prop :=
  ∃ resource ∈ resources, resource.enabled = true ∧ resource.resourceId = a ∧
    b ∈ resource.dependencies

def Leads (resources : OrderedMap String InfrastructureResource) (a b : String) : Prop :=
  ∃ resource, resources.get? a = some resource ∧ b ∈ resource.dependencies

def Present (resources : OrderedMap String InfrastructureResource) : Prop :=
  ∀ a b, Leads resources a b → b ∈ resources.keys

section search

variable {resources : OrderedMap String InfrastructureResource} {fuel : ℕ}
variable {visiting visited : Finset String} {id a b : String} {ids : List String}
variable {s s' : Finset String × Finset String} {resource : InfrastructureResource}

theorem mem_dependencies : b ∈ ((resources.get? a).map InfrastructureResource.dependencies).getD []
    ↔ Leads resources a b := by
  unfold Leads
  cases resources.get? a with
  | none => simp
  | some resource => simp

theorem visit_succ (hvisited : id ∉ visited) (hvisiting : id ∉ visiting) :
    visit resources (fuel + 1) (visiting, visited) id = (do
      let (visiting, visited) ←
        (((resources.get? id).map InfrastructureResource.dependencies).getD []).foldlM
          (visit resources fuel) (insert id visiting, visited)
      .ok (visiting.erase id, insert id visited)) := by
  rw [visit, if_neg hvisited, if_neg hvisiting]

/-- What has been visited is closed under dependencies and has no cycle. -/
structure Explored (resources : OrderedMap String InfrastructureResource)
    (visiting visited : Finset String) : Prop where
  apart : ∀ id ∈ visited, id ∉ visiting
  closed : ∀ a b, Leads resources a b → a ∈ visited → b ∈ visited
  acyclic : ∀ a ∈ visited, ¬TransGen (Leads resources) a a

theorem Explored.reaches (h : Explored resources visiting visited)
    (hpath : ReflTransGen (Leads resources) a b) (ha : a ∈ visited) : b ∈ visited := by
  induction hpath with
  | refl => exact ha
  | tail _ hedge ih => exact h.closed _ _ hedge ih

/-- One more identity is visited, and what was visited stays. -/
structure Visited (resources : OrderedMap String InfrastructureResource)
    (s s' : Finset String × Finset String) : Prop where
  path : s'.1 = s.1
  grows : s.2 ⊆ s'.2
  settled : Explored resources s'.1 s'.2

theorem visitAll_ok
    (hvisit : ∀ s s' id, Explored resources s.1 s.2 → visit resources fuel s id = .ok s' →
      Visited resources s s' ∧ id ∈ s'.2)
    (hs : Explored resources s.1 s.2) (h : ids.foldlM (visit resources fuel) s = .ok s') :
    Visited resources s s' ∧ ∀ id ∈ ids, id ∈ s'.2 := by
  induction ids generalizing s with
  | nil =>
    cases Except.pure_eq_ok.mp h
    exact ⟨⟨rfl, Finset.Subset.refl _, hs⟩, nofun⟩
  | cons first rest ih =>
    rw [List.foldlM_cons] at h
    obtain ⟨next, hfirst, h⟩ := Except.bind_eq_ok.mp h
    obtain ⟨hnext, hmem⟩ := hvisit s next first hs hfirst
    obtain ⟨hlast, hrest⟩ := ih hnext.settled h
    refine ⟨⟨hlast.path.trans hnext.path, hnext.grows.trans hlast.grows, hlast.settled⟩, ?_⟩
    exact List.forall_mem_cons.mpr ⟨hlast.grows hmem, hrest⟩

theorem visit_ok (hs : Explored resources s.1 s.2) (h : visit resources fuel s id = .ok s') :
    Visited resources s s' ∧ id ∈ s'.2 := by
  induction fuel generalizing s s' id with
  | zero => cases h
  | succ fuel ih =>
    obtain ⟨visiting, visited⟩ := s
    by_cases hvisited : id ∈ visited
    · rw [visit, if_pos hvisited] at h
      cases h
      exact ⟨⟨rfl, Finset.Subset.refl _, hs⟩, hvisited⟩
    by_cases hvisiting : id ∈ visiting
    · rw [visit, if_neg hvisited, if_pos hvisiting] at h
      cases h
    rw [visit_succ hvisited hvisiting] at h
    obtain ⟨⟨path, seen⟩, hall, h⟩ := Except.bind_eq_ok.mp h
    cases h
    have hinside : Explored resources (insert id visiting) visited := by
      refine ⟨fun other hother hmem ↦ ?_, hs.closed, hs.acyclic⟩
      rcases Finset.mem_insert.mp hmem with rfl | hmem
      · exact hvisited hother
      · exact hs.apart other hother hmem
    obtain ⟨⟨rfl, hgrows, hsettled⟩, hdeps⟩ :=
      visitAll_ok (fun _ _ _ hs h ↦ ih hs h) hinside hall
    have hnew : id ∉ seen := fun hmem ↦ hsettled.apart id hmem (Finset.mem_insert_self _ _)
    refine ⟨⟨Finset.erase_insert hvisiting, hgrows.trans (Finset.subset_insert _ _), ?_⟩,
      Finset.mem_insert_self _ _⟩
    constructor
    · intro other hother hmem
      rcases Finset.mem_insert.mp hother with rfl | hother
      · exact Finset.notMem_erase _ _ hmem
      · exact hsettled.apart other hother (Finset.mem_of_mem_erase hmem)
    · intro a b hedge ha
      refine Finset.mem_insert_of_mem ?_
      rcases Finset.mem_insert.mp ha with rfl | ha
      · exact hdeps b (mem_dependencies.mpr hedge)
      · exact hsettled.closed a b hedge ha
    · intro a ha hcycle
      rcases Finset.mem_insert.mp ha with rfl | ha
      · -- a cycle through the new identity would leave what was settled before it
        obtain ⟨b, hedge, hback⟩ := TransGen.head'_iff.mp hcycle
        exact hnew (hsettled.reaches hback (hdeps b (mem_dependencies.mpr hedge)))
      · exact hsettled.acyclic a ha hcycle

theorem visit_path (h : visit resources fuel s id = .ok s') : s'.1 = s.1 := by
  induction fuel generalizing s s' id with
  | zero => cases h
  | succ fuel ih =>
    obtain ⟨visiting, visited⟩ := s
    by_cases hvisited : id ∈ visited
    · rw [visit, if_pos hvisited] at h
      cases h
      rfl
    by_cases hvisiting : id ∈ visiting
    · rw [visit, if_neg hvisited, if_pos hvisiting] at h
      cases h
    rw [visit_succ hvisited hvisiting] at h
    obtain ⟨⟨path, seen⟩, hall, h⟩ := Except.bind_eq_ok.mp h
    cases h
    have hpath : path = insert id visiting := by
      have hkeep : ∀ (ids : List String) s s', ids.foldlM (visit resources fuel) s = .ok s' →
          s'.1 = s.1 := by
        intro ids
        induction ids with
        | nil =>
          intro s s' h
          rw [← Except.pure_eq_ok.mp h]
        | cons first rest ihRest =>
          intro s s' h
          rw [List.foldlM_cons] at h
          obtain ⟨next, hfirst, h⟩ := Except.bind_eq_ok.mp h
          exact (ihRest next s' h).trans (ih hfirst)
      exact hkeep _ _ _ hall
    rw [hpath]
    exact Finset.erase_insert hvisiting

theorem visitWithin_done (hpresent : Present resources) (hid : id ∈ resources.keys)
    (hfuel : (resources.keys.toFinset \ s.1).card < fuel) :
    visitWithin resources fuel s id = Limited.done (visit resources fuel s id) := by
  induction fuel generalizing s id with
  | zero => omega
  | succ fuel ih =>
    obtain ⟨visiting, visited⟩ := s
    by_cases hvisited : id ∈ visited
    · rw [visit, visitWithin, if_pos hvisited, if_pos hvisited]
      rfl
    by_cases hvisiting : id ∈ visiting
    · rw [visit, visitWithin, if_neg hvisited, if_neg hvisited, if_pos hvisiting,
        if_pos hvisiting]
      rfl
    obtain ⟨resource, hget⟩ := OrderedMap.mem_keys.mp hid
    have hless := Limited.card_unseen_lt (List.mem_toFinset.mpr hid) hvisiting hfuel
    have hloop : resource.dependencies.foldlM (visitWithin resources fuel)
          (insert id visiting, visited) =
        Limited.done (resource.dependencies.foldlM (visit resources fuel)
          (insert id visiting, visited)) := by
      refine Limited.foldlM_done (fun s ↦ s.1 = insert id visiting) rfl ?_ ?_
      · intro dependency hdependency s hs
        exact ih (hpresent id dependency ⟨resource, hget, hdependency⟩) (hs ▸ hless)
      · exact fun _ _ s s' hs h ↦ (visit_path h).trans hs
    have hdependencies : ((resources.get? id).map InfrastructureResource.dependencies).getD [] =
        resource.dependencies := by rw [hget]; rfl
    rw [visit_succ hvisited hvisiting, hdependencies, visitWithin, if_neg hvisited,
      if_neg hvisiting]
    simp only [hget]
    rw [hloop, Limited.done_bind]
    cases resource.dependencies.foldlM (visit resources fuel) (insert id visiting, visited) <;> rfl

theorem exists_foldlM {σ α : Type} {f : σ → α → Except String σ} {l : List α} {s : σ}
    (inv : σ → Prop) (hs : inv s)
    (h : ∀ a ∈ l, ∀ s, inv s → ∃ s', f s a = .ok s' ∧ inv s') : ∃ s', l.foldlM f s = .ok s' := by
  induction l generalizing s with
  | nil => exact ⟨s, rfl⟩
  | cons a rest ih =>
    rw [List.forall_mem_cons] at h
    obtain ⟨next, hnext, hinv⟩ := h.1 s hs
    obtain ⟨s', hs'⟩ := ih hinv h.2
    exact ⟨s', List.foldlM_cons.trans (Except.bind_eq_ok.mpr ⟨next, hnext, hs'⟩)⟩

theorem visit_acyclic (hacyclic : Acyclic (Leads resources)) (hpresent : Present resources)
    (hid : id ∈ resources.keys) (hpath : ∀ other ∈ s.1, TransGen (Leads resources) other id)
    (hfuel : (resources.keys.toFinset \ s.1).card < fuel) :
    ∃ s', visit resources fuel s id = .ok s' := by
  induction fuel generalizing s id with
  | zero => omega
  | succ fuel ih =>
    obtain ⟨visiting, visited⟩ := s
    by_cases hvisited : id ∈ visited
    · exact ⟨_, by rw [visit, if_pos hvisited]⟩
    have hvisiting : id ∉ visiting := fun hmem ↦ hacyclic id (hpath id hmem)
    have hless := Limited.card_unseen_lt (List.mem_toFinset.mpr hid) hvisiting hfuel
    obtain ⟨⟨path, seen⟩, hall⟩ := exists_foldlM
      (f := visit resources fuel) (s := (insert id visiting, visited))
      (l := ((resources.get? id).map InfrastructureResource.dependencies).getD [])
      (fun s ↦ s.1 = insert id visiting) rfl (by
        intro dependency hdependency s hs
        have hedge := mem_dependencies.mp hdependency
        obtain ⟨s', hs'⟩ := ih (hpresent id dependency hedge) (s := s) (by
          intro other hother
          rw [hs] at hother
          rcases Finset.mem_insert.mp hother with rfl | hother
          · exact .single hedge
          · exact (hpath other hother).tail hedge) (hs ▸ hless)
        exact ⟨s', hs', (visit_path hs').trans hs⟩)
    rw [visit_succ hvisited hvisiting]
    exact ⟨_, Except.bind_eq_ok.mpr ⟨_, hall, rfl⟩⟩

end search

section exact

variable {resources : List InfrastructureResource} {m : OrderedMap String InfrastructureResource}

theorem visitAll_iff (hpresent : Present m) :
    (∃ s, m.keys.foldlM (visit m (m.entries.length + 1)) (∅, ∅) = .ok s) ↔
      Acyclic (Leads m) := by
  have hfuel : (m.keys.toFinset \ ∅).card < m.entries.length + 1 := by
    rw [Finset.sdiff_empty, List.toFinset_card_of_nodup m.keys_nodup, OrderedMap.keys,
      List.length_map]
    omega
  constructor
  · rintro ⟨s, h⟩ a hcycle
    have hnone : Explored m ∅ ∅ := by
      refine ⟨?_, ?_, ?_⟩ <;> simp
    obtain ⟨hvisited, hall⟩ := visitAll_ok (fun _ _ _ hs h ↦ visit_ok hs h) hnone h
    obtain ⟨b, ⟨resource, hget, -⟩, -⟩ := TransGen.head'_iff.mp hcycle
    exact hvisited.settled.acyclic a (hall a (OrderedMap.mem_keys.mpr ⟨resource, hget⟩)) hcycle
  · intro hacyclic
    refine exists_foldlM (fun s ↦ s.1 = ∅) rfl fun id hid s hs ↦ ?_
    obtain ⟨s', hs'⟩ := visit_acyclic hacyclic hpresent hid
      (fun other hother ↦ absurd (hs ▸ hother) (Finset.notMem_empty _)) (hs.symm ▸ hfuel)
    exact ⟨s', hs', (visit_path hs').trans hs⟩

def activeResources (resources : List InfrastructureResource) :
    OrderedMap String InfrastructureResource :=
  OrderedMap.ofList ((resources.filter InfrastructureResource.enabled).map fun resource ↦
    (resource.resourceId, resource))

theorem missing_iff : ¬(m.values.any fun resource ↦
      resource.dependencies.any fun dependency ↦ !m.contains dependency) = true ↔ Present m := by
  simp only [List.any_eq_true, not_exists, not_and, Bool.not_eq_true', Bool.not_eq_false,
    OrderedMap.contains_iff, OrderedMap.mem_values]
  constructor
  · rintro h a b ⟨resource, hget, hb⟩
    exact h resource ⟨a, hget⟩ b hb
  · rintro h resource ⟨a, hget⟩ b hb
    exact h a b ⟨resource, hget, hb⟩

theorem distinct_iff : (activeResources resources).entries.length =
      (resources.filter InfrastructureResource.enabled).length ↔
    ((resources.filter InfrastructureResource.enabled).map (·.resourceId)).Nodup := by
  have hlength := OrderedMap.length_ofList (l :=
    (resources.filter InfrastructureResource.enabled).map fun resource ↦
      (resource.resourceId, resource))
  rw [List.length_map, List.map_map] at hlength
  exact hlength

theorem leads_iff
    (hids : ((resources.filter InfrastructureResource.enabled).map (·.resourceId)).Nodup)
    {a b : String} : Leads (activeResources resources) a b ↔ DependsOn resources a b := by
  have hids' : (((resources.filter InfrastructureResource.enabled).map fun resource ↦
      (resource.resourceId, resource)).map Prod.fst).Nodup := by
    rw [List.map_map]
    exact hids
  unfold Leads DependsOn activeResources
  simp only [OrderedMap.get?_ofList_iff hids', List.mem_map, List.mem_filter, Prod.mk.injEq]
  constructor
  · rintro ⟨resource, ⟨_, ⟨hmem, henabled⟩, hid, rfl⟩, hb⟩
    exact ⟨_, hmem, henabled, hid, hb⟩
  · rintro ⟨resource, hmem, henabled, hid, hb⟩
    exact ⟨resource, ⟨resource, ⟨hmem, henabled⟩, hid, rfl⟩, hb⟩

theorem mem_activeResources {id : String} : id ∈ (activeResources resources).keys ↔
    ∃ resource ∈ resources, resource.enabled = true ∧ resource.resourceId = id := by
  rw [activeResources, OrderedMap.mem_keys_ofList, List.map_map, List.mem_map]
  simp only [List.mem_filter, and_assoc, Function.comp]

/-- What the check of the infrastructure is about. -/
structure SoundGraph (resources : List InfrastructureResource) : Prop where
  distinct : ((resources.filter InfrastructureResource.enabled).map (·.resourceId)).Nodup
  present : ∀ a b, DependsOn resources a b →
    ∃ resource ∈ resources, resource.enabled = true ∧ resource.resourceId = b
  acyclic : Acyclic (DependsOn resources)

theorem present_iff
    (hids : ((resources.filter InfrastructureResource.enabled).map (·.resourceId)).Nodup) :
    Present (activeResources resources) ↔ ∀ a b, DependsOn resources a b →
      ∃ resource ∈ resources, resource.enabled = true ∧ resource.resourceId = b :=
  forall₂_congr fun _ _ ↦ by rw [leads_iff hids, mem_activeResources]

theorem acyclic_iff
    (hids : ((resources.filter InfrastructureResource.enabled).map (·.resourceId)).Nodup) :
    Acyclic (Leads (activeResources resources)) ↔ Acyclic (DependsOn resources) :=
  ⟨fun h ↦ h.mono fun _ _ ↦ (leads_iff hids).mpr, fun h ↦ h.mono fun _ _ ↦ (leads_iff hids).mp⟩

theorem accepted_iff :
    validateInfrastructureDependencies resources = .ok () ↔ SoundGraph resources := by
  constructor
  · intro h
    obtain ⟨hlength, h⟩ := Except.guard_eq_ok.mp h
    obtain ⟨hmissing, h⟩ := Except.guard_eq_ok.mp h
    obtain ⟨s, hs, -⟩ := Except.bind_eq_ok.mp h
    have hids := distinct_iff.mp (not_ne_iff.mp hlength)
    have hpresent : Present (activeResources resources) := missing_iff.mp hmissing
    exact ⟨hids, (present_iff hids).mp hpresent,
      (acyclic_iff hids).mp ((visitAll_iff hpresent).mp ⟨s, hs⟩)⟩
  · rintro ⟨hids, hpresent, hacyclic⟩
    have hpresent' := (present_iff hids).mpr hpresent
    obtain ⟨s, hs⟩ := (visitAll_iff hpresent').mpr ((acyclic_iff hids).mpr hacyclic)
    exact Except.guard_eq_ok.mpr ⟨not_ne_iff.mpr (distinct_iff.mpr hids),
      Except.guard_eq_ok.mpr ⟨missing_iff.mpr hpresent', Except.bind_eq_ok.mpr ⟨s, hs, rfl⟩⟩⟩

theorem visitAllWithin_done (hpresent : Present m) :
    m.keys.foldlM (visitWithin m (m.entries.length + 1)) (∅, ∅) =
      Limited.done (m.keys.foldlM (visit m (m.entries.length + 1)) (∅, ∅)) := by
  have hfuel : (m.keys.toFinset \ ∅).card < m.entries.length + 1 := by
    rw [Finset.sdiff_empty, List.toFinset_card_of_nodup m.keys_nodup, OrderedMap.keys,
      List.length_map]
    omega
  refine Limited.foldlM_done (fun s ↦ s.1 = ∅) rfl (fun id hid s hs ↦ ?_)
    fun _ _ s s' hs h ↦ (visit_path h).trans hs
  exact visitWithin_done hpresent hid (hs.symm ▸ hfuel)

theorem validateWithin_done : validateDependenciesWithin resources =
    Limited.done (validateInfrastructureDependencies resources) := by
  show (if (activeResources resources).entries.length ≠ _ then _ else if _ then _ else _) =
    Limited.done (if (activeResources resources).entries.length ≠ _ then _ else if _ then _ else _)
  split
  next => rfl
  next =>
    split
    next => rfl
    next hmissing =>
      have hpresent : Present (activeResources resources) := missing_iff.mp hmissing
      have hall := visitAllWithin_done hpresent
      rw [activeResources] at hall
      rw [hall]
      exact Limited.done_discard

/-- The infrastructure is accepted exactly if its graph is sound, and the search neither runs on
nor looks up what is not there. -/
theorem infrastructure_graph_exact (resources : List InfrastructureResource) :
    (validateInfrastructureDependencies resources = .ok () ↔ SoundGraph resources) ∧
      validateDependenciesWithin resources =
        Limited.done (validateInfrastructureDependencies resources) :=
  ⟨accepted_iff, validateWithin_done⟩

end exact

end StealthHub.Reconcile

import Mathlib.Data.List.Induction
import Mathlib.Data.List.Perm.Basic
import StealthHub.Data.OrderedMap
import StealthHub.Data.Result

set_option autoImplicit false

namespace OrderedMap

section first

variable {μ κ : Type} {key : μ → κ} {items : List μ} {item : μ}

def First (key : μ → κ) (items : List μ) (item : μ) : Prop :=
  ∃ before after, items = before ++ item :: after ∧ key item ∉ before.map key

theorem exists_first (h : item ∈ items) : ∃ first, First key items first ∧ key first = key item := by
  classical
  induction items with
  | nil => cases h
  | cons other rest ih =>
    by_cases hkey : key other = key item
    · exact ⟨other, ⟨[], rest, rfl, List.not_mem_nil⟩, hkey⟩
    · have hrest : item ∈ rest := (List.mem_cons.mp h).resolve_left fun heq ↦ hkey (by rw [heq])
      obtain ⟨first, ⟨before, after, hsplit, hnew⟩, hfirst⟩ := ih hrest
      refine ⟨first, ⟨other :: before, after, by rw [hsplit]; rfl, ?_⟩, hfirst⟩
      rw [List.map_cons, List.mem_cons, not_or]
      exact ⟨fun heq ↦ hkey (heq.symm.trans hfirst), hnew⟩

theorem First.mem (h : First key items item) : item ∈ items := by
  obtain ⟨before, after, rfl, -⟩ := h
  exact List.mem_append_right _ List.mem_cons_self

theorem first_concat {last : μ} : First key (items ++ [last]) item ↔
    First key items item ∨ item = last ∧ key last ∉ items.map key := by
  constructor
  · intro ⟨before, after, hsplit, hnew⟩
    rcases List.eq_nil_or_concat after with rfl | ⟨after, other, rfl⟩
    · obtain ⟨rfl, hlast⟩ := List.append_inj' hsplit rfl
      cases hlast
      exact .inr ⟨rfl, hnew⟩
    · rw [List.concat_eq_append, ← List.cons_append, ← List.append_assoc] at hsplit
      obtain ⟨rfl, -⟩ := List.append_inj' hsplit rfl
      exact .inl ⟨before, after, rfl, hnew⟩
  · intro h
    rcases h with ⟨before, after, rfl, hnew⟩ | ⟨rfl, hnew⟩
    · exact ⟨before, after ++ [last], by simp, hnew⟩
    · exact ⟨items, [], rfl, hnew⟩

end first

variable {μ κ ν ε : Type} [LinearOrder κ]

theorem ext_get? {m m' : OrderedMap κ ν} (h : ∀ k, m.get? k = m'.get? k) : m = m' := by
  have hmem : ∀ e, e ∈ m.entries ↔ e ∈ m'.entries := by
    intro ⟨k, v⟩
    rw [mem_entries, mem_entries, h]
  have hnodup : ∀ m : OrderedMap κ ν, m.entries.Nodup := fun m ↦
    m.sorted.imp fun hlt heq ↦ absurd hlt (by simp [heq])
  obtain ⟨l, hl⟩ := m
  obtain ⟨l', hl'⟩ := m'
  have hperm : l.Perm l' := (List.perm_ext_iff_of_nodup (hnodup ⟨l, hl⟩) (hnodup ⟨l', hl'⟩)).mpr hmem
  have heq : l = l' := hperm.eq_of_pairwise
    (fun a b _ _ hab hba ↦ absurd (hab.trans hba) (lt_irrefl _)) hl hl'
  subst heq
  rfl

def remember (key : μ → κ) (resolve : μ → Except ε ν) (values : OrderedMap κ ν) (item : μ) :
    Except ε (OrderedMap κ ν) :=
  if values.contains (key item) then .ok values
  else do return values.insert (key item) (← resolve item)

def collect (key : μ → κ) (resolve : μ → Except ε ν) (items : List μ) :
    Except ε (OrderedMap κ ν) :=
  items.foldlM (remember key resolve) empty

variable {key : μ → κ} {resolve : μ → Except ε ν} {items items' : List μ}
variable {values : OrderedMap κ ν}

theorem collect_concat {last : μ} : collect key resolve (items ++ [last]) =
    collect key resolve items >>= fun values ↦ remember key resolve values last := by
  rw [collect, List.foldlM_append]
  refine congrArg _ (funext fun values ↦ ?_)
  rw [List.foldlM_cons]
  exact bind_pure _

theorem collect_ok (h : collect key resolve items = .ok values) :
    (∀ item, First key items item → ∃ v, resolve item = .ok v ∧ values.get? (key item) = some v) ∧
      ∀ k, values.get? k ≠ none ↔ k ∈ items.map key := by
  induction items using List.reverseRecOn generalizing values with
  | nil =>
    cases Except.pure_eq_ok.mp h
    refine ⟨fun item hfirst ↦ absurd hfirst.mem List.not_mem_nil, fun k ↦ ?_⟩
    simp
  | append_singleton rest last ih =>
    rw [collect_concat] at h
    obtain ⟨middle, hrest, hlast⟩ := Except.bind_eq_ok.mp h
    obtain ⟨hvalues, hkeys⟩ := ih hrest
    have hcontains : middle.contains (key last) = true ↔ key last ∈ rest.map key := by
      rw [← hkeys, contains, Option.isSome_iff_ne_none]
    rw [remember] at hlast
    split_ifs at hlast with htaken
    · cases hlast
      have hmem := hcontains.mp htaken
      refine ⟨fun item hfirst ↦ ?_, fun k ↦ ?_⟩
      · exact hvalues item ((first_concat.mp hfirst).resolve_right fun h ↦ h.2 hmem)
      · rw [hkeys, List.map_append, List.mem_append, List.map_singleton, List.mem_singleton]
        refine ⟨.inl, fun h ↦ ?_⟩
        rcases h with h | rfl
        · exact h
        · exact hmem
    · have hnew : key last ∉ rest.map key := fun hmem ↦ htaken (hcontains.mpr hmem)
      obtain ⟨v, hv, hinsert⟩ := Except.bind_eq_ok.mp hlast
      cases Except.pure_eq_ok.mp hinsert
      refine ⟨fun item hfirst ↦ ?_, fun k ↦ ?_⟩
      · rcases first_concat.mp hfirst with hfirst | ⟨rfl, -⟩
        · obtain ⟨w, hw, hget⟩ := hvalues item hfirst
          have hne : key last ≠ key item := fun heq ↦
            hnew (heq ▸ List.mem_map_of_mem hfirst.mem)
          exact ⟨w, hw, by rw [get?_insert, if_neg hne, hget]⟩
        · exact ⟨v, hv, by rw [get?_insert, if_pos rfl]⟩
      · rw [get?_insert, List.map_append, List.mem_append, List.map_singleton,
          List.mem_singleton, ← hkeys k]
        by_cases hk : key last = k
        · simp [hk]
        · simp [hk, Ne.symm hk]

theorem exists_collect (h : ∀ item, First key items item → ∃ v, resolve item = .ok v) :
    ∃ values, collect key resolve items = .ok values := by
  induction items using List.reverseRecOn with
  | nil => exact ⟨empty, rfl⟩
  | append_singleton rest last ih =>
    obtain ⟨values, hvalues⟩ := ih fun item hfirst ↦ h item (first_concat.mpr (.inl hfirst))
    have hcollect : collect key resolve (rest ++ [last]) = remember key resolve values last := by
      rw [collect_concat, hvalues]
      rfl
    rw [hcollect, remember]
    split_ifs with htaken
    · exact ⟨values, rfl⟩
    · have hnew : key last ∉ rest.map key := by
        intro hmem
        rw [← (collect_ok hvalues).2, ← Option.isSome_iff_ne_none] at hmem
        exact htaken hmem
      obtain ⟨v, hv⟩ := h last (first_concat.mpr (.inr ⟨rfl, hnew⟩))
      exact ⟨_, by rw [hv]; rfl⟩

theorem collect_perm (hperm : items.Perm items')
    (halike : ∀ item ∈ items, ∀ other ∈ items, key item = key other →
      ∀ v, resolve item = .ok v → resolve other = .ok v)
    (h : collect key resolve items = .ok values) : collect key resolve items' = .ok values := by
  obtain ⟨hvalues, hkeys⟩ := collect_ok h
  have hall : ∀ item ∈ items, ∃ v, resolve item = .ok v ∧ values.get? (key item) = some v := by
    intro item hitem
    obtain ⟨first, hfirst, hkey⟩ := exists_first hitem
    obtain ⟨v, hv, hget⟩ := hvalues first hfirst
    exact ⟨v, halike first hfirst.mem item hitem hkey v hv, hkey ▸ hget⟩
  have hmem : ∀ {item}, item ∈ items' → item ∈ items := fun h ↦ hperm.mem_iff.mpr h
  obtain ⟨values', h'⟩ : ∃ values', collect key resolve items' = .ok values' := by
    refine exists_collect fun item hfirst ↦ ?_
    obtain ⟨v, hv, -⟩ := hall item (hmem hfirst.mem)
    exact ⟨v, hv⟩
  obtain ⟨hvalues', hkeys'⟩ := collect_ok h'
  have heq : values' = values := by
    refine ext_get? fun k ↦ ?_
    by_cases hk : k ∈ items'.map key
    · obtain ⟨item, hitem, rfl⟩ := List.mem_map.mp hk
      obtain ⟨first, hfirst, hkey⟩ := exists_first hitem
      obtain ⟨v, hv, hget⟩ := hvalues' first hfirst
      obtain ⟨w, hw, hget'⟩ := hall first (hmem hfirst.mem)
      rw [← hkey, hget, hget']
      exact congrArg some (Except.ok.inj (hv.symm.trans hw))
    · have hk' : k ∉ items.map key := fun h ↦ hk ((hperm.map key).mem_iff.mp h)
      rw [not_not.mp ((hkeys' k).not.mpr hk), not_not.mp ((hkeys k).not.mpr hk')]
  rw [h', heq]

end OrderedMap

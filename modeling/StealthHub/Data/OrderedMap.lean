import Mathlib.Data.String.Basic
import Mathlib.Order.Defs.LinearOrder

set_option autoImplicit false

/-- A finite map kept as a list of entries in strictly increasing key order. -/
structure OrderedMap (α β : Type) [LinearOrder α] where
  entries : List (α × β)
  sorted : entries.Pairwise fun a b ↦ a.1 < b.1

namespace OrderedMap

variable {α β : Type} [LinearOrder α]

def empty : OrderedMap α β := ⟨[], .nil⟩

def keys (m : OrderedMap α β) : List α := m.entries.map Prod.fst

def values (m : OrderedMap α β) : List β := m.entries.map Prod.snd

def get? (m : OrderedMap α β) (k : α) : Option β :=
  (m.entries.find? fun e ↦ e.1 = k).map Prod.snd

def contains (m : OrderedMap α β) (k : α) : Bool := (m.get? k).isSome

def insertEntry (k : α) (v : β) : List (α × β) → List (α × β)
  | [] => [(k, v)]
  | (a, b) :: rest =>
    if k < a then (k, v) :: (a, b) :: rest
    else if a < k then (a, b) :: insertEntry k v rest
    else (a, v) :: rest

theorem key_of_mem_insertEntry {k : α} {v : β} {l : List (α × β)} {e : α × β}
    (h : e ∈ insertEntry k v l) : e = (k, v) ∨ e ∈ l := by
  induction l with
  | nil => simpa [insertEntry] using h
  | cons d rest ih =>
    obtain ⟨a, b⟩ := d
    simp only [insertEntry] at h
    split_ifs at h with h₁ h₂
    · simpa using h
    · rcases List.mem_cons.mp h with rfl | h
      · exact .inr List.mem_cons_self
      · exact (ih h).imp_right (List.mem_cons_of_mem _)
    · have ha : a = k := le_antisymm (not_lt.mp h₁) (not_lt.mp h₂)
      rcases List.mem_cons.mp h with rfl | h
      · exact .inl (by rw [ha])
      · exact .inr (List.mem_cons_of_mem _ h)

theorem insertEntry_sorted {l : List (α × β)} (k : α) (v : β)
    (h : l.Pairwise fun a b ↦ a.1 < b.1) :
    (insertEntry k v l).Pairwise fun a b ↦ a.1 < b.1 := by
  induction l with
  | nil => simp [insertEntry]
  | cons d rest ih =>
    obtain ⟨a, b⟩ := d
    obtain ⟨hd, ht⟩ := List.pairwise_cons.mp h
    simp only [insertEntry]
    split_ifs with h₁ h₂
    · refine List.pairwise_cons.mpr ⟨fun e he ↦ ?_, h⟩
      rcases List.mem_cons.mp he with rfl | he
      · exact h₁
      · exact h₁.trans (hd e he)
    · refine List.pairwise_cons.mpr ⟨fun e he ↦ ?_, ih ht⟩
      rcases key_of_mem_insertEntry he with rfl | he
      · exact h₂
      · exact hd e he
    · exact List.pairwise_cons.mpr ⟨hd, ht⟩

def insert (m : OrderedMap α β) (k : α) (v : β) : OrderedMap α β :=
  ⟨insertEntry k v m.entries, insertEntry_sorted k v m.sorted⟩

def erase (m : OrderedMap α β) (k : α) : OrderedMap α β :=
  ⟨m.entries.filter fun e ↦ e.1 ≠ k, m.sorted.filter _⟩

def filter (p : α → β → Bool) (m : OrderedMap α β) : OrderedMap α β :=
  ⟨m.entries.filter fun e ↦ p e.1 e.2, m.sorted.filter _⟩

def mapValues {γ : Type} (f : α → β → γ) (m : OrderedMap α β) : OrderedMap α γ :=
  ⟨m.entries.map fun e ↦ (e.1, f e.1 e.2), List.pairwise_map.mpr m.sorted⟩

def ofList (l : List (α × β)) : OrderedMap α β :=
  l.foldl (fun m e ↦ m.insert e.1 e.2) empty

theorem find?_insertEntry (k j : α) (v : β) (l : List (α × β))
    (h : l.Pairwise fun a b ↦ a.1 < b.1) :
    ((insertEntry k v l).find? fun e ↦ e.1 = j).map Prod.snd =
      if k = j then some v else (l.find? fun e ↦ e.1 = j).map Prod.snd := by
  induction l with
  | nil => by_cases hj : k = j <;> simp [insertEntry, hj]
  | cons d rest ih =>
    obtain ⟨a, b⟩ := d
    obtain ⟨hd, ht⟩ := List.pairwise_cons.mp h
    simp only [insertEntry]
    by_cases h₁ : k < a
    · rw [if_pos h₁]
      by_cases hj : k = j <;> simp [hj]
    · by_cases h₂ : a < k
      · rw [if_neg h₁, if_pos h₂]
        by_cases ha : a = j
        · have hk : k ≠ j := fun hk ↦ absurd h₂ (by simp [ha, hk])
          simp [ha, hk]
        · simpa [ha] using ih ht
      · have ha : a = k := le_antisymm (not_lt.mp h₁) (not_lt.mp h₂)
        rw [if_neg h₁, if_neg h₂]
        by_cases hj : k = j <;> simp [ha, hj]

theorem lookup_entry (k a : α) (b : β) (l : List (α × β)) :
    ((a, b) :: l).lookup k = if k = a then some b else l.lookup k := by
  by_cases h : k = a
  · rw [List.lookup_cons, h, beq_self_eq_true, if_pos rfl]
  · rw [List.lookup_cons, beq_eq_false_iff_ne.mpr h, if_neg h]

theorem lookup_insertEntry {k : α} {l : List (α × β)} (v : β) (j : α) (h : l.lookup k = none) :
    (insertEntry k v l).lookup j = if j = k then some v else l.lookup j := by
  induction l with
  | nil => exact lookup_entry j k v []
  | cons d rest ih =>
    obtain ⟨a, b⟩ := d
    rw [lookup_entry] at h
    split_ifs at h with hka
    rw [insertEntry]
    by_cases h₁ : k < a
    · rw [if_pos h₁, lookup_entry]
    · have h₂ : a < k := lt_of_le_of_ne (not_lt.mp h₁) (Ne.symm hka)
      rw [if_neg h₁, if_pos h₂, lookup_entry, lookup_entry, ih h]
      by_cases hj : j = k
      · rw [if_pos hj, if_pos hj, if_neg fun hja ↦ hka (hj.symm.trans hja)]
      · rw [if_neg hj, if_neg hj]

@[simp] theorem get?_insert (m : OrderedMap α β) (k j : α) (v : β) :
    (m.insert k v).get? j = if k = j then some v else m.get? j :=
  find?_insertEntry k j v m.entries m.sorted

@[simp] theorem get?_empty (k : α) : (empty : OrderedMap α β).get? k = none := rfl

theorem get?_erase (m : OrderedMap α β) (k j : α) :
    (m.erase k).get? j = if k = j then none else m.get? j := by
  simp only [erase, get?, List.find?_filter]
  split_ifs with h
  · subst h
    simp
  · congr 2
    funext e
    by_cases he : e.1 = j
    · simp [he, Ne.symm h]
    · simp [he]

theorem mem_entries {m : OrderedMap α β} {k : α} {v : β} :
    (k, v) ∈ m.entries ↔ m.get? k = some v := by
  obtain ⟨l, h⟩ := m
  simp only [get?]
  induction l with
  | nil => simp
  | cons d rest ih =>
    obtain ⟨a, b⟩ := d
    obtain ⟨hd, ht⟩ := List.pairwise_cons.mp h
    by_cases ha : a = k
    · subst ha
      have hr : (a, v) ∉ rest := fun hm ↦ lt_irrefl a (hd (a, v) hm)
      simp [hr, eq_comm]
    · simpa [ha, Ne.symm ha] using ih ht

theorem get?_filter (p : α → β → Bool) (m : OrderedMap α β) (k : α) :
    (m.filter p).get? k = (m.get? k).filter (p k) := by
  ext v
  rw [← mem_entries, filter, List.mem_filter, mem_entries, Option.filter_eq_some_iff]

theorem get?_mapValues {γ : Type} (f : α → β → γ) (m : OrderedMap α β) (k : α) :
    (m.mapValues f).get? k = (m.get? k).map (f k) := by
  simp only [get?, mapValues, List.find?_map, Option.map_map, Function.comp_def]
  cases hf : m.entries.find? (fun e ↦ e.1 = k) with
  | none => rfl
  | some e =>
    have hk : e.1 = k := by simpa using List.find?_some hf
    simp [hk]

theorem mem_keys {m : OrderedMap α β} {k : α} : k ∈ m.keys ↔ ∃ v, m.get? k = some v := by
  simp only [keys, List.mem_map, Prod.exists, exists_and_right, exists_eq_right, mem_entries]

theorem contains_iff {m : OrderedMap α β} {k : α} : m.contains k = true ↔ k ∈ m.keys := by
  rw [contains, Option.isSome_iff_exists, mem_keys]

theorem keys_nodup (m : OrderedMap α β) : m.keys.Nodup := by
  refine List.pairwise_map.mpr (m.sorted.imp fun h ↦ ne_of_lt h)

@[simp] theorem keys_mapValues {γ : Type} (f : α → β → γ) (m : OrderedMap α β) :
    (m.mapValues f).keys = m.keys := by
  simp [keys, mapValues, Function.comp_def]

theorem mem_keys_insert {m : OrderedMap α β} {k j : α} {v : β} :
    j ∈ (m.insert k v).keys ↔ j = k ∨ j ∈ m.keys := by
  simp only [mem_keys, get?_insert]
  by_cases h : k = j
  · simp [h]
  · simp [h, Ne.symm h]

theorem get?_foldl_insert_of_not_mem {l : List (α × β)} {k : α} (h : k ∉ l.map Prod.fst)
    (m : OrderedMap α β) : (l.foldl (fun m e ↦ m.insert e.1 e.2) m).get? k = m.get? k := by
  induction l generalizing m with
  | nil => rfl
  | cons e rest ih =>
    obtain ⟨hne, hr⟩ := not_or.mp (List.mem_cons.not.mp h)
    rw [List.foldl_cons, ih hr, get?_insert, if_neg (Ne.symm hne)]

theorem get?_foldl_insert_of_mem {l : List (α × β)} (hn : (l.map Prod.fst).Nodup) {k : α} {v : β}
    (h : (k, v) ∈ l) (m : OrderedMap α β) :
    (l.foldl (fun m e ↦ m.insert e.1 e.2) m).get? k = some v := by
  induction l generalizing m with
  | nil => cases h
  | cons e rest ih =>
    obtain ⟨hne, hr⟩ := List.nodup_cons.mp hn
    rw [List.foldl_cons]
    rcases List.mem_cons.mp h with rfl | h
    · rw [get?_foldl_insert_of_not_mem hne, get?_insert, if_pos rfl]
    · exact ih hr h _

theorem get?_ofList {l : List (α × β)} (hn : (l.map Prod.fst).Nodup) {k : α} {v : β}
    (h : (k, v) ∈ l) : (ofList l).get? k = some v :=
  get?_foldl_insert_of_mem hn h _

theorem get?_ofList_iff {l : List (α × β)} (hn : (l.map Prod.fst).Nodup) {k : α} {v : β} :
    (ofList l).get? k = some v ↔ (k, v) ∈ l := by
  refine ⟨fun h ↦ ?_, get?_ofList hn⟩
  by_cases hk : k ∈ l.map Prod.fst
  · obtain ⟨⟨_, w⟩, hw, rfl⟩ := List.mem_map.mp hk
    rw [get?_ofList hn hw] at h
    exact Option.some.inj h ▸ hw
  · rw [ofList, get?_foldl_insert_of_not_mem hk] at h
    cases h

theorem entries_nodup (m : OrderedMap α β) : m.entries.Nodup :=
  m.sorted.imp fun {a b} (h : a.1 < b.1) (heq : a = b) ↦ lt_irrefl a.1 (heq ▸ h)

theorem entries_perm {m : OrderedMap α β} {k : α} {v : β} (h : m.get? k = some v) :
    m.entries.Perm ((k, v) :: (m.erase k).entries) := by
  have hother : (k, v) ∉ (m.erase k).entries := by
    rw [mem_entries, get?_erase, if_pos rfl]
    exact nofun
  refine (List.perm_ext_iff_of_nodup m.entries_nodup
    (List.nodup_cons.mpr ⟨hother, (m.erase k).entries_nodup⟩)).mpr fun ⟨j, w⟩ ↦ ?_
  rw [List.mem_cons, mem_entries, mem_entries, get?_erase, Prod.mk.injEq]
  by_cases hj : k = j
  · subst hj
    rw [h, Option.some.injEq, if_pos rfl]
    constructor
    · rintro rfl
      exact .inl ⟨rfl, rfl⟩
    · rintro (⟨-, rfl⟩ | h)
      · rfl
      · cases h
  · rw [if_neg hj]
    exact (or_iff_right fun h ↦ hj h.1.symm).symm

theorem entries_insert (m : OrderedMap α β) (k : α) (v : β) :
    (m.insert k v).entries.Perm ((k, v) :: (m.erase k).entries) := by
  have hinserted : (m.insert k v).get? k = some v := by rw [get?_insert, if_pos rfl]
  refine (entries_perm hinserted).trans (.cons _ ?_)
  refine (List.perm_ext_iff_of_nodup (entries_nodup _) (entries_nodup _)).mpr fun ⟨j, w⟩ ↦ ?_
  rw [mem_entries, mem_entries, get?_erase, get?_erase, get?_insert]
  split_ifs <;> rfl

theorem erase_of_not_mem {m : OrderedMap α β} {k : α} (h : m.get? k = none) :
    (m.erase k).entries.Perm m.entries := by
  refine (List.perm_ext_iff_of_nodup (entries_nodup _) (entries_nodup _)).mpr fun ⟨j, w⟩ ↦ ?_
  rw [mem_entries, mem_entries, get?_erase]
  split_ifs with hj
  · subst hj
    simp [h]
  · rfl

theorem mem_values {m : OrderedMap α β} {v : β} : v ∈ m.values ↔ ∃ k, m.get? k = some v := by
  simp only [values, List.mem_map, Prod.exists, exists_eq_right, mem_entries]

end OrderedMap

import Mathlib.Data.List.Sort

set_option autoImplicit false

namespace List

variable {α : Type} {r s : α → α → Prop} [DecidableRel r] [IsTrans α r] {a : α} {l : List α}

theorem filter_orderedInsert {p : α → Bool} (h : l.Pairwise r) :
    (l.orderedInsert r a).filter p =
      if p a then (l.filter p).orderedInsert r a else l.filter p := by
  induction l with
  | nil => cases hp : p a <;> simp [hp]
  | cons b rest ih =>
    obtain ⟨hb, hrest⟩ := pairwise_cons.mp h
    by_cases hab : r a b
    · rw [orderedInsert_cons_of_le r _ hab, filter_cons]
      split_ifs with hp
      · have hfirst : ∀ c ∈ (b :: rest).filter p, r a c := by
          intro c hc
          rcases mem_cons.mp (mem_of_mem_filter hc) with rfl | hc
          · exact hab
          · exact trans_of r hab (hb c hc)
        cases hfilter : (b :: rest).filter p with
        | nil => rfl
        | cons c kept =>
          rw [orderedInsert_cons_of_le r _ (hfirst c (hfilter ▸ mem_cons_self))]
      · rfl
    · rw [orderedInsert_of_not_le r _ hab, filter_cons, filter_cons, ih hrest]
      split_ifs with hpb hpa hpa
      · rw [orderedInsert_of_not_le r _ hab]
      · rfl
      · rfl
      · rfl

variable [Std.Total r]

theorem Pairwise.orderedInsert_stable (hl : l.Pairwise fun b c ↦ r b c ∧ (r c b → s b c))
    (ha : ∀ b ∈ l, s a b) :
    (l.orderedInsert r a).Pairwise fun b c ↦ r b c ∧ (r c b → s b c) := by
  induction l with
  | nil => exact pairwise_singleton _ a
  | cons b rest ih =>
    obtain ⟨hb, hrest⟩ := pairwise_cons.mp hl
    by_cases hab : r a b
    · rw [orderedInsert_cons_of_le r _ hab]
      refine pairwise_cons.mpr ⟨fun c hc ↦ ⟨?_, fun _ ↦ ha c hc⟩, hl⟩
      rcases mem_cons.mp hc with rfl | hc
      · exact hab
      · exact trans_of r hab (hb c hc).1
    · rw [orderedInsert_of_not_le r _ hab]
      refine pairwise_cons.mpr ⟨fun c hc ↦ ?_, ih hrest fun c hc ↦ ha c (mem_cons_of_mem _ hc)⟩
      rcases (mem_orderedInsert r).mp hc with rfl | hc
      · exact ⟨(total_of r c b).resolve_left hab, fun h ↦ absurd h hab⟩
      · exact hb c hc

theorem Pairwise.insertionSort_stable (h : l.Pairwise s) :
    (l.insertionSort r).Pairwise fun b c ↦ r b c ∧ (r c b → s b c) := by
  induction l with
  | nil => exact .nil
  | cons a rest ih =>
    obtain ⟨ha, hrest⟩ := pairwise_cons.mp h
    rw [insertionSort_cons]
    exact (ih hrest).orderedInsert_stable fun b hb ↦ ha b ((mem_insertionSort r).mp hb)

theorem filter_insertionSort (p : α → Bool) :
    (l.insertionSort r).filter p = (l.filter p).insertionSort r := by
  induction l with
  | nil => rfl
  | cons a rest ih =>
    rw [insertionSort_cons, filter_orderedInsert (pairwise_insertionSort r rest), ih, filter_cons]
    split_ifs
    · rw [insertionSort_cons]
    · rfl

end List

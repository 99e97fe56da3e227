import Mathlib.Data.List.DropRight
import Mathlib.Data.List.Sort

set_option autoImplicit false

namespace List

variable {α β κ τ : Type} [LinearOrder κ] [LinearOrder τ] {key : α → κ} {time : α → τ} {l : List α}
  {a x : α} {n : ℕ}

theorem rdrop_append_rtake (l : List α) (n : ℕ) : l.rdrop n ++ l.rtake n = l :=
  take_append_drop _ l

theorem map_rtake (f : α → β) (l : List α) (n : ℕ) : (l.map f).rtake n = (l.rtake n).map f := by
  rw [rtake, length_map, ← map_drop, rtake]

theorem rtake_rtake_concat (l : List α) (a : α) (n : ℕ) :
    (l.rtake n ++ [a]).rtake n = (l ++ [a]).rtake n := by
  cases n with
  | zero => rw [rtake_zero, rtake_zero]
  | succ n =>
    rw [rtake_concat_succ, rtake_concat_succ]
    congr 1
    rw [rtake_eq_reverse_take_reverse, rtake_eq_reverse_take_reverse l,
      rtake_eq_reverse_take_reverse, reverse_reverse, take_take, min_eq_left n.le_succ]

theorem filter_greatest (h : l.Pairwise fun a b ↦ key a < key b) :
    (l.filter fun a ↦ key a ∈ ((l.map key).mergeSort (· ≥ ·)).take n) = l.rtake n := by
  have hsorted : (l.map key).mergeSort (· ≥ ·) = (l.map key).reverse := by
    refine Perm.eq_of_pairwise' (r := (· ≥ ·)) (pairwise_mergeSort' (· ≥ ·) _) ?_
      ((mergeSort_perm _ _).trans (reverse_perm _).symm)
    rw [pairwise_reverse, pairwise_map]
    exact h.imp le_of_lt
  have htake : (l.map key).reverse.take n = ((l.rtake n).map key).reverse := by
    rw [← map_reverse, ← map_reverse, ← map_take, rtake_eq_reverse_take_reverse, reverse_reverse]
  rw [hsorted, htake]
  have hsplit := rdrop_append_rtake l n
  rw [← hsplit, pairwise_append] at h
  obtain ⟨-, -, hbefore⟩ := h
  have hdropped : (l.rdrop n).filter (key · ∈ ((l.rtake n).map key).reverse) = [] := by
    rw [filter_eq_nil_iff]
    intro a ha hkey
    rw [decide_eq_true_eq, mem_reverse, mem_map] at hkey
    obtain ⟨b, hb, hsame⟩ := hkey
    exact (hbefore a ha b hb).ne' hsame
  have hkept : (l.rtake n).filter (key · ∈ ((l.rtake n).map key).reverse) = l.rtake n := by
    rw [filter_eq_self]
    intro a ha
    rw [decide_eq_true_eq, mem_reverse]
    exact mem_map_of_mem ha
  calc l.filter (key · ∈ ((l.rtake n).map key).reverse)
      = (l.rdrop n ++ l.rtake n).filter (key · ∈ ((l.rtake n).map key).reverse) := by rw [hsplit]
    _ = l.rtake n := by rw [filter_append, hdropped, hkept, nil_append]

def newest? (time : α → τ) (l : List α) : Option α :=
  l.foldl (fun latest a ↦ if latest.any (time a < time ·) then latest else some a) none

/-- Nothing before an entry is newer, and all that comes after it is older. -/
def IsNewest (time : α → τ) (x : α) (l : List α) : Prop :=
  ∃ before after, l = before ++ x :: after ∧ (∀ y ∈ before, time y ≤ time x) ∧
    ∀ y ∈ after, time y < time x

theorem newest?_concat (time : α → τ) (l : List α) (a : α) : (l ++ [a]).newest? time =
    if (l.newest? time).any (time a < time ·) then l.newest? time else some a := by
  rw [newest?, foldl_append]
  rfl

theorem newest?_eq_none : l.newest? time = none ↔ l = [] := by
  induction l using reverseRecOn with
  | nil => exact iff_of_true rfl rfl
  | append_singleton l a ih =>
    rw [newest?_concat]
    refine iff_of_false (fun h ↦ ?_) (append_ne_nil_of_right_ne_nil _ (cons_ne_nil _ _))
    split_ifs at h with hnewer
    rw [h] at hnewer
    cases hnewer

theorem IsNewest.le (h : IsNewest time x l) : ∀ y ∈ l, time y ≤ time x := by
  obtain ⟨before, after, rfl, hbefore, hafter⟩ := h
  intro y hy
  rcases mem_append.mp hy with hy | hy
  · exact hbefore y hy
  · rcases mem_cons.mp hy with rfl | hy
    · exact le_refl _
    · exact (hafter y hy).le

theorem IsNewest.mem (h : IsNewest time x l) : x ∈ l := by
  obtain ⟨before, after, rfl, -⟩ := h
  exact mem_append_right _ mem_cons_self

theorem isNewest_concat : IsNewest time x (l ++ [a]) ↔
    IsNewest time x l ∧ time a < time x ∨ x = a ∧ ∀ y ∈ l, time y ≤ time a := by
  constructor
  · rintro ⟨before, after, hl, hbefore, hafter⟩
    rcases eq_nil_or_concat after with rfl | ⟨rest, b, rfl⟩
    · obtain ⟨rfl, hx⟩ := append_inj' hl rfl
      obtain rfl := singleton_inj.mp hx
      exact .inr ⟨rfl, hbefore⟩
    · rw [concat_eq_append] at hl hafter
      rw [← cons_append, ← append_assoc] at hl
      obtain ⟨rfl, hb⟩ := append_inj' hl rfl
      obtain rfl := singleton_inj.mp hb
      refine .inl ⟨⟨before, rest, rfl, hbefore, fun y hy ↦ ?_⟩, ?_⟩
      · exact hafter y (mem_append_left _ hy)
      · exact hafter a (mem_append_right _ mem_cons_self)
  · rintro (⟨⟨before, after, rfl, hbefore, hafter⟩, ha⟩ | ⟨rfl, hl⟩)
    · refine ⟨before, after ++ [a], by simp, hbefore, fun y hy ↦ ?_⟩
      rcases mem_append.mp hy with hy | hy
      · exact hafter y hy
      · rwa [mem_singleton.mp hy]
    · exact ⟨l, [], rfl, hl, forall_mem_nil _⟩

theorem newest?_eq_some : l.newest? time = some x ↔ IsNewest time x l := by
  induction l using reverseRecOn generalizing x with
  | nil => exact iff_of_false (fun h ↦ Option.some_ne_none x h.symm) fun h ↦ not_mem_nil h.mem
  | append_singleton l a ih =>
    rw [newest?_concat, isNewest_concat, ← ih]
    cases hnewest : l.newest? time with
    | none =>
      obtain rfl := newest?_eq_none.mp hnewest
      simp [eq_comm]
    | some m =>
      have hm := ih.mp hnewest
      rw [Option.any_some, Option.some_inj]
      split_ifs with hnewer
      · rw [decide_eq_true_eq] at hnewer
        constructor
        · rintro ⟨⟩
          exact .inl ⟨rfl, hnewer⟩
        · rintro (⟨rfl, -⟩ | ⟨rfl, hl⟩)
          · rfl
          · exact absurd (hl m hm.mem) (not_le.mpr hnewer)
      · rw [decide_eq_true_eq, not_lt] at hnewer
        constructor
        · rintro ⟨⟩
          exact .inr ⟨rfl, fun y hy ↦ (hm.le y hy).trans hnewer⟩
        · rintro (⟨rfl, hnew⟩ | ⟨rfl, -⟩)
          · exact absurd hnew (not_lt.mpr hnewer)
          · rfl

end List

import Mathlib.Data.List.Forall2
import Mathlib.Data.List.Pairwise
import Mathlib.Tactic.Cases

set_option autoImplicit false

/-- Rows in insertion order. Two rows of a table never clash: `clash` says that
they agree on a column declared unique. -/
structure Table (α : Type) (clash : α → α → Prop) where
  rows : List α
  distinct : rows.Pairwise fun a b ↦ ¬clash a b

namespace Table

variable {α : Type} {clash : α → α → Prop}

def empty : Table α clash := ⟨[], .nil⟩

def find? (t : Table α clash) (p : α → Bool) : Option α := t.rows.find? p

def delete (t : Table α clash) (p : α → Bool) : Table α clash :=
  ⟨t.rows.filter fun row ↦ !p row, t.distinct.filter _⟩

def rewrite (t : Table α clash) (f : α → α) (hf : ∀ a b, clash (f a) (f b) → clash a b) :
    Table α clash :=
  ⟨t.rows.map f, List.pairwise_map.mpr (t.distinct.imp fun {a b} hab h ↦ hab (hf a b h))⟩

section Write

variable [DecidableRel clash]

def ofRows (rows : List α) : Option (Table α clash) :=
  if h : rows.Pairwise fun a b ↦ ¬clash a b then some ⟨rows, h⟩ else none

def insert (t : Table α clash) (row : α) : Option (Table α clash) :=
  if h : ∀ other ∈ t.rows, ¬clash other row then
    some ⟨t.rows ++ [row], List.pairwise_append.mpr
      ⟨t.distinct, List.pairwise_singleton _ _, fun a ha _ hb ↦ List.mem_singleton.mp hb ▸ h a ha⟩⟩
  else
    none

/-- Rewrites every row that satisfies `p`, unless two rows would then clash. -/
def update (t : Table α clash) (p : α → Bool) (f : α → α) : Option (Table α clash) :=
  ofRows (t.rows.map fun row ↦ if p row then f row else row)

/-- `INSERT ... ON CONFLICT DO NOTHING`. -/
def insertOrIgnore (t : Table α clash) (row : α) : Table α clash := (t.insert row).getD t

/-- `INSERT ... ON CONFLICT DO UPDATE`: rewrites the rows that satisfy `p`, or
inserts a row if there is none. -/
def upsert (t : Table α clash) (p : α → Bool) (row : α) (f : α → α) : Option (Table α clash) :=
  if t.rows.any p then t.update p f else t.insert row

end Write

variable {t u : Table α clash} {row x y : α} {p : α → Bool} {f : α → α}

theorem find?_some (h : t.find? p = some row) : row ∈ t.rows ∧ p row = true :=
  ⟨List.mem_of_find?_eq_some h, List.find?_some h⟩

theorem find?_none (h : t.find? p = none) : ∀ row ∈ t.rows, p row = false := by
  intro row hrow
  simpa using List.find?_eq_none.mp h row hrow

theorem eq_of_clash [Std.Symm clash] (hx : x ∈ t.rows) (hy : y ∈ t.rows) (h : clash x y) :
    x = y := by
  have : Std.Symm fun a b ↦ ¬clash a b := ⟨fun _ _ hn hc ↦ hn (Std.Symm.symm _ _ hc)⟩
  by_contra hne
  exact t.distinct.forall hx hy hne h

@[ext] theorem ext (h : t.rows = u.rows) : t = u := by
  cases t
  cases u
  cases h
  rfl

theorem mem_rewrite {hf : ∀ a b, clash (f a) (f b) → clash a b} :
    x ∈ (t.rewrite f hf).rows ↔ ∃ row ∈ t.rows, f row = x :=
  List.mem_map

theorem mem_delete : x ∈ (t.delete p).rows ↔ x ∈ t.rows ∧ p x = false := by
  simp [delete]

theorem pairwise_of_forall₂ {R : α → α → Prop} {rows rows' : List α}
    (hR : ∀ {a a' b b'}, R a a' → R b b' → clash a' b' → clash a b)
    (h : List.Forall₂ R rows rows') (hrows : rows.Pairwise fun a b ↦ ¬clash a b) :
    rows'.Pairwise fun a b ↦ ¬clash a b := by
  rw [List.pairwise_iff_getElem] at hrows ⊢
  intro i j hi hj hij hclash
  have hlength := h.length_eq
  have hri := h.get (hlength ▸ hi) hi
  have hrj := h.get (hlength ▸ hj) hj
  exact hrows i j (hlength ▸ hi) (hlength ▸ hj) hij (hR hri hrj hclash)

variable [DecidableRel clash]

theorem ofRows_some {rows : List α} (h : ofRows rows = some u) : u.rows = rows := by
  unfold ofRows at h
  split at h
  · cases h
    rfl
  · cases h

theorem ofRows_of {rows : List α} (h : rows.Pairwise fun a b ↦ ¬clash a b) :
    ofRows rows = some ⟨rows, h⟩ :=
  dif_pos h

theorem insert_some (h : t.insert row = some u) :
    u.rows = t.rows ++ [row] ∧ ∀ other ∈ t.rows, ¬clash other row := by
  unfold insert at h
  split at h
  next hfree =>
    cases h
    exact ⟨rfl, hfree⟩
  · cases h

theorem insert_of (h : ∀ other ∈ t.rows, ¬clash other row) :
    ∃ u, t.insert row = some u ∧ u.rows = t.rows ++ [row] :=
  ⟨_, dif_pos h, rfl⟩

theorem mem_insertOrIgnore (h : x ∈ (t.insertOrIgnore row).rows) : x ∈ t.rows ∨ x = row := by
  unfold insertOrIgnore at h
  cases hinsert : t.insert row with
  | none =>
    rw [hinsert] at h
    exact .inl h
  | some u =>
    rw [hinsert, Option.getD_some, (insert_some hinsert).1] at h
    simpa using h

theorem mem_insertOrIgnore_of_ne (hne : x ≠ row) :
    x ∈ (t.insertOrIgnore row).rows ↔ x ∈ t.rows := by
  refine ⟨fun h ↦ (mem_insertOrIgnore h).resolve_right hne, fun h ↦ ?_⟩
  unfold insertOrIgnore
  cases hinsert : t.insert row with
  | none => exact h
  | some u =>
    rw [Option.getD_some, (insert_some hinsert).1]
    exact List.mem_append_left _ h

theorem mem_insert (h : t.insert row = some u) : x ∈ u.rows ↔ x ∈ t.rows ∨ x = row := by
  rw [(insert_some h).1, List.mem_append, List.mem_singleton]

theorem update_some (h : t.update p f = some u) :
    u.rows = t.rows.map fun row ↦ if p row then f row else row :=
  ofRows_some h

theorem update_of (h : ∀ a ∈ t.rows, ∀ b ∈ t.rows,
    clash (if p a then f a else a) (if p b then f b else b) → clash a b) :
    ∃ u, t.update p f = some u := by
  refine ⟨_, ofRows_of (List.pairwise_map.mpr (t.distinct.imp_of_mem ?_))⟩
  intro a b ha hb hab hclash
  exact hab (h a ha b hb hclash)

theorem mem_update (h : t.update p f = some u) :
    x ∈ u.rows ↔ (∃ row ∈ t.rows, p row = true ∧ f row = x) ∨ x ∈ t.rows ∧ p x = false := by
  rw [update_some h, List.mem_map]
  constructor
  · rintro ⟨row, hrow, rfl⟩
    by_cases hp : p row = true
    · exact .inl ⟨row, hrow, hp, by rw [if_pos hp]⟩
    · rw [if_neg hp]
      exact .inr ⟨hrow, by simpa using hp⟩
  · rintro (⟨row, hrow, hp, rfl⟩ | ⟨hx, hp⟩)
    · exact ⟨row, hrow, by rw [if_pos hp]⟩
    · exact ⟨x, hx, by rw [if_neg (by simp [hp])]⟩

theorem mem_update_of_unique (h : t.update p f = some u) (hrow : row ∈ t.rows) (hp : p row = true)
    (hunique : ∀ other ∈ t.rows, p other = true → other = row) :
    x ∈ u.rows ↔ x = f row ∨ x ∈ t.rows ∧ x ≠ row := by
  rw [mem_update h]
  constructor
  · rintro (⟨other, hother, hpo, rfl⟩ | ⟨hx, hpx⟩)
    · rw [hunique other hother hpo]
      exact .inl rfl
    · exact .inr ⟨hx, by rintro rfl; rw [hp] at hpx; cases hpx⟩
  · rintro (rfl | ⟨hx, hne⟩)
    · exact .inl ⟨row, hrow, hp, rfl⟩
    · refine .inr ⟨hx, ?_⟩
      by_contra hpx
      exact hne (hunique x hx (by simpa using hpx))

theorem upsert_some (h : t.upsert p row f = some u) :
    (t.rows.any p = true ∧ t.update p f = some u) ∨
      (∀ other ∈ t.rows, p other = false) ∧ t.insert row = some u := by
  unfold upsert at h
  split at h
  next hany => exact .inl ⟨hany, h⟩
  next hany => exact .inr ⟨by simpa using hany, h⟩

theorem upsert_of (hkeep : ∀ a ∈ t.rows, ∀ b ∈ t.rows,
      clash (if p a then f a else a) (if p b then f b else b) → clash a b)
    (hfree : ∀ other ∈ t.rows, p other = false → ¬clash other row) :
    ∃ u, t.upsert p row f = some u := by
  unfold upsert
  split
  next => exact update_of hkeep
  next hnone =>
    have hnone : ∀ other ∈ t.rows, p other = false := by simpa using hnone
    obtain ⟨u, hu, -⟩ := insert_of fun other hother ↦ hfree other hother (hnone other hother)
    exact ⟨u, hu⟩

theorem mem_upsert (h : t.upsert p row f = some u) : x ∈ u.rows ↔
    x ∈ t.rows ∧ p x = false ∨ (∃ old ∈ t.rows, p old = true ∧ f old = x) ∨
      (∀ other ∈ t.rows, p other = false) ∧ x = row := by
  rcases upsert_some h with ⟨hany, hupdate⟩ | ⟨hnone, hinsert⟩
  · obtain ⟨found, hfound, hp⟩ := List.any_eq_true.mp hany
    have hsome : ¬∀ other ∈ t.rows, p other = false := by
      intro hnone
      rw [hnone found hfound] at hp
      cases hp
    rw [mem_update hupdate, or_comm]
    simp only [hsome, false_and, or_false]
  · have hfree : ¬∃ old ∈ t.rows, p old = true ∧ f old = x := by
      rintro ⟨old, hold, hp, -⟩
      rw [hnone old hold] at hp
      cases hp
    rw [mem_insert hinsert]
    constructor
    · intro hx
      exact hx.imp (fun hx ↦ ⟨hx, hnone x hx⟩) fun hx ↦ .inr ⟨hnone, hx⟩
    · intro hx
      exact hx.imp And.left fun hx ↦ (hx.resolve_left hfree).2

end Table

import Mathlib.Data.Finset.Card

set_option autoImplicit false

/-- What a recursion returns, or nothing if it goes deeper than allowed or gets stuck. -/
abbrev Limited (ε α : Type) := ExceptT ε Option α

namespace Limited

variable {ε σ α β : Type} {f : σ → α → Limited ε σ} {g : σ → α → Except ε σ} {l : List α} {s : σ}

def stuck : Limited ε α := ExceptT.mk none

def done (result : Except ε α) : Limited ε α := ExceptT.mk (some result)

theorem done_bind {x : Except ε σ} {h : σ → Limited ε α} :
    done x >>= h = match x with
      | .ok a => h a
      | .error e => done (.error e) := by
  cases x <;> rfl

theorem done_map {x : Except ε β} {k : β → σ} {h : σ → α} :
    (done (x.map k) >>= fun s ↦ pure (h s)) = done (x.map fun b ↦ h (k b)) := by
  cases x <;> rfl

theorem done_discard {x : Except ε σ} {b : β} :
    (done x >>= fun _ ↦ pure b : Limited ε β) = done (x >>= fun _ ↦ .ok b) := by
  cases x <;> rfl

theorem foldlM_done (inv : σ → Prop) (hs : inv s)
    (hdone : ∀ a ∈ l, ∀ s, inv s → f s a = done (g s a))
    (hkeep : ∀ a ∈ l, ∀ s s', inv s → g s a = .ok s' → inv s') :
    l.foldlM f s = done (l.foldlM g s) := by
  induction l generalizing s with
  | nil => rfl
  | cons a rest ih =>
    rw [List.forall_mem_cons] at hdone hkeep
    rw [List.foldlM_cons, List.foldlM_cons, hdone.1 s hs, done_bind]
    cases hstep : g s a with
    | error e => rfl
    | ok s' => exact ih (hkeep.1 s s' hs hstep) hdone.2 hkeep.2

theorem card_unseen_lt {α : Type} [DecidableEq α] {nodes seen : Finset α} {a : α} {fuel : ℕ}
    (hnode : a ∈ nodes) (hnew : a ∉ seen) (hfuel : (nodes \ seen).card < fuel + 1) :
    (nodes \ insert a seen).card < fuel := by
  have hlt : (nodes \ insert a seen).card < (nodes \ seen).card := by
    refine Finset.card_lt_card ((Finset.ssubset_iff_of_subset ?_).mpr ⟨a, ?_, ?_⟩)
    · exact Finset.sdiff_subset_sdiff (Finset.Subset.refl _) (Finset.subset_insert _ _)
    · exact Finset.mem_sdiff.mpr ⟨hnode, hnew⟩
    · exact fun h ↦ (Finset.mem_sdiff.mp h).2 (Finset.mem_insert_self _ _)
  omega

end Limited

import StealthHub.Effect.Crash

set_option autoImplicit false

namespace Effect.Program

universe u v

variable {Op : Type u} {Reply : Op → Type} {ε α : Type} {S : Type v}
variable {step : S → (op : Op) → Reply op → S → Prop}

structure Fence (Reply : Op → Type) where
  early : Op → Prop
  token : Σ op, Reply op
  late : Op → Prop
  guarded : Op → Prop
  /-- What is guarded is not asked for early. -/
  clear : ∀ op, early op → ¬guarded op

namespace Fence

variable (f : Fence Reply) {log : List (Σ op, Reply op)} {e : Σ op, Reply op}

def Early (log : List (Σ op, Reply op)) : Prop := ∀ e ∈ log, f.early e.1

def Passed (log : List (Σ op, Reply op)) : Prop :=
  ∃ before after, log = before ++ f.token :: after ∧ f.Early before ∧ ∀ e ∈ after, f.late e.1

def Guards (log : List (Σ op, Reply op)) : Prop :=
  ∀ before e after, log = before ++ e :: after → f.guarded e.1 → f.Passed before

variable {f}

theorem Early.guards (h : f.Early log) : f.Guards log := by
  intro before e after hlog he
  refine absurd he (f.clear e.1 (h e ?_))
  rw [hlog]
  exact List.mem_append_right _ List.mem_cons_self

theorem Early.passed (h : f.Early log) : f.Passed (log ++ [f.token]) :=
  ⟨log, [], rfl, h, fun _ hx ↦ absurd hx List.not_mem_nil⟩

theorem Passed.concat (h : f.Passed log) (he : f.late e.1) : f.Passed (log ++ [e]) := by
  obtain ⟨before, after, rfl, hbefore, hafter⟩ := h
  refine ⟨before, after ++ [e], by simp, hbefore, fun x hx ↦ ?_⟩
  rcases List.mem_append.mp hx with hx | hx
  · exact hafter x hx
  · rw [List.mem_singleton.mp hx]
    exact he

theorem Guards.concat (h : f.Guards log) (he : f.guarded e.1 → f.Passed log) :
    f.Guards (log ++ [e]) := by
  intro before x after hlog hx
  rcases List.eq_nil_or_concat after with rfl | ⟨rest, y, rfl⟩
  · obtain ⟨rfl, hxe⟩ := List.append_inj' hlog rfl
    rw [List.singleton_inj.mp hxe] at he
    exact he hx
  · rw [List.concat_eq_append, ← List.cons_append, ← List.append_assoc] at hlog
    exact h before x rest (List.append_inj' hlog rfl).1 hx

variable {p : Program Reply ε α} {s : Traced Reply S}

theorem safe_early (hp : p.Uses f.early) (hs : f.Early s.log) :
    Safe (tracedStep step) (fun t ↦ f.Guards t.log) (fun _ t ↦ f.Guards t.log)
      (fun _ t ↦ f.Early t.log) p s := by
  refine (safe_recorded hp hs).mono (fun _ ↦ Early.guards) ?_ (fun _ _ _ ↦ id)
  intro e t _ ht
  exact Early.guards ht

theorem safe_late (hp : p.Uses f.late) (hg : f.Guards s.log) (hs : f.Passed s.log) :
    Safe (tracedStep step) (fun t ↦ f.Guards t.log) (fun _ t ↦ f.Guards t.log)
      (fun _ t ↦ f.Guards t.log ∧ f.Passed t.log) p s := by
  have hstep : ∀ (u : Traced Reply S) op r t, f.late op → f.Guards u.log ∧ f.Passed u.log →
      tracedStep step u op r t → f.Guards t.log ∧ f.Passed t.log := by
    intro u op r t hop hu ht
    rw [ht.2]
    exact ⟨hu.1.concat fun _ ↦ hu.2, hu.2.concat hop⟩
  refine (safe_of_uses hp hstep ⟨hg, hs⟩).mono (fun _ ↦ And.left) ?_ (fun _ _ _ ↦ id)
  intro e t _ ht
  exact ht.1

theorem safe_unguarded (hp : p.Uses fun op ↦ ¬f.guarded op) (hs : f.Guards s.log) :
    Safe (tracedStep step) (fun t ↦ f.Guards t.log) (fun _ t ↦ f.Guards t.log)
      (fun _ t ↦ f.Guards t.log) p s := by
  have hstep : ∀ (u : Traced Reply S) op r t, ¬f.guarded op → f.Guards u.log →
      tracedStep step u op r t → f.Guards t.log := by
    intro u op r t hop hu ht
    rw [ht.2]
    exact hu.concat fun he ↦ absurd he hop
  exact safe_of_uses hp hstep hs

end Fence

end Effect.Program

import Mathlib.Tactic.Cases

set_option autoImplicit false

namespace Loop

variable {σ β : Type} {step : σ → σ ⊕ β} {s s' : σ} {b b' : β}

/-- The loop ends in a result. -/
inductive Returns (step : σ → σ ⊕ β) : σ → β → Prop
  | done {s : σ} {b : β} : step s = .inr b → Returns step s b
  | next {s s' : σ} {b : β} : step s = .inl s' → Returns step s' b → Returns step s b

theorem Returns.unique (h : Returns step s b) (h' : Returns step s b') : b = b' := by
  induction h with
  | done hstep =>
    cases h' with
    | done hstep' => exact Sum.inr.inj (hstep.symm.trans hstep')
    | next hstep' _ => cases hstep.symm.trans hstep'
  | next hstep _ ih =>
    cases h' with
    | done hstep' => cases hstep.symm.trans hstep'
    | next hstep' hrest =>
      cases hstep.symm.trans hstep'
      exact ih hrest

theorem exists_returns {Inv : σ → Prop} {r : σ → σ → Prop} (hwf : WellFounded r)
    (hstep : ∀ s s', Inv s → step s = .inl s' → Inv s' ∧ r s' s) (hs : Inv s) :
    ∃ b, Returns step s b := by
  induction s using hwf.induction with
  | h s ih =>
    cases hnext : step s with
    | inr b => exact ⟨b, .done hnext⟩
    | inl s' =>
      obtain ⟨hs', hlt⟩ := hstep s s' hs hnext
      obtain ⟨b, hb⟩ := ih s' hlt hs'
      exact ⟨b, .next hnext hb⟩

end Loop

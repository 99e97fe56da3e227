import Mathlib.Data.Nat.Notation
import Mathlib.Logic.Relation

set_option autoImplicit false

namespace Relation

variable {α β : Type} {r s : α → α → Prop}

def Acyclic (r : α → α → Prop) : Prop := ∀ a, ¬TransGen r a a

theorem Acyclic.mono (hs : Acyclic s) (h : ∀ a b, r a b → s a b) : Acyclic r :=
  fun a hcycle ↦ hs a (TransGen.mono h a a hcycle)

theorem Acyclic.of_map {t : β → β → Prop} {f : α → β} (ht : Acyclic t)
    (h : ∀ a b, r a b → t (f a) (f b)) : Acyclic r :=
  fun a hcycle ↦ ht (f a) (TransGen.lift f h a a hcycle)

theorem Acyclic.of_returning (hr : Acyclic r) (h : ∀ a b, s a b → ReflTransGen s b a → r a b) :
    Acyclic s := by
  have hpath : ∀ a b, TransGen s a b → ReflTransGen s b a → TransGen r a b := by
    intro a b hab
    induction hab with
    | single hedge => exact fun hback ↦ .single (h _ _ hedge hback)
    | @tail b c hab hedge ih =>
      intro hback
      refine (ih (.head hedge hback)).tail (h _ _ hedge ?_)
      exact hback.trans hab.to_reflTransGen
  exact fun a hcycle ↦ hr a (hpath a a hcycle .refl)

theorem Acyclic.of_descending (hs : Acyclic s) {p : α → Prop} {rank : α → ℕ}
    (hin : ∀ a b, r a b → p a → p b ∧ rank b < rank a)
    (hout : ∀ a b, r a b → ¬p a → ¬p b → s a b) : Acyclic r := by
  have hstays : ∀ a b, ReflTransGen r a b → p a → p b ∧ rank b ≤ rank a := by
    intro a b hab ha
    induction hab with
    | refl => exact ⟨ha, Nat.le_refl _⟩
    | tail _ hedge ih =>
      have h := hin _ _ hedge ih.1
      exact ⟨h.1, by omega⟩
  apply hs.of_returning
  intro a b hedge hback
  by_cases ha : p a
  · have hdescends := hin a b hedge ha
    have hreturns := hstays b a hback hdescends.1
    omega
  · exact hout a b hedge ha fun hb ↦ ha (hstays b a hback hb).1

section Redirect

variable {removed : α → Prop} {target : α}

def Redirected (r : α → α → Prop) (removed : α → Prop) (target a b : α) : Prop :=
  ¬removed a ∧ (r a b ∧ ¬removed b ∨ b = target ∧ ∃ c, removed c ∧ r a c)

theorem Redirected.path {a b : α} (h : TransGen (Redirected r removed target) a b) :
    TransGen r a b ∨ ReflTransGen (Redirected r removed target) target b ∧
      ∃ c, removed c ∧ TransGen r a c := by
  induction h with
  | single hedge =>
    rcases hedge with ⟨-, ⟨hedge, -⟩ | ⟨rfl, c, hc, hac⟩⟩
    · exact .inl (.single hedge)
    · exact .inr ⟨.refl, c, hc, .single hac⟩
  | tail _ hedge ih =>
    rcases ih with hab | ⟨hfrom, hinto⟩
    · rcases hedge with ⟨-, ⟨hedge, -⟩ | ⟨rfl, c, hc, hbc⟩⟩
      · exact .inl (hab.tail hedge)
      · exact .inr ⟨.refl, c, hc, hab.tail hbc⟩
    · exact .inr ⟨hfrom.tail hedge, hinto⟩

theorem Redirected.reaches {a c : α} (h : TransGen r a c) (ha : ¬removed a) (hc : removed c) :
    TransGen (Redirected r removed target) a target := by
  induction h using TransGen.head_induction_on with
  | single hedge => exact .single ⟨ha, .inr ⟨rfl, c, hc, hedge⟩⟩
  | @head a b hedge _ ih =>
    by_cases hb : removed b
    · exact .single ⟨ha, .inr ⟨rfl, b, hb, hedge⟩⟩
    · exact .head ⟨ha, .inl ⟨hedge, hb⟩⟩ (ih hb)

theorem acyclic_redirected_iff (hr : Acyclic r) (htarget : ¬removed target) :
    Acyclic (Redirected r removed target) ↔ ∀ c, removed c → ¬TransGen r target c := by
  constructor
  · intro hacyclic c hc hpath
    exact hacyclic target (Redirected.reaches hpath htarget hc)
  · intro hfree a hcycle
    rcases Redirected.path hcycle with hold | ⟨hfrom, c, hc, hac⟩
    · exact hr a hold
    · rcases reflTransGen_iff_eq_or_transGen.mp hfrom with rfl | hta
      · exact hfree c hc hac
      · rcases Redirected.path hta with hold | ⟨-, d, hd, htd⟩
        · exact hfree c hc (hold.trans hac)
        · exact hfree d hd htd

end Redirect

end Relation

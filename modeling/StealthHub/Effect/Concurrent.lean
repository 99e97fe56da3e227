import Mathlib.Data.List.Chain
import Mathlib.Logic.Function.Basic
import Mathlib.Logic.Relation
import StealthHub.Effect.Program

set_option autoImplicit false

namespace Effect.Program

universe u v w

variable {Op : Type u} {Reply : Op → Type} {ε α β : Type} {S : Type v} {ι : Type w}
variable {step : S → (op : Op) → Reply op → S → Prop} {G : S → S → Prop} {A : S → Op → Prop}
variable {s t : S}

open Relation

/-- Any number of programs, each somewhere in its course, over one state. -/
structure Config (ι : Type w) (Reply : Op → Type) (ε α : Type) (S : Type v) where
  programs : ι → Program Reply ε α
  shared : S

section conforms

/-- Each request of the program satisfies `A`, and its value `Q`, whatever the others do to
the state in between. -/
def Conforms (step : S → (op : Op) → Reply op → S → Prop) (G : S → S → Prop)
    (A : S → Op → Prop) (Q : α → S → Prop) : Program Reply ε α → S → Prop
  | .done a, s => ∀ t, ReflTransGen G s t → Q a t
  | .fail _, _ => True
  | .call op next, s => ∀ s', ReflTransGen G s s' →
    A s' op ∧ ∀ r t, step s' op r t → (next r).Conforms step G A Q t

variable {Q : α → S → Prop}

theorem Conforms.after {p : Program Reply ε α} (h : p.Conforms step G A Q s)
    (ht : ReflTransGen G s t) : p.Conforms step G A Q t := by
  cases p with
  | done a => exact fun s' hs ↦ h s' (ht.trans hs)
  | fail e => trivial
  | call op next => exact fun s' hs ↦ h s' (ht.trans hs)

theorem conforms_bind {p : Program Reply ε α} {k : α → Program Reply ε β} {R : β → S → Prop}
    (hp : p.Conforms step G A Q s)
    (hk : ∀ a s, (∀ t, ReflTransGen G s t → Q a t) → (k a).Conforms step G A R s) :
    (p.bind k).Conforms step G A R s := by
  induction p generalizing s with
  | done a => exact hk a s hp
  | fail e => trivial
  | call op next ih =>
    intro s' hs
    obtain ⟨hop, hnext⟩ := hp s' hs
    exact ⟨hop, fun r t ht ↦ ih r (hnext r t ht)⟩

theorem conforms_lift {x : Except ε α} (h : ∀ a, x = .ok a → ∀ t, ReflTransGen G s t → Q a t) :
    (lift x : Program Reply ε α).Conforms step G A Q s := by
  cases x with
  | ok a => exact h a rfl
  | error e => trivial

theorem conforms_attempt {δ : Type} {p : Program Reply ε α} (hp : p.Conforms step G A Q s) :
    (p.attempt : Program Reply δ (Except ε α)).Conforms step G A
      (fun result t ↦ ∀ a, result = .ok a → Q a t) s := by
  induction p generalizing s with
  | done a =>
    intro t ht a' ha
    cases ha
    exact hp t ht
  | fail e => exact fun _ _ _ ha ↦ nomatch ha
  | call op next ih =>
    intro s' hs
    obtain ⟨hop, hnext⟩ := hp s' hs
    exact ⟨hop, fun r t ht ↦ ih r (hnext r t ht)⟩

theorem Uses.conforms {p : Program Reply ε α} (h : p.Uses fun op ↦ ∀ s, A s op) :
    p.Conforms step G A (fun _ _ ↦ True) s := by
  induction p generalizing s with
  | done a => exact fun _ _ ↦ trivial
  | fail e => trivial
  | call op next ih => exact fun s' _ ↦ ⟨h.1 s', fun r t _ ↦ ih r (h.2 r)⟩

theorem Conforms.frame {K : S → Prop} {p : Program Reply ε α} (h : p.Conforms step G A Q s)
    (hG : ∀ s op r t, step s op r t → G s t) (hK : ∀ s t, G s t → K s → K t) (hs : K s) :
    p.Conforms step G A (fun a t ↦ Q a t ∧ K t) s := by
  have hafter {s t : S} (ht : ReflTransGen G s t) (hs : K s) : K t := by
    induction ht with
    | refl => exact hs
    | tail _ hstep ih => exact hK _ _ hstep ih
  induction p generalizing s with
  | done a => exact fun t ht ↦ ⟨h t ht, hafter ht hs⟩
  | fail e => trivial
  | call op next ih =>
    intro s' hs'
    obtain ⟨hop, hnext⟩ := h s' hs'
    exact ⟨hop, fun r t ht ↦ ih r (hnext r t ht) (hK _ _ (hG _ _ _ _ ht) (hafter hs' hs))⟩

theorem Uses.conforms_bind {K : S → Prop} {R : β → S → Prop} {p : Program Reply ε α}
    {k : α → Program Reply ε β} (h : p.Uses fun op ↦ ∀ s, A s op)
    (hG : ∀ s op r t, step s op r t → G s t) (hK : ∀ s t, G s t → K s → K t) (hs : K s)
    (hk : ∀ a t, K t → (k a).Conforms step G A R t) : (p.bind k).Conforms step G A R s :=
  Program.conforms_bind (h.conforms.frame hG hK hs) fun a t ht ↦ hk a t (ht t .refl).2

end conforms

section turns

variable [DecidableEq ι] {Q : α → S → Prop} {c c' : Config ι Reply ε α S}

/-- A request of one of the programs is answered. -/
inductive Turn (step : S → (op : Op) → Reply op → S → Prop) :
    Config ι Reply ε α S → Config ι Reply ε α S → Prop
  | take {c : Config ι Reply ε α S} {i : ι} {op : Op} {next : Reply op → Program Reply ε α}
      {r : Reply op} {t : S} : c.programs i = .call op next → step c.shared op r t →
      Turn step c ⟨Function.update c.programs i (next r), t⟩

def Config.Conform (step : S → (op : Op) → Reply op → S → Prop) (G : S → S → Prop)
    (A : S → Op → Prop) (Q : α → S → Prop) (c : Config ι Reply ε α S) : Prop :=
  ∀ i, (c.programs i).Conforms step G A Q c.shared

theorem Turn.conform (h : Turn step c c') (hG : ∀ s op r t, step s op r t → G s t)
    (hc : c.Conform step G A Q) : c'.Conform step G A Q := by
  obtain @⟨i, op, next, r, t, hprogram, hstep⟩ := h
  intro j
  by_cases hj : j = i
  · subst hj
    have hown := hc j
    rw [hprogram] at hown
    show Conforms _ _ _ _ (Function.update c.programs j (next r) j) t
    rw [Function.update_self]
    exact (hown c.shared .refl).2 r t hstep
  · show Conforms _ _ _ _ (Function.update c.programs i (next r) j) t
    rw [Function.update_of_ne hj]
    exact (hc j).after (.single (hG _ _ _ _ hstep))

/-- Steps that keep to a rule. -/
def keepingTo (step : S → (op : Op) → Reply op → S → Prop)
    (rule : S → (op : Op) → Reply op → Prop) (s : S) (op : Op) (r : Reply op) (t : S) : Prop :=
  step s op r t ∧ rule s op r

theorem Turn.of_keepingTo {rule : S → (op : Op) → Reply op → Prop}
    (h : Turn (keepingTo step rule) c c') : Turn step c c' := by
  obtain ⟨hprogram, hstep⟩ := h
  exact .take hprogram hstep.1

/-- Where each step keeps a property of the state if and only if it keeps to the rule, a run has
the property throughout if and only if it is a run of such steps. -/
theorem forall_shared_iff {P : S → Prop} {rule : S → (op : Op) → Reply op → Prop}
    {cs : List (Config ι Reply ε α S)} (hG : ∀ s op r t, step s op r t → G s t)
    (hrule : ∀ s op r t, A s op → P s → step s op r t → (P t ↔ rule s op r))
    (hrun : List.IsChain (Turn step) (c :: cs)) (hc : c.Conform step G A Q) (hP : P c.shared) :
    (∀ c' ∈ cs, P c'.shared) ↔ List.IsChain (Turn (keepingTo step rule)) (c :: cs) := by
  induction cs generalizing c with
  | nil => exact iff_of_true (List.forall_mem_nil _) (.singleton _)
  | cons c' cs ih =>
    rw [List.isChain_cons_cons] at hrun
    obtain ⟨hturn, hrest⟩ := hrun
    have hc' := hturn.conform hG hc
    have hturns {i : ι} {op : Op} {next : Reply op → Program Reply ε α} {r : Reply op} {t : S}
        (hprogram : c.programs i = .call op next) (hstep : step c.shared op r t) :
        P t ↔ rule c.shared op r := by
      have hown := hc i
      rw [hprogram] at hown
      exact hrule _ _ _ _ (hown c.shared .refl).1 hP hstep
    have hkeeps : P c'.shared ↔ Turn (keepingTo step rule) c c' := by
      constructor
      · intro hP'
        obtain @⟨i, op, next, r, t, hprogram, hstep⟩ := hturn
        exact .take hprogram ⟨hstep, (hturns hprogram hstep).mp hP'⟩
      · rintro @⟨i, op, next, r, t, hprogram, hstep, hkept⟩
        exact (hturns hprogram hstep).mpr hkept
    rw [List.forall_mem_cons, List.isChain_cons_cons, hkeeps]
    refine and_congr_right fun hsub ↦ ?_
    exact ih hrest hc' (hkeeps.mpr hsub)

/-- Where each step that keeps to the rule keeps a property of the state, so does a run of such
steps. What the programs find, they find in states that have the property. -/
theorem shared_of_run {P : S → Prop} {rule : S → (op : Op) → Reply op → Prop}
    (hG : ∀ s op r t, step s op r t → G s t)
    (hrule : ∀ s op r t, A s op → P s → keepingTo step rule s op r t → P t)
    (hc : c.Conform (fun s op r t ↦ P s ∧ keepingTo step rule s op r t) G A Q) (hP : P c.shared)
    (hrun : ReflTransGen (Turn (keepingTo step rule)) c c') : P c'.shared := by
  have hinv : c'.Conform (fun s op r t ↦ P s ∧ keepingTo step rule s op r t) G A Q ∧
      P c'.shared := by
    induction hrun with
    | refl => exact ⟨hc, hP⟩
    | tail _ hturn ih =>
      obtain ⟨hconform, hP⟩ := ih
      obtain @⟨i, op, next, r, t, hprogram, hstep⟩ := hturn
      have hown := hconform i
      rw [hprogram] at hown
      refine ⟨Turn.conform (.take hprogram ⟨hP, hstep⟩) ?_ hconform, ?_⟩
      · exact fun s op r t h ↦ hG s op r t h.2.1
      · exact hrule _ _ _ _ (hown _ .refl).1 hP hstep
  exact hinv.2

theorem Run.turns {p q : Program Reply ε α} {i : ι} (h : Run step p s q t) :
    ∀ programs : ι → Program Reply ε α, programs i = p →
      ReflTransGen (Turn step) ⟨programs, s⟩ ⟨Function.update programs i q, t⟩ := by
  induction h with
  | stop p s =>
    intro programs hprogram
    rw [← hprogram, Function.update_eq_self]
  | @call op next r s s' t q hstep _ ih =>
    intro programs hprogram
    have hturn : Turn step ⟨programs, s⟩ ⟨Function.update programs i (next r), s'⟩ :=
      .take hprogram hstep
    have hrest := ih (Function.update programs i (next r)) (Function.update_self ..)
    rw [Function.update_idem] at hrest
    exact .head hturn hrest

/-- Lets one program after the other answer at most `n` requests by a function of the state. -/
def Config.exec (answer : S → (op : Op) → Reply op × S) (n : ℕ) (is : List ι)
    (c : Config ι Reply ε α S) : Config ι Reply ε α S :=
  is.foldl (fun c i ↦
    let run := Program.exec answer n (c.programs i) c.shared
    ⟨Function.update c.programs i run.1, run.2⟩) c

theorem Config.exec_turns {answer : S → (op : Op) → Reply op × S}
    (ha : ∀ s op, step s op (answer s op).1 (answer s op).2) (n : ℕ) (is : List ι)
    (c : Config ι Reply ε α S) : ReflTransGen (Turn step) c (c.exec answer n is) := by
  induction is generalizing c with
  | nil => exact .refl
  | cons i rest ih =>
    have hrun := (exec_run ha n (c.programs i) c.shared).turns c.programs rfl
    exact hrun.trans (ih _)

theorem exists_chain {P : S → Prop} (h : ReflTransGen (Turn step) c c') (hc : ¬P c.shared)
    (hP : P c'.shared) :
    ∃ cs, List.IsChain (Turn step) (c :: cs) ∧ ∃ c' ∈ cs, P c'.shared := by
  obtain ⟨cs, hchain, hlast⟩ := List.exists_isChain_cons_of_relationReflTransGen h
  refine ⟨cs, hchain, c', ?_, hP⟩
  cases cs with
  | nil =>
    obtain rfl : c = c' := hlast
    exact absurd hP hc
  | cons first rest =>
    rw [← hlast, List.getLast_cons (List.cons_ne_nil first rest)]
    exact List.getLast_mem _

end turns

end Effect.Program

import Mathlib.Logic.Relation
import StealthHub.Effect.Crash

set_option autoImplicit false

namespace Effect.Program

universe u v w

variable {Op : Type u} {Reply : Op → Type} {ε δ α β : Type} {S : Type v}
variable {step : S → (op : Op) → Reply op → S → Prop} {env : S → S → Prop}

/-- A request is answered, or the environment makes a move of its own. -/
inductive Event (Reply : Op → Type)
  | answered (op : Op) (reply : Reply op)
  | moved

/-- A run between whose requests the environment moves, with all that happened. -/
inductive Trace (step : S → (op : Op) → Reply op → S → Prop) (env : S → S → Prop) :
    Program Reply ε α → S → List (Event Reply) → Program Reply ε α → S → Prop
  | stop (p : Program Reply ε α) (s : S) : Trace step env p s [] p s
  | moved {p q : Program Reply ε α} {s s' t : S} {es : List (Event Reply)} :
      env s s' → Trace step env p s' es q t → Trace step env p s (.moved :: es) q t
  | answered {op : Op} {next : Reply op → Program Reply ε α} {q : Program Reply ε α}
      {r : Reply op} {s s' t : S} {es : List (Event Reply)} :
      step s op r s' → Trace step env (next r) s' es q t →
      Trace step env (.call op next) s (.answered op r :: es) q t

def interleaved (step : S → (op : Op) → Reply op → S → Prop) (env : S → S → Prop)
    (s : S) (op : Op) (r : Reply op) (t : S) : Prop :=
  ∃ m, Relation.ReflTransGen env s m ∧ step m op r t

theorem Run.interleaved {p q : Program Reply ε α} {s t : S} (h : Run step p s q t) :
    Run (Effect.Program.interleaved step env) p s q t := by
  induction h with
  | stop p s => exact .stop _ _
  | call hs _ ih => exact .call ⟨_, .refl, hs⟩ ih

theorem Run.trace {p q : Program Reply ε α} {s t : S} (h : Run step p s q t) :
    ∃ es, Trace step env p s es q t := by
  induction h with
  | stop p s => exact ⟨[], .stop _ _⟩
  | call hs _ ih =>
    obtain ⟨es, h⟩ := ih
    exact ⟨_, .answered hs h⟩

theorem Trace.append {p q r : Program Reply ε α} {s t u : S} {es es' : List (Event Reply)}
    (h : Trace step env p s es q t) (h' : Trace step env q t es' r u) :
    Trace step env p s (es ++ es') r u := by
  induction h with
  | stop => exact h'
  | moved he _ ih => exact .moved he (ih h')
  | answered hs _ ih => exact .answered hs (ih h')

/-- The events of an execution whose environment does not move. -/
def events (answer : S → (op : Op) → Reply op × S) :
    ℕ → Program Reply ε α → S → List (Event Reply)
  | n + 1, .call op next, s =>
    .answered op (answer s op).1 :: events answer n (next (answer s op).1) (answer s op).2
  | _, _, _ => []

theorem moved_not_mem_events {answer : S → (op : Op) → Reply op × S} {n : ℕ}
    {p : Program Reply ε α} {s : S} : .moved ∉ events answer n p s := by
  induction n generalizing p s with
  | zero => exact List.not_mem_nil
  | succ n ih =>
    cases p with
    | call op next => exact List.not_mem_cons_of_ne_of_not_mem nofun ih
    | done | fail => exact List.not_mem_nil

theorem exec_trace {answer : S → (op : Op) → Reply op × S}
    (ha : ∀ s op, step s op (answer s op).1 (answer s op).2) (n : ℕ) (p : Program Reply ε α)
    (s : S) : Trace step env p s (events answer n p s) (exec answer n p s).1
      (exec answer n p s).2 := by
  induction n generalizing p s with
  | zero => cases p <;> exact .stop _ _
  | succ n ih =>
    cases p with
    | done a => exact .stop _ _
    | fail e => exact .stop _ _
    | call op next => exact .answered (ha s op) (ih _ _)

theorem Trace.split {p q : Program Reply ε α} {s t : S} {before after : List (Event Reply)}
    (h : Trace step env p s (before ++ after) q t) :
    ∃ p' m, Trace step env p s before p' m ∧ Trace step env p' m after q t := by
  induction before generalizing p s with
  | nil => exact ⟨p, s, .stop _ _, h⟩
  | cons e rest ih =>
    cases h with
    | moved he h =>
      obtain ⟨p', m, h₁, h₂⟩ := ih h
      exact ⟨p', m, .moved he h₁, h₂⟩
    | answered hs h =>
      obtain ⟨p', m, h₁, h₂⟩ := ih h
      exact ⟨p', m, .answered hs h₁, h₂⟩

def moves : List (Event Reply) → ℕ
  | [] => 0
  | .moved :: es => moves es + 1
  | .answered _ _ :: es => moves es

theorem moves_eq_zero {es : List (Event Reply)} : moves es = 0 ↔ .moved ∉ es := by
  induction es with
  | nil => simp [moves]
  | cons e es ih => cases e <;> simp [moves, ih]

/-- The requests among the events. -/
def answers (es : List (Event Reply)) : List (Σ op, Reply op) :=
  es.filterMap fun
    | .answered op r => some ⟨op, r⟩
    | .moved => none

@[simp] theorem answers_append (es es' : List (Event Reply)) :
    answers (es ++ es') = answers es ++ answers es' := List.filterMap_append

@[simp] theorem answers_answered (op : Op) (r : Reply op) (es : List (Event Reply)) :
    answers (.answered op r :: es) = ⟨op, r⟩ :: answers es := rfl

@[simp] theorem answers_moved (es : List (Event Reply)) :
    answers (.moved :: es) = answers es := rfl

theorem mem_answers {op : Op} {r : Reply op} {es : List (Event Reply)} :
    ⟨op, r⟩ ∈ answers es ↔ .answered op r ∈ es := by
  rw [answers, List.mem_filterMap]
  constructor
  · intro ⟨e, he, hr⟩
    cases e with
    | moved => cases hr
    | answered op' r' =>
      cases hr
      exact he
  · intro he
    exact ⟨_, he, rfl⟩

theorem split_of_answers {op : Op} {r : Reply op} {es : List (Event Reply)}
    {before after : List (Σ op, Reply op)} (h : answers es = before ++ ⟨op, r⟩ :: after) :
    ∃ es₁ es₂, es = es₁ ++ .answered op r :: es₂ ∧ answers es₁ = before ∧
      answers es₂ = after := by
  induction es generalizing before with
  | nil => simp [answers] at h
  | cons e es ih =>
    cases e with
    | moved =>
      obtain ⟨es₁, es₂, rfl, h₁, h₂⟩ := ih h
      exact ⟨.moved :: es₁, es₂, rfl, h₁, h₂⟩
    | answered op' r' =>
      rw [answers_answered] at h
      cases before with
      | nil =>
        obtain ⟨hhead, htail⟩ := List.cons.inj h
        cases hhead
        exact ⟨[], es, rfl, rfl, htail⟩
      | cons x before =>
        obtain ⟨rfl, htail⟩ := List.cons.inj h
        obtain ⟨es₁, es₂, rfl, rfl, h₂⟩ := ih htail
        exact ⟨.answered op' r' :: es₁, es₂, rfl, rfl, h₂⟩

theorem Trace.traced {p q : Program Reply ε α} {s t : S} {es : List (Event Reply)}
    (h : Trace step env p s es q t) (log : List (Σ op, Reply op)) :
    ∃ m, Run (tracedStep (interleaved step env)) p ⟨s, log⟩ q ⟨m, log ++ answers es⟩ ∧
      Relation.ReflTransGen env m t := by
  induction h generalizing log with
  | stop p s =>
    rw [show answers ([] : List (Event Reply)) = [] from rfl, List.append_nil]
    exact ⟨s, .stop _ _, .refl⟩
  | @moved p q s s' t es he h ih =>
    obtain ⟨m, hr, hm⟩ := ih log
    rw [answers_moved]
    generalize log ++ answers es = log' at hr ⊢
    cases hr with
    | stop => exact ⟨s, .stop _ _, .head he hm⟩
    | call hs hr =>
      obtain ⟨⟨m', hm', hs⟩, hlog⟩ := hs
      exact ⟨m, .call ⟨⟨m', .head he hm', hs⟩, hlog⟩ hr, hm⟩
  | @answered op next q r s s' t es hs _ ih =>
    obtain ⟨m, hr, hm⟩ := ih (log ++ [⟨op, r⟩])
    have hstep : tracedStep (interleaved step env) ⟨s, log⟩ op r ⟨s', log ++ [⟨op, r⟩]⟩ :=
      ⟨⟨s, .refl, hs⟩, rfl⟩
    rw [List.append_assoc] at hr
    exact ⟨m, .call hstep hr, hm⟩

/-- What a relation says of the answer in an event. -/
def Event.Obeys (P : (op : Op) → Reply op → Prop) : Event Reply → Prop
  | .answered op r => P op r
  | .moved => True

theorem Trace.recorded {P : (op : Op) → Reply op → Prop} {p q : Program Reply ε α} {s t : S}
    {es : List (Event Reply)} (h : Trace step env p s es q t) (hP : ∀ e ∈ es, e.Obeys P)
    (log : List (Σ op, Reply op)) :
    Run (tracedStep fun (_ : Unit) op r _ ↦ P op r) p ⟨(), log⟩ q ⟨(), log ++ answers es⟩ := by
  induction h generalizing log with
  | stop p s =>
    rw [show answers ([] : List (Event Reply)) = [] from rfl, List.append_nil]
    exact .stop _ _
  | moved _ _ ih => exact ih (fun e he ↦ hP e (List.mem_cons_of_mem _ he)) log
  | @answered op next q r s s' t es _ _ ih =>
    have hstep : tracedStep (fun (_ : Unit) op r _ ↦ P op r) ⟨(), log⟩ op r
        ⟨(), log ++ [⟨op, r⟩]⟩ := ⟨hP _ List.mem_cons_self, rfl⟩
    have hrest := ih (fun e he ↦ hP e (List.mem_cons_of_mem _ he)) (log ++ [⟨op, r⟩])
    rw [List.append_assoc] at hrest
    exact .call hstep hrest

theorem Trace.run {p q : Program Reply ε α} {s t : S} {es : List (Event Reply)}
    (h : Trace step env p s es q t) :
    ∃ m, Run (interleaved step env) p s q m ∧ Relation.ReflTransGen env m t := by
  obtain ⟨m, hr, hm⟩ := h.traced []
  exact ⟨m, hr.untraced, hm⟩

theorem Safe.untraced {C : Traced Reply S → Prop} {E : ε → Traced Reply S → Prop}
    {Q : α → Traced Reply S → Prop} {p : Program Reply ε α} {s : Traced Reply S}
    (h : Safe (tracedStep step) C E Q p s) :
    Safe step (fun t ↦ ∃ log, C ⟨t, log⟩) (fun e t ↦ ∃ log, E e ⟨t, log⟩)
      (fun a t ↦ ∃ log, Q a ⟨t, log⟩) p s.state := by
  induction p generalizing s with
  | done a => exact ⟨⟨s.log, h.1⟩, s.log, h.2⟩
  | fail e => exact ⟨⟨s.log, h.1⟩, s.log, h.2⟩
  | call op next ih =>
    refine ⟨⟨s.log, h.1⟩, fun r t ht ↦ ?_⟩
    have hs : tracedStep step s op r ⟨t, s.log ++ [⟨op, r⟩]⟩ := ⟨ht, rfl⟩
    exact ih r (h.2 r _ hs)

section embed

variable {Op' : Type w} {Reply' : Op' → Type} {S' : Type v}
variable {step' : S' → (op : Op') → Reply' op → S' → Prop}

def embed (f : Op → Op') (reply : ∀ op, Reply' (f op) → Reply op) :
    Program Reply ε α → Program Reply' ε α
  | .done a => .done a
  | .fail e => .fail e
  | .call op next => .call (f op) fun r ↦ (next (reply op r)).embed f reply

variable {f : Op → Op'} {reply : ∀ op, Reply' (f op) → Reply op}

theorem uses_embed {allowed : Op' → Prop} {p : Program Reply ε α}
    (h : p.Uses fun op ↦ allowed (f op)) : (p.embed f reply).Uses allowed := by
  induction p with
  | done a => trivial
  | fail e => trivial
  | call op next ih => exact ⟨h.1, fun r ↦ ih _ (h.2 _)⟩

theorem under_embed {answer : (op : Op') → Reply' op} (p : Program Reply ε α) :
    (p.embed f reply).under answer = p.under fun op ↦ reply op (answer (f op)) := by
  induction p with
  | done a => rfl
  | fail e => rfl
  | call op next ih => exact ih _

theorem Safe.embed (f : Op → Op') (reply : ∀ op, Reply' (f op) → Reply op) (π : S' → S)
    {C : S → Prop} {E : ε → S → Prop} {Q : α → S → Prop}
    (hstep : ∀ s op r t, step' s (f op) r t → step (π s) op (reply op r) (π t))
    {p : Program Reply ε α} {s : S'} (h : Safe step C E Q p (π s)) :
    Safe step' (fun t ↦ C (π t)) (fun e t ↦ E e (π t)) (fun a t ↦ Q a (π t))
      (p.embed f reply) s := by
  induction p generalizing s with
  | done a => exact h
  | fail e => exact h
  | call op next ih => exact ⟨h.1, fun r t ht ↦ ih _ (h.2 _ _ (hstep s op r t ht))⟩

end embed

end Effect.Program

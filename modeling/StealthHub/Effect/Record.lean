import StealthHub.Effect.Crash

set_option autoImplicit false

namespace Effect.Program

universe u v

variable {Op : Type u} {Reply : Op → Type} {ε δ α β : Type} {S : Type v}
variable {step : S → (op : Op) → Reply op → S → Prop} {s : Traced Reply S}
variable {p : Program Reply ε α} {G : List (Σ op, Reply op) → Op → Prop}
variable {log : List (Σ op, Reply op)} {e : Σ op, Reply op}

/-- An environment that may answer anything at any time. -/
def anyAnswer (_ : Unit) (op : Op) (_ : Reply op) (_ : Unit) : Prop := True

theorem Run.recorded {q : Program Reply ε α} {t : Traced Reply S}
    (h : Run (tracedStep step) p s q t) :
    Run (tracedStep anyAnswer) p ⟨(), s.log⟩ q ⟨(), t.log⟩ := by
  induction h with
  | stop => exact .stop _ _
  | call hs _ ih =>
    have hs' : tracedStep anyAnswer ⟨(), _⟩ _ _ ⟨(), _⟩ := ⟨trivial, hs.2⟩
    exact .call hs' ih

def Preceded (G : List (Σ op, Reply op) → Op → Prop) (log : List (Σ op, Reply op)) : Prop :=
  ∀ before e after, log = before ++ e :: after → G before e.1

theorem preceded_nil : Preceded G [] := by
  intro before e after h
  simp at h

theorem Preceded.concat (h : Preceded G log) (he : G log e.1) : Preceded G (log ++ [e]) := by
  intro before x after hlog
  rcases List.eq_nil_or_concat after with rfl | ⟨rest, y, rfl⟩
  · obtain ⟨rfl, hxe⟩ := List.append_inj' hlog rfl
    rwa [← List.singleton_inj.mp hxe]
  · rw [List.concat_eq_append, ← List.cons_append, ← List.append_assoc] at hlog
    exact h before x rest (List.append_inj' hlog rfl).1

theorem Preceded.last (h : Preceded G (log ++ [e])) : G log e.1 := h log e [] rfl

abbrev Leaves (step : S → (op : Op) → Reply op → S → Prop) (Q : α → Traced Reply S → Prop)
    (p : Program Reply ε α) (s : Traced Reply S) : Prop :=
  Safe (tracedStep step) (fun _ ↦ True) (fun _ _ ↦ True) Q p s

theorem leaves_true (p : Program Reply ε α) (s : Traced Reply S) :
    Leaves step (fun _ _ ↦ True) p s :=
  (safe_of_uses p.uses_true (fun _ _ _ _ _ _ _ ↦ trivial) trivial).mono (fun _ ↦ id)
    (fun _ _ _ _ ↦ trivial) fun _ _ _ _ ↦ trivial

theorem Leaves.mono {Q Q' : α → Traced Reply S → Prop} (h : Leaves step Q p s)
    (hQ : ∀ a t, Q a t → Q' a t) : Leaves step Q' p s :=
  Safe.mono h (fun _ ↦ id) (fun _ _ _ ↦ id) fun a t _ ↦ hQ a t

theorem leaves_of_returns {P : α → Prop} (h : p.Returns P) :
    Leaves step (fun a _ ↦ P a) p s :=
  ((leaves_true p s).returns h).mono (fun _ ↦ id) (fun _ _ _ ↦ id) fun _ _ _ h ↦ h.2

theorem leaves_request {op : Op} :
    Leaves step (fun reply t ↦ t.log = s.log ++ [⟨op, reply⟩])
      (request op : Program Reply ε (Reply op)) s :=
  ⟨trivial, fun _ _ ht ↦ ⟨trivial, ht.2⟩⟩

theorem leaves_lift {x : Except ε α} :
    Leaves step (fun a t ↦ x = .ok a ∧ t = s) (lift x : Program Reply ε α) s := by
  cases x with
  | ok a => exact ⟨trivial, rfl, rfl⟩
  | error e => exact ⟨trivial, trivial⟩

theorem leaves_attempt {Q : α → Traced Reply S → Prop} (h : Leaves step Q p s) :
    Leaves step (fun result t ↦ ∀ a, result = .ok a → Q a t)
      (p.attempt : Program Reply δ (Except ε α)) s := by
  refine safe_attempt.mpr (Safe.mono h (fun _ ↦ id) (fun _ _ _ _ ↦ nofun) ?_)
  intro a t _ hQ b hb
  cases hb
  exact hQ

theorem Leaves.logged {Q : α → Traced Reply S → Prop} (h : Leaves step Q p s) :
    Leaves step (fun a t ↦ Q a t ∧ s.log <+: t.log) p s :=
  (Safe.logged h).mono (fun _ ↦ And.left) (fun _ _ _ ↦ And.left) fun _ _ _ ↦ id

theorem safe_preceded {allowed : Op → Prop} (hp : p.Uses allowed)
    (hG : ∀ log op, allowed op → G log op) (hs : Preceded G s.log) :
    Safe (tracedStep step) (fun t ↦ Preceded G t.log) (fun _ t ↦ Preceded G t.log)
      (fun _ t ↦ Preceded G t.log) p s := by
  have hstep : ∀ (u : Traced Reply S) op r t, allowed op → Preceded G u.log →
      tracedStep step u op r t → Preceded G t.log := by
    intro u op r t hop hu ht
    rw [ht.2]
    exact hu.concat (hG u.log op hop)
  exact safe_of_uses hp hstep hs

theorem Leaves.preceded {allowed : Op → Prop} {Q : α → Traced Reply S → Prop}
    (h : Leaves step Q p s) (hp : p.Uses allowed) (hG : ∀ log op, allowed op → G log op)
    (hs : Preceded G s.log) :
    Safe (tracedStep step) (fun t ↦ Preceded G t.log) (fun _ t ↦ Preceded G t.log)
      (fun a t ↦ Preceded G t.log ∧ s.log <+: t.log ∧ Q a t) p s := by
  refine ((Safe.and h (safe_preceded hp hG hs)).logged).mono (fun _ h ↦ h.1.2) ?_ ?_
  · intro e t _ h
    exact h.1.2
  · intro a t _ h
    exact ⟨h.1.2, h.2, h.1.1⟩

theorem Safe.asked {op : Op} {next : Reply op → Program Reply ε α} {E : ε → Traced Reply Unit → Prop}
    {Q : α → Traced Reply Unit → Prop} {s : Traced Reply Unit} (reply : Reply op)
    (h : Safe (tracedStep anyAnswer) (fun t ↦ Preceded G t.log) E Q (.call op next) s) :
    G s.log op := by
  have hnext := h.2 reply ⟨(), s.log ++ [⟨op, reply⟩]⟩ ⟨trivial, rfl⟩
  exact hnext.crash.last

/-- The request that waits for its answer. -/
def pending : Program Reply ε α → List Op
  | .call op _ => [op]
  | .done _ | .fail _ => []

/-- The requests of a run, the last of which may wait for its answer. -/
def asked (p : Program Reply ε α) (log : List (Σ op, Reply op)) : List Op :=
  log.map Sigma.fst ++ p.pending

theorem Run.call_cases {step : S → (op : Op) → Reply op → S → Prop} {s t : S} {op : Op}
    {next : Reply op → Program Reply ε α} {q : Program Reply ε α}
    (h : Run step (.call op next) s q t) :
    q = .call op next ∧ t = s ∨ ∃ r s', step s op r s' ∧ Run step (next r) s' q t := by
  cases h with
  | stop => exact .inl ⟨rfl, rfl⟩
  | call hstep hrest => exact .inr ⟨_, _, hstep, hrest⟩

theorem Run.still {step : S → (op : Op) → Reply op → S → Prop} {s t : S}
    {p q : Program Reply ε α} (h : Run step p s q t) (hp : p.pending = []) : q = p ∧ t = s := by
  cases h with
  | stop => exact ⟨rfl, rfl⟩
  | call => cases hp

end Effect.Program

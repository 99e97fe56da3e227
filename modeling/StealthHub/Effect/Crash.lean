import StealthHub.Effect.Program

set_option autoImplicit false

namespace Effect.Program

universe u v

variable {Op : Type u} {Reply : Op → Type} {ε δ α β : Type} {S : Type v}
variable {step : S → (op : Op) → Reply op → S → Prop}

/-- Crash condition `C` holds at every point of every run from `s`. A run that
exits ends in a state described by `E` for an error and by `Q` for a value. -/
def Safe (step : S → (op : Op) → Reply op → S → Prop) (C : S → Prop) (E : ε → S → Prop)
    (Q : α → S → Prop) : Program Reply ε α → S → Prop
  | .done a, s => C s ∧ Q a s
  | .fail e, s => C s ∧ E e s
  | .call op next, s => C s ∧ ∀ r s', step s op r s' → Safe step C E Q (next r) s'

variable {C : S → Prop} {E : ε → S → Prop} {Q : α → S → Prop}

@[simp] theorem safe_done (a : α) (s : S) :
    Safe step C E Q (.done a : Program Reply ε α) s ↔ C s ∧ Q a s := Iff.rfl

@[simp] theorem safe_fail (e : ε) (s : S) :
    Safe step C E Q (.fail e : Program Reply ε α) s ↔ C s ∧ E e s := Iff.rfl

@[simp] theorem safe_call (op : Op) (next : Reply op → Program Reply ε α) (s : S) :
    Safe step C E Q (.call op next) s ↔
      C s ∧ ∀ r s', step s op r s' → Safe step C E Q (next r) s' := Iff.rfl

theorem Safe.crash {p : Program Reply ε α} {s : S} (h : Safe step C E Q p s) : C s := by
  cases p <;> exact h.1

theorem Safe.run {p q : Program Reply ε α} {s t : S} (h : Safe step C E Q p s)
    (hr : Run step p s q t) : Safe step C E Q q t := by
  induction hr with
  | stop => exact h
  | call hs _ ih => exact ih (h.2 _ _ hs)

theorem Safe.stops {p : Program Reply ε α} {s t : S} (h : Safe step C E Q p s)
    (hr : Stops step p s t) : C t := by
  obtain ⟨q, hr⟩ := hr
  exact (h.run hr).crash

theorem Safe.completes {p : Program Reply ε α} {s t : S} {a : α} (h : Safe step C E Q p s)
    (hr : Completes step p s a t) : Q a t := (h.run hr).2

theorem Safe.mono {C' : S → Prop} {E' : ε → S → Prop} {Q' : α → S → Prop}
    {p : Program Reply ε α} {s : S} (h : Safe step C E Q p s) (hC : ∀ s, C s → C' s)
    (hE : ∀ e s, C s → E e s → E' e s) (hQ : ∀ a s, C s → Q a s → Q' a s) :
    Safe step C' E' Q' p s := by
  induction p generalizing s with
  | done a => exact ⟨hC s h.1, hQ a s h.1 h.2⟩
  | fail e => exact ⟨hC s h.1, hE e s h.1 h.2⟩
  | call op next ih => exact ⟨hC s h.1, fun r s' hs ↦ ih r (h.2 r s' hs)⟩

theorem Safe.narrow {step' : S → (op : Op) → Reply op → S → Prop} {p : Program Reply ε α} {s : S}
    (h : Safe step C E Q p s) (hstep : ∀ s op r t, step' s op r t → step s op r t) :
    Safe step' C E Q p s := by
  induction p generalizing s with
  | done a => exact h
  | fail e => exact h
  | call op next ih => exact ⟨h.1, fun r s' hs ↦ ih r (h.2 r s' (hstep s op r s' hs))⟩

theorem safe_bind {Q : β → S → Prop} {p : Program Reply ε α} {k : α → Program Reply ε β} {s : S} :
    Safe step C E Q (p.bind k) s ↔ Safe step C E (fun a t ↦ Safe step C E Q (k a) t) p s := by
  induction p generalizing s with
  | done a => exact ⟨fun h ↦ ⟨h.crash, h⟩, And.right⟩
  | fail e => exact Iff.rfl
  | call op next ih =>
    exact and_congr_right fun _ ↦ forall_congr' fun r ↦ forall_congr' fun s' ↦
      imp_congr_right fun _ ↦ ih r

theorem Safe.seq {R : β → S → Prop} {p : Program Reply ε α} {k : α → Program Reply ε β} {s : S}
    (h : Safe step C E Q p s) (hk : ∀ a t, Q a t → Safe step C E R (k a) t) :
    Safe step C E R (p.bind k) s :=
  safe_bind.mpr (h.mono (fun _ ↦ id) (fun _ _ _ ↦ id) fun a t _ ha ↦ hk a t ha)

theorem safe_handle {E : δ → S → Prop} {p : Program Reply ε α} {k : ε → Program Reply δ α} {s : S} :
    Safe step C E Q (p.handle k) s ↔ Safe step C (fun e t ↦ Safe step C E Q (k e) t) Q p s := by
  induction p generalizing s with
  | done a => exact Iff.rfl
  | fail e => exact ⟨fun h ↦ ⟨h.crash, h⟩, And.right⟩
  | call op next ih =>
    exact and_congr_right fun _ ↦ forall_congr' fun r ↦ forall_congr' fun s' ↦
      imp_congr_right fun _ ↦ ih r

theorem safe_attempt {E : δ → S → Prop} {Q : Except ε α → S → Prop} {p : Program Reply ε α}
    {s : S} :
    Safe step C E Q (p.attempt : Program Reply δ (Except ε α)) s ↔
      Safe step C (fun e t ↦ Q (.error e) t) (fun a t ↦ Q (.ok a) t) p s := by
  induction p generalizing s with
  | done a => exact Iff.rfl
  | fail e => exact Iff.rfl
  | call op next ih =>
    exact and_congr_right fun _ ↦ forall_congr' fun r ↦ forall_congr' fun s' ↦
      imp_congr_right fun _ ↦ ih r

theorem safe_request {op : Op} {Q : Reply op → S → Prop} {s : S} (hs : C s)
    (h : ∀ r s', step s op r s' → C s' ∧ Q r s') :
    Safe step C E Q (request op : Program Reply ε (Reply op)) s := ⟨hs, h⟩

theorem safe_foldlM (I : List β → α → S → Prop) {f : α → β → Program Reply ε α} {l : List β}
    (h : ∀ done x rest a s, l = done ++ x :: rest → I done a s →
      Safe step C E (I (done ++ [x])) (f a x) s)
    (hC : ∀ a s, I l a s → C s) {a : α} {s : S} (hs : I [] a s) :
    Safe step C E (I l) (l.foldlM f a) s := by
  suffices hd : ∀ rest done a s, l = done ++ rest → I done a s →
      Safe step C E (I l) (rest.foldlM f a) s from hd l [] a s rfl hs
  intro rest
  induction rest with
  | nil =>
    intro done a s hl hI
    rw [List.append_nil] at hl
    subst hl
    exact ⟨hC a s hI, hI⟩
  | cons x rest ih =>
    intro done a s hl hI
    rw [List.foldlM_cons, bind_eq, safe_bind]
    refine (h done x rest a s hl hI).mono (fun _ ↦ id) (fun _ _ _ ↦ id) fun a' t _ hI' ↦ ?_
    exact ih (done ++ [x]) a' t (by simp [hl]) hI'

theorem Safe.reached {p : Program Reply ε α} {s : S} (h : Safe step C E Q p s) :
    Safe step C E (fun a t ↦ Q a t ∧ Completes step p s a t) p s := by
  induction p generalizing s with
  | done a => exact ⟨h.1, h.2, .stop _ _⟩
  | fail e => exact h
  | call op next ih =>
    refine ⟨h.1, fun r s' hs ↦ ?_⟩
    refine (ih r (h.2 r s' hs)).mono (fun _ ↦ id) (fun _ _ _ ↦ id) fun a t _ ht ↦ ?_
    exact ⟨ht.1, .call hs ht.2⟩

/-- Requests that keep an invariant can be issued in any number and order: the
invariant is all that a program built from them can rely on and establish. -/
theorem safe_of_uses {allowed : Op → Prop} {I : S → Prop} {p : Program Reply ε α} {s : S}
    (hp : p.Uses allowed) (hI : ∀ s op r s', allowed op → I s → step s op r s' → I s') (hs : I s) :
    Safe step I (fun _ ↦ I) (fun _ ↦ I) p s := by
  induction p generalizing s with
  | done a => exact ⟨hs, hs⟩
  | fail e => exact ⟨hs, hs⟩
  | call op next ih =>
    exact ⟨hs, fun r s' h ↦ ih r (hp.2 r) (hI s op r s' hp.1 hs h)⟩

theorem Safe.and {C' : S → Prop} {E' : ε → S → Prop} {Q' : α → S → Prop}
    {p : Program Reply ε α} {s : S} (h : Safe step C E Q p s) (h' : Safe step C' E' Q' p s) :
    Safe step (fun t ↦ C t ∧ C' t) (fun e t ↦ E e t ∧ E' e t) (fun a t ↦ Q a t ∧ Q' a t) p s := by
  induction p generalizing s with
  | done a => exact ⟨⟨h.1, h'.1⟩, h.2, h'.2⟩
  | fail e => exact ⟨⟨h.1, h'.1⟩, h.2, h'.2⟩
  | call op next ih =>
    exact ⟨⟨h.1, h'.1⟩, fun r s' hs ↦ ih r (h.2 r s' hs) (h'.2 r s' hs)⟩

theorem Safe.returns {p : Program Reply ε α} {P : α → Prop} {s : S} (h : Safe step C E Q p s)
    (hp : p.Returns P) : Safe step C E (fun a t ↦ Q a t ∧ P a) p s := by
  induction p generalizing s with
  | done a => exact ⟨h.1, h.2, hp⟩
  | fail e => exact h
  | call op next ih => exact ⟨h.1, fun r s' hs ↦ ih r (h.2 r s' hs) (hp r)⟩

theorem safe_of_raises {P : ε → Prop} {p : Program Reply ε α} {R : α → Prop} (hp : p.Raises P)
    (hr : p.Returns R) (s : S) :
    Safe step (fun _ ↦ True) (fun e _ ↦ P e) (fun a _ ↦ R a) p s := by
  induction p generalizing s with
  | done a => exact ⟨trivial, hr⟩
  | fail e => exact ⟨trivial, hp⟩
  | call op next ih => exact ⟨trivial, fun r s' _ ↦ ih r (hp r) (hr r) s'⟩

/-- A state together with the requests answered so far, oldest first. -/
structure Traced (Reply : Op → Type) (S : Type v) where
  state : S
  log : List (Σ op, Reply op)

/-- The step relation that also records every answered request. -/
def tracedStep (step : S → (op : Op) → Reply op → S → Prop)
    (s : Traced Reply S) (op : Op) (r : Reply op) (t : Traced Reply S) : Prop :=
  step s.state op r t.state ∧ t.log = s.log ++ [⟨op, r⟩]

theorem safe_recorded {allowed : Op → Prop} {p : Program Reply ε α} {s : Traced Reply S}
    (hp : p.Uses allowed) (hs : ∀ e ∈ s.log, allowed e.1) :
    Safe (tracedStep step) (fun t ↦ ∀ e ∈ t.log, allowed e.1) (fun _ t ↦ ∀ e ∈ t.log, allowed e.1)
      (fun _ t ↦ ∀ e ∈ t.log, allowed e.1) p s := by
  have hstep : ∀ (u : Traced Reply S) op r t, allowed op → (∀ e ∈ u.log, allowed e.1) →
      tracedStep step u op r t → ∀ e ∈ t.log, allowed e.1 := by
    intro u op r t hop hu ht e he
    rw [ht.2] at he
    rcases List.mem_append.mp he with he | he
    · exact hu e he
    · rw [List.mem_singleton.mp he]
      exact hop
  exact safe_of_uses hp hstep hs

theorem Safe.logged {C : Traced Reply S → Prop} {E : ε → Traced Reply S → Prop}
    {Q : α → Traced Reply S → Prop} {p : Program Reply ε α} {s : Traced Reply S}
    (h : Safe (tracedStep step) C E Q p s) :
    Safe (tracedStep step) (fun t ↦ C t ∧ s.log <+: t.log) (fun e t ↦ E e t ∧ s.log <+: t.log)
      (fun a t ↦ Q a t ∧ s.log <+: t.log) p s := by
  have hg : Safe (tracedStep step) (fun t ↦ s.log <+: t.log) (fun _ t ↦ s.log <+: t.log)
      (fun _ t ↦ s.log <+: t.log) p s := by
    refine safe_of_uses p.uses_true (fun u op r t _ hu ht ↦ ?_) (List.prefix_refl _)
    rw [ht.2]
    exact hu.trans (List.prefix_append _ _)
  exact h.and hg

theorem Run.traced {p q : Program Reply ε α} {s t : S} (h : Run step p s q t)
    (log : List (Σ op, Reply op)) :
    ∃ log', Run (tracedStep step) p ⟨s, log⟩ q ⟨t, log'⟩ := by
  induction h generalizing log with
  | stop p s => exact ⟨log, .stop _ _⟩
  | @call op next r s s' t q hs _ ih =>
    obtain ⟨log', h⟩ := ih (log ++ [⟨op, r⟩])
    have hs' : tracedStep step ⟨s, log⟩ op r ⟨s', log ++ [⟨op, r⟩]⟩ := ⟨hs, rfl⟩
    exact ⟨log', .call hs' h⟩

theorem Run.untraced {p q : Program Reply ε α} {s t : Traced Reply S}
    (h : Run (tracedStep step) p s q t) : Run step p s.state q t.state := by
  induction h with
  | stop p s => exact .stop _ _
  | call hs _ ih => exact .call hs.1 ih

end Effect.Program

import StealthHub.Effect.Program

set_option autoImplicit false

namespace Effect.Program

universe u v

variable {Op : Type u} {Reply : Op → Type} {S : Type v} {ε δ α β : Type}
variable {answer : S → (op : Op) → Reply op × S}

/-- The program ends with an error described by `E` or with a value described by `Q`. -/
def Ends (answer : S → (op : Op) → Reply op × S) (E : ε → S → Prop) (Q : α → S → Prop) :
    Program Reply ε α → S → Prop
  | .done a, s => Q a s
  | .fail e, s => E e s
  | .call op next, s => (next (answer s op).1).Ends answer E Q (answer s op).2

variable {E : ε → S → Prop} {Q : α → S → Prop} {s : S}

@[simp] theorem ends_done (a : α) :
    (done a : Program Reply ε α).Ends answer E Q s ↔ Q a s := Iff.rfl

@[simp] theorem ends_fail (e : ε) :
    (fail e : Program Reply ε α).Ends answer E Q s ↔ E e s := Iff.rfl

@[simp] theorem ends_call (op : Op) (next : Reply op → Program Reply ε α) :
    (call op next).Ends answer E Q s ↔
      (next (answer s op).1).Ends answer E Q (answer s op).2 := Iff.rfl

@[simp] theorem ends_request (op : Op) {Q : Reply op → S → Prop} :
    (request op : Program Reply ε (Reply op)).Ends answer E Q s ↔
      Q (answer s op).1 (answer s op).2 := Iff.rfl

@[simp] theorem ends_bind {Q : β → S → Prop} {p : Program Reply ε α} {k : α → Program Reply ε β} :
    (p.bind k).Ends answer E Q s ↔
      p.Ends answer E (fun a t ↦ (k a).Ends answer E Q t) s := by
  induction p generalizing s with
  | done a => exact Iff.rfl
  | fail e => exact Iff.rfl
  | call op next ih => exact ih _

theorem ends_handle {E : δ → S → Prop} {p : Program Reply ε α} {k : ε → Program Reply δ α} :
    (p.handle k).Ends answer E Q s ↔ p.Ends answer (fun e t ↦ (k e).Ends answer E Q t) Q s := by
  induction p generalizing s with
  | done a => exact Iff.rfl
  | fail e => exact Iff.rfl
  | call op next ih => exact ih _

theorem ends_attempt {E : δ → S → Prop} {Q : Except ε α → S → Prop} {p : Program Reply ε α} :
    (p.attempt : Program Reply δ (Except ε α)).Ends answer E Q s ↔
      p.Ends answer (fun e t ↦ Q (.error e) t) (fun a t ↦ Q (.ok a) t) s := by
  induction p generalizing s with
  | done a => exact Iff.rfl
  | fail e => exact Iff.rfl
  | call op next ih => exact ih _

theorem Ends.mono {E' : ε → S → Prop} {Q' : α → S → Prop} {p : Program Reply ε α}
    (h : p.Ends answer E Q s) (hE : ∀ e t, E e t → E' e t) (hQ : ∀ a t, Q a t → Q' a t) :
    p.Ends answer E' Q' s := by
  induction p generalizing s with
  | done a => exact hQ a s h
  | fail e => exact hE e s h
  | call op next ih => exact ih _ h

theorem ends_foldlM (I : List β → α → S → Prop) {f : α → β → Program Reply ε α} {l : List β}
    (h : ∀ before x after a s, l = before ++ x :: after → I before a s →
      (f a x).Ends answer E (I (before ++ [x])) s) {a : α} (hs : I [] a s) :
    (l.foldlM f a).Ends answer E (I l) s := by
  suffices hd : ∀ rest before a s, l = before ++ rest → I before a s →
      (rest.foldlM f a).Ends answer E (I l) s from hd l [] a s rfl hs
  intro rest
  induction rest with
  | nil =>
    intro before a s hl hI
    rw [List.append_nil] at hl
    rw [hl]
    exact hI
  | cons x rest ih =>
    intro before a s hl hI
    rw [List.foldlM_cons, bind_eq, ends_bind]
    refine (h before x rest a s hl hI).mono (fun _ _ ↦ id) fun a' t hI' ↦ ?_
    exact ih (before ++ [x]) a' t (by simp [hl]) hI'

theorem ends_of_uses {allowed : Op → Prop} {host : (op : Op) → Reply op} {p : Program Reply ε α}
    (hp : p.Uses allowed) (h : ∀ op, allowed op → answer s op = (host op, s)) :
    p.Ends answer (fun e t ↦ t = s ∧ p.under host = .error e)
      (fun a t ↦ t = s ∧ p.under host = .ok a) s := by
  induction p with
  | done a => exact ⟨rfl, rfl⟩
  | fail e => exact ⟨rfl, rfl⟩
  | call op next ih =>
    rw [ends_call, h op hp.1]
    exact ih _ (hp.2 _)

theorem Ends.eval {p : Program Reply ε α} (h : p.Ends answer E Q s) :
    (∃ e, (p.eval answer s).1 = .error e ∧ E e (p.eval answer s).2) ∨
      ∃ a, (p.eval answer s).1 = .ok a ∧ Q a (p.eval answer s).2 := by
  induction p generalizing s with
  | done a => exact .inr ⟨a, rfl, h⟩
  | fail e => exact .inl ⟨e, rfl, h⟩
  | call op next ih => exact ih _ h

end Effect.Program

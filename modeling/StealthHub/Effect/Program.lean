import Mathlib.Data.List.Forall2

set_option autoImplicit false

namespace Effect

universe u v

/-- A program that issues typed requests to its environment. It ends with a
value or an error; every request waits for one reply. -/
inductive Program {Op : Type u} (Reply : Op → Type) (ε α : Type) : Type u
  | done (value : α)
  | fail (error : ε)
  | call (op : Op) (next : Reply op → Program Reply ε α)

namespace Program

variable {Op : Type u} {Reply : Op → Type} {ε δ α β : Type}

def bind : Program Reply ε α → (α → Program Reply ε β) → Program Reply ε β
  | .done a, k => k a
  | .fail e, _ => .fail e
  | .call op next, k => .call op fun r ↦ (next r).bind k

instance : Monad (Program Reply ε) where
  pure := .done
  bind := bind

def request (op : Op) : Program Reply ε (Reply op) := .call op .done

/-- Replaces the error exit of a program by another program. -/
def handle : Program Reply ε α → (ε → Program Reply δ α) → Program Reply δ α
  | .done a, _ => .done a
  | .fail e, k => k e
  | .call op next, k => .call op fun r ↦ (next r).handle k

/-- Turns both exits of a program into a value, as a caller does that inspects
a result instead of propagating it. -/
def attempt : Program Reply ε α → Program Reply δ (Except ε α)
  | .done a => .done (.ok a)
  | .fail e => .done (.error e)
  | .call op next => .call op fun r ↦ (next r).attempt

def lift : Except ε α → Program Reply ε α
  | .ok a => .done a
  | .error e => .fail e

@[simp] theorem pure_eq (a : α) : (pure a : Program Reply ε α) = .done a := rfl

@[simp] theorem bind_eq (p : Program Reply ε α) (k : α → Program Reply ε β) :
    (p >>= k) = p.bind k := rfl

@[simp] theorem done_bind (a : α) (k : α → Program Reply ε β) : (done a).bind k = k a := rfl

@[simp] theorem fail_bind (e : ε) (k : α → Program Reply ε β) :
    (fail e : Program Reply ε α).bind k = .fail e := rfl

@[simp] theorem call_bind (op : Op) (next : Reply op → Program Reply ε α)
    (k : α → Program Reply ε β) :
    (call op next).bind k = .call op fun r ↦ (next r).bind k := rfl

variable {S : Type v} (step : S → (op : Op) → Reply op → S → Prop)

/-- Some requests of a program have been answered. What is left may be the
whole program, an exit, or anything between: the process can stop there. -/
inductive Run : Program Reply ε α → S → Program Reply ε α → S → Prop
  | stop (p : Program Reply ε α) (s : S) : Run p s p s
  | call {op : Op} {next : Reply op → Program Reply ε α} {r : Reply op} {s s' t : S}
      {q : Program Reply ε α} :
      step s op r s' → Run (next r) s' q t → Run (.call op next) s q t

/-- The process stops at state `t`, wherever the program stands then. -/
def Stops (p : Program Reply ε α) (s t : S) : Prop := ∃ q, Run step p s q t

/-- The program completes with a value. -/
def Completes (p : Program Reply ε α) (s : S) (a : α) (t : S) : Prop :=
  Run step p s (.done a) t

variable {step}

theorem Run.trans {p q r : Program Reply ε α} {s t v : S} (h : Run step p s q t)
    (h' : Run step q t r v) : Run step p s r v := by
  induction h with
  | stop => exact h'
  | call hs _ ih => exact .call hs (ih h')

theorem Run.bind {p q : Program Reply ε α} {s t : S} (h : Run step p s q t)
    (k : α → Program Reply ε β) : Run step (p.bind k) s (q.bind k) t := by
  induction h with
  | stop => exact .stop _ _
  | call hs _ ih => exact .call hs ih

/-- The requests of a program all satisfy a predicate, whatever the replies. -/
def Uses (allowed : Op → Prop) : Program Reply ε α → Prop
  | .done _ | .fail _ => True
  | .call op next => allowed op ∧ ∀ r, (next r).Uses allowed

theorem uses_true (p : Program Reply ε α) : p.Uses fun _ ↦ True := by
  induction p with
  | done a => trivial
  | fail e => trivial
  | call op next ih => exact ⟨trivial, ih⟩

theorem Uses.mono {allowed allowed' : Op → Prop} {p : Program Reply ε α} (h : p.Uses allowed)
    (ha : ∀ op, allowed op → allowed' op) : p.Uses allowed' := by
  induction p with
  | done a => trivial
  | fail e => trivial
  | call op next ih => exact ⟨ha op h.1, fun r ↦ ih r (h.2 r)⟩

theorem uses_bind {allowed : Op → Prop} {p : Program Reply ε α} {k : α → Program Reply ε β}
    (hp : p.Uses allowed) (hk : ∀ a, (k a).Uses allowed) : (p.bind k).Uses allowed := by
  induction p with
  | done a => exact hk a
  | fail e => trivial
  | call op next ih => exact ⟨hp.1, fun r ↦ ih r (hp.2 r)⟩

theorem uses_attempt {allowed : Op → Prop} {p : Program Reply ε α} (hp : p.Uses allowed) :
    (p.attempt : Program Reply δ (Except ε α)).Uses allowed := by
  induction p with
  | done a => trivial
  | fail e => trivial
  | call op next ih => exact ⟨hp.1, fun r ↦ ih r (hp.2 r)⟩

theorem uses_handle {allowed : Op → Prop} {p : Program Reply ε α} {k : ε → Program Reply δ α}
    (hp : p.Uses allowed) (hk : ∀ e, (k e).Uses allowed) : (p.handle k).Uses allowed := by
  induction p with
  | done a => trivial
  | fail e => exact hk e
  | call op next ih => exact ⟨hp.1, fun r ↦ ih r (hp.2 r)⟩

theorem uses_lift {allowed : Op → Prop} (x : Except ε α) :
    (lift x : Program Reply ε α).Uses allowed := by cases x <;> trivial

/-- Every value of a program satisfies a predicate, whatever the replies. -/
def Returns (Q : α → Prop) : Program Reply ε α → Prop
  | .done a => Q a
  | .fail _ => True
  | .call _ next => ∀ r, (next r).Returns Q

theorem Returns.mono {P Q : α → Prop} {p : Program Reply ε α} (h : p.Returns P)
    (hPQ : ∀ a, P a → Q a) : p.Returns Q := by
  induction p with
  | done a => exact hPQ a h
  | fail e => trivial
  | call op next ih => exact fun r ↦ ih r (h r)

theorem returns_bind {P : α → Prop} {Q : β → Prop} {p : Program Reply ε α}
    {k : α → Program Reply ε β} (hp : p.Returns P) (hk : ∀ a, P a → (k a).Returns Q) :
    (p.bind k).Returns Q := by
  induction p with
  | done a => exact hk a hp
  | fail e => trivial
  | call op next ih => exact fun r ↦ ih r (hp r)

theorem returns_true (p : Program Reply ε α) : p.Returns fun _ ↦ True := by
  induction p with
  | done a => trivial
  | fail e => trivial
  | call op next ih => exact ih

theorem returns_foldlM {I : α → Prop} {f : α → β → Program Reply ε α} {l : List β} {a : α}
    (h : ∀ a, ∀ x ∈ l, I a → (f a x).Returns I) (ha : I a) : (l.foldlM f a).Returns I := by
  induction l generalizing a with
  | nil => exact ha
  | cons x rest ih =>
    rw [List.foldlM_cons, bind_eq]
    refine returns_bind (h a x List.mem_cons_self ha) fun a' ha' ↦ ?_
    exact ih (fun b y hy ↦ h b y (List.mem_cons_of_mem _ hy)) ha'

theorem uses_foldlM {allowed : Op → Prop} {f : α → β → Program Reply ε α} {l : List β} {a : α}
    (h : ∀ a x, (f a x).Uses allowed) : (l.foldlM f a).Uses allowed := by
  induction l generalizing a with
  | nil => trivial
  | cons x rest ih =>
    rw [List.foldlM_cons, bind_eq]
    exact uses_bind (h a x) fun a' ↦ ih

/-- Every error of a program satisfies a predicate, whatever the replies. -/
def Raises (E : ε → Prop) : Program Reply ε α → Prop
  | .done _ => True
  | .fail e => E e
  | .call _ next => ∀ r, (next r).Raises E

theorem raises_bind {E : ε → Prop} {p : Program Reply ε α} {k : α → Program Reply ε β}
    (hp : p.Raises E) (hk : p.Returns fun a ↦ (k a).Raises E) : (p.bind k).Raises E := by
  induction p with
  | done a => exact hk
  | fail e => exact hp
  | call op next ih => exact fun r ↦ ih r (hp r) (hk r)

theorem raises_seq {E : ε → Prop} {p : Program Reply ε α} {k : α → Program Reply ε β}
    (hp : p.Raises E) (hk : ∀ a, (k a).Raises E) : (p.bind k).Raises E :=
  raises_bind hp ((returns_true p).mono fun a _ ↦ hk a)

theorem raises_attempt {E : δ → Prop} (p : Program Reply ε α) :
    (p.attempt : Program Reply δ (Except ε α)).Raises E := by
  induction p with
  | done a => trivial
  | fail e => trivial
  | call op next ih => exact ih

theorem raises_foldlM {E : ε → Prop} {f : α → β → Program Reply ε α} {l : List β} {a : α}
    (h : ∀ a x, (f a x).Raises E) : (l.foldlM f a).Raises E := by
  induction l generalizing a with
  | nil => trivial
  | cons x rest ih =>
    rw [List.foldlM_cons, bind_eq]
    exact raises_bind (h a x) ((returns_true _).mono fun a' _ ↦ ih)

/-- Answers at most `n` requests by a function of the state. -/
def exec (answer : S → (op : Op) → Reply op × S) :
    ℕ → Program Reply ε α → S → Program Reply ε α × S
  | n + 1, .call op next, s => exec answer n (next (answer s op).1) (answer s op).2
  | _, p, s => (p, s)

theorem exec_run {answer : S → (op : Op) → Reply op × S}
    (ha : ∀ s op, step s op (answer s op).1 (answer s op).2) (n : ℕ) (p : Program Reply ε α)
    (s : S) : Run step p s (exec answer n p s).1 (exec answer n p s).2 := by
  induction n generalizing p s with
  | zero => cases p <;> exact .stop _ _
  | succ n ih =>
    cases p with
    | done a => exact .stop _ _
    | fail e => exact .stop _ _
    | call op next => exact .call (ha s op) (ih _ _)

/-- Answers every request by a function of the state. -/
def eval (answer : S → (op : Op) → Reply op × S) : Program Reply ε α → S → Except ε α × S
  | .done a, s => (.ok a, s)
  | .fail e, s => (.error e, s)
  | .call op next, s => (next (answer s op).1).eval answer (answer s op).2

theorem eval_completes {answer : S → (op : Op) → Reply op × S}
    (ha : ∀ s op, step s op (answer s op).1 (answer s op).2) {p : Program Reply ε α} {s : S} {a : α}
    (h : (p.eval answer s).1 = .ok a) : Completes step p s a (p.eval answer s).2 := by
  induction p generalizing s with
  | done b =>
    obtain rfl : b = a := by simpa [eval] using h
    exact .stop _ _
  | fail e => simp [eval] at h
  | call op next ih => exact .call (ha s op) (ih _ h)

/-- What a program comes to where the same request always has the same answer. -/
def under (answer : (op : Op) → Reply op) : Program Reply ε α → Except ε α
  | .done a => .ok a
  | .fail e => .error e
  | .call op next => (next (answer op)).under answer

variable {answer : (op : Op) → Reply op}

@[simp] theorem under_done (a : α) : (done a : Program Reply ε α).under answer = .ok a := rfl

@[simp] theorem under_fail (e : ε) : (fail e : Program Reply ε α).under answer = .error e := rfl

@[simp] theorem under_call (op : Op) (next : Reply op → Program Reply ε α) :
    (call op next).under answer = (next (answer op)).under answer := rfl

@[simp] theorem under_lift (x : Except ε α) :
    (lift x : Program Reply ε α).under answer = x := by cases x <;> rfl

theorem under_bind (p : Program Reply ε α) (k : α → Program Reply ε β) :
    (p.bind k).under answer = p.under answer >>= fun a ↦ (k a).under answer := by
  induction p with
  | done a => rfl
  | fail e => rfl
  | call op next ih => exact ih _

theorem under_bind_ok {p : Program Reply ε α} {k : α → Program Reply ε β} {b : β} :
    (p.bind k).under answer = .ok b ↔ ∃ a, p.under answer = .ok a ∧ (k a).under answer = .ok b := by
  induction p with
  | done a => simp
  | fail e => simp
  | call op next ih => exact ih _

theorem Returns.under {Q : α → Prop} {p : Program Reply ε α} {a : α} (h : p.Returns Q)
    (ha : p.under answer = .ok a) : Q a := by
  induction p with
  | done b => exact Except.ok.inj ha ▸ h
  | fail e => cases ha
  | call op next ih => exact ih _ (h _) ha

theorem under_foldlM_ok {γ : Type} {f : α → β → Program Reply ε α} {R : β → γ → Prop}
    {put : α → γ → α}
    (h : ∀ a b a', (f a b).under answer = .ok a' ↔ ∃ c, R b c ∧ put a c = a') {items : List β}
    {a a' : α} : (items.foldlM f a).under answer = .ok a' ↔
      ∃ found, List.Forall₂ R items found ∧ found.foldl put a = a' := by
  induction items generalizing a with
  | nil =>
    simp only [List.foldlM_nil, List.forall₂_nil_left_iff, exists_eq_left, List.foldl_nil]
    exact ⟨Except.ok.inj, congrArg _⟩
  | cons b rest ih =>
    rw [List.foldlM_cons, bind_eq, under_bind_ok]
    constructor
    · rintro ⟨middle, hstep, hrest⟩
      obtain ⟨c, hc, rfl⟩ := (h _ _ _).mp hstep
      obtain ⟨found, hfound, rfl⟩ := ih.mp hrest
      exact ⟨c :: found, .cons hc hfound, rfl⟩
    · rintro ⟨_, hall, rfl⟩
      cases hall with
      | cons hc hfound =>
        exact ⟨_, (h _ _ _).mpr ⟨_, hc, rfl⟩, ih.mpr ⟨_, hfound, rfl⟩⟩

theorem under_foldlM_unit {f : β → Program Reply ε Unit} {items : List β} :
    (items.foldlM (fun _ b ↦ f b) ()).under answer = .ok () ↔
      ∀ b ∈ items, (f b).under answer = .ok () := by
  induction items with
  | nil => exact iff_of_true rfl (List.forall_mem_nil _)
  | cons b rest ih =>
    rw [List.foldlM_cons, bind_eq, under_bind_ok, List.forall_mem_cons, ← ih]
    exact ⟨fun ⟨_, hb, hrest⟩ ↦ ⟨hb, hrest⟩, fun ⟨hb, hrest⟩ ↦ ⟨(), hb, hrest⟩⟩

end Program

end Effect

import Mathlib.Data.List.Nodup
import Mathlib.Logic.Function.Basic
import StealthHub.Data.Result
import StealthHub.Effect.Snapshot

set_option autoImplicit false

namespace Effect.Program

universe u w

variable {Op : Type u} {Reply : Op → Type} {ε α : Type} {S : Type} {ι : Type w}

open Relation

/-- The programs with what they were answered, and who has committed, the first one first. -/
structure Sessions (ι : Type w) (Reply : Op → Type) (ε α : Type) (S : Type) where
  programs : ι → Program Reply ε α
  answered : ι → List (Σ op, Reply op)
  store : S
  log : List ι

namespace Sessions

def start (edits : ι → Program Reply ε α) (s : S) : Sessions ι Reply ε α S :=
  ⟨edits, fun _ ↦ [], s, []⟩

def alone (answer : S → (op : Op) → Reply op) (commit : α → S → Except ε S)
    (p : Program Reply ε α) (s : S) : Except ε S := do
  commit (← p.under (answer s)) s

/-- The store still answers as it has answered a session. -/
def Current (answer : S → (op : Op) → Reply op) (c : Sessions ι Reply ε α S) (i : ι) : Prop :=
  ∀ entry ∈ c.answered i, entry.2 = answer c.store entry.1

variable {answer : S → (op : Op) → Reply op} {commit : α → S → Except ε S}
variable {edits : ι → Program Reply ε α} {c c' : Sessions ι Reply ε α S} {s : S}

def Follows (answer : S → (op : Op) → Reply op) (edits : ι → Program Reply ε α)
    (c : Sessions ι Reply ε α S) (i : ι) : Prop :=
  Reader.Follows answer (edits i) (⟨c.programs i, c.store, c.answered i, []⟩ : Reader Reply ε α S)

theorem alone_of_current {i : ι} {a : α} {t : S} (hfollows : c.Follows answer edits i)
    (hcurrent : c.Current answer i) (hprogram : c.programs i = .done a)
    (hcommit : commit a c.store = .ok t) : alone answer commit (edits i) c.store = .ok t := by
  rcases hfollows c.store hcurrent with ⟨e, hfail⟩ | hunder
  · rw [hprogram] at hfail
    cases hfail
  · rw [hprogram, under_done] at hunder
    rw [alone, hunder]
    exact hcommit

variable [DecidableEq ι]

/-- A session is answered, its request fails, its commit is refused, or it commits, which `may`
allows. -/
inductive Step (answer : S → (op : Op) → Reply op) (commit : α → S → Except ε S)
    (may : Sessions ι Reply ε α S → ι → Prop) (c : Sessions ι Reply ε α S) :
    Sessions ι Reply ε α S → Prop
  | answered {i : ι} {op : Op} {next : Reply op → Program Reply ε α} :
      c.programs i = .call op next → Step answer commit may c { c with
        programs := Function.update c.programs i (next (answer c.store op))
        answered := Function.update c.answered i (⟨op, answer c.store op⟩ :: c.answered i) }
  | failed {i : ι} {op : Op} {next : Reply op → Program Reply ε α} (e : ε) :
      c.programs i = .call op next → Step answer commit may c { c with
        programs := Function.update c.programs i (.fail e) }
  | refused {i : ι} {a : α} {e : ε} : c.programs i = .done a → i ∉ c.log →
      commit a c.store = .error e → Step answer commit may c { c with
        programs := Function.update c.programs i (.fail e) }
  | committed {i : ι} {a : α} {t : S} : c.programs i = .done a → i ∉ c.log → may c i →
      commit a c.store = .ok t → Step answer commit may c { c with
        store := t
        log := c.log ++ [i] }

def serial (answer : S → (op : Op) → Reply op) (commit : α → S → Except ε S)
    (edits : ι → Program Reply ε α) (order : List ι) (s : S) : Except ε S :=
  order.foldlM (fun s i ↦ alone answer commit (edits i) s) s

variable {may : Sessions ι Reply ε α S → ι → Prop}

theorem Step.follows (h : Step answer commit may c c') (hc : ∀ i, c.Follows answer edits i) (i : ι) :
    c'.Follows answer edits i := by
  cases h with
  | @answered j op next hprogram =>
    by_cases hi : i = j
    · subst hi
      have hstep : Reader.Step answer (fun _ _ ↦ False)
          (⟨c.programs i, c.store, c.answered i, []⟩ : Reader Reply ε α S)
          ⟨next (answer c.store op), c.store, ⟨op, answer c.store op⟩ :: c.answered i, []⟩ :=
        .answered hprogram
      have hfollows := hstep.follows (hc i)
      simpa only [Follows, Function.update_self] using hfollows
    · simpa only [Follows, Function.update_of_ne hi] using hc i
  | @failed j op next e _ =>
    by_cases hi : i = j
    · subst hi
      exact fun _ _ ↦ .inl ⟨e, Function.update_self ..⟩
    · simpa only [Follows, Function.update_of_ne hi] using hc i
  | @refused j a e _ _ _ =>
    by_cases hi : i = j
    · subst hi
      exact fun _ _ ↦ .inl ⟨e, Function.update_self ..⟩
    · simpa only [Follows, Function.update_of_ne hi] using hc i
  | committed => exact hc i

theorem Step.serial (h : Step answer commit (Current answer) c c')
    (hfollows : ∀ i, c.Follows answer edits i)
    (hserial : serial answer commit edits c.log s = .ok c.store) :
    serial answer commit edits c'.log s = .ok c'.store := by
  cases h with
  | answered => exact hserial
  | failed => exact hserial
  | refused => exact hserial
  | @committed i a t hprogram _ hcurrent hcommit =>
    rw [Sessions.serial, List.foldlM_append]
    refine Except.bind_eq_ok.mpr ⟨_, hserial, Except.bind_eq_ok.mpr ⟨t, ?_, rfl⟩⟩
    exact alone_of_current (hfollows i) hcurrent hprogram hcommit

/-- A run in which each commit finds what its session has read comes to what its sessions come to
one after the other, in the order of their commits. -/
theorem serial_of_current
    (h : ReflTransGen (Step answer commit (Current answer)) (start edits s) c) :
    serial answer commit edits c.log s = .ok c.store := by
  have hinv : (∀ i, c.Follows answer edits i) ∧
      serial answer commit edits c.log s = .ok c.store := by
    induction h with
    | refl => exact ⟨fun i _ _ ↦ .inr rfl, rfl⟩
    | tail _ hstep ih => exact ⟨hstep.follows ih.1, hstep.serial ih.1 ih.2⟩
  exact hinv.2

theorem log_nodup (h : ReflTransGen (Step answer commit may) (start edits s) c) : c.log.Nodup := by
  induction h with
  | refl => exact .nil
  | tail _ hstep ih =>
    cases hstep with
    | answered => exact ih
    | failed => exact ih
    | refused => exact ih
    | committed _ hlog =>
      rw [← List.concat_eq_append]
      exact ih.concat hlog

end Sessions

end Effect.Program

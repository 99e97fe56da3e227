import Mathlib.Logic.Relation
import StealthHub.Effect.Program

set_option autoImplicit false

namespace Effect.Program

universe u v

variable {Op : Type u} {Reply : Op → Type} {ε α : Type} {S : Type v}

open Relation

def Asks (asked : Op) : Program Reply ε α → Prop
  | .done _ | .fail _ => False
  | .call op next => asked = op ∨ ∃ r, (next r).Asks asked

/-- A reader somewhere in its course, what it has been answered, and the stores that were
committed since it began. -/
structure Reader (Reply : Op → Type) (ε α : Type) (S : Type v) where
  program : Program Reply ε α
  store : S
  answered : List (Σ op, Reply op)
  committed : List S

namespace Reader

/-- A reader that has not asked for anything yet. -/
def start (p : Program Reply ε α) (s : S) : Reader Reply ε α S := ⟨p, s, [], [s]⟩

/-- A request is answered from the store as it is, or fails and ends the reader with its error;
or somebody commits. -/
inductive Step (answer : S → (op : Op) → Reply op) (commit : Reader Reply ε α S → S → Prop)
    (x : Reader Reply ε α S) : Reader Reply ε α S → Prop
  | answered {op : Op} {next : Reply op → Program Reply ε α} : x.program = .call op next →
      Step answer commit x { x with
        program := next (answer x.store op)
        answered := ⟨op, answer x.store op⟩ :: x.answered }
  | failed {op : Op} {next : Reply op → Program Reply ε α} (e : ε) : x.program = .call op next →
      Step answer commit x { x with program := .fail e }
  | committed {t : S} : commit x t →
      Step answer commit x { x with store := t, committed := t :: x.committed }

variable {answer : S → (op : Op) → Reply op} {commit : Reader Reply ε α S → S → Prop}
variable {p : Program Reply ε α} {x y : Reader Reply ε α S} {s t : S} {a : α}

/-- The store answers as the reader was answered. -/
def Agrees (answer : S → (op : Op) → Reply op) (x : Reader Reply ε α S) (w : S) : Prop :=
  ∀ entry ∈ x.answered, entry.2 = answer w entry.1

def Ahead (answer : S → (op : Op) → Reply op) (x : Reader Reply ε α S) (w : S) : Prop :=
  ∀ op, x.program.Asks op → answer w op = answer x.store op

/-- A commit leaves alone what the reader has read, or what it has still to read. -/
def Spares (answer : S → (op : Op) → Reply op) (x : Reader Reply ε α S) (t : S) : Prop :=
  x.Agrees answer t ∨ x.Ahead answer t

def Coherent (answer : S → (op : Op) → Reply op) (x : Reader Reply ε α S) : Prop :=
  ∃ w ∈ x.committed, x.Agrees answer w ∧ x.Ahead answer w

/-- Unless a request failed, a store that answers as the reader was answered leads the whole
program to where the rest of it leads. -/
def Follows (answer : S → (op : Op) → Reply op) (p : Program Reply ε α)
    (x : Reader Reply ε α S) : Prop :=
  ∀ w, x.Agrees answer w →
    (∃ e, x.program = .fail e) ∨ p.under (answer w) = x.program.under (answer w)

theorem coherent_start (p : Program Reply ε α) (s : S) :
    (start p s : Reader Reply ε α S).Coherent answer :=
  ⟨s, List.mem_singleton_self s, List.forall_mem_nil _, fun _ _ ↦ rfl⟩

theorem follows_start (p : Program Reply ε α) (s : S) :
    (start p s : Reader Reply ε α S).Follows answer p :=
  fun _ _ ↦ .inr rfl

theorem Step.coherent (h : Step answer (fun x t ↦ commit x t ∧ x.Spares answer t) x y)
    (hx : x.Coherent answer) : y.Coherent answer := by
  obtain ⟨w, hw, hagrees, hahead⟩ := hx
  cases h with
  | @answered op next hprogram =>
    have hasked : answer w op = answer x.store op := by
      apply hahead
      rw [hprogram]
      exact .inl rfl
    refine ⟨w, hw, ?_, ?_⟩
    · intro entry hentry
      rcases List.mem_cons.mp hentry with rfl | hentry
      · exact hasked.symm
      · exact hagrees entry hentry
    · intro op' hop'
      apply hahead
      rw [hprogram]
      exact .inr ⟨_, hop'⟩
  | failed e => exact ⟨w, hw, hagrees, fun _ hop ↦ hop.elim⟩
  | @committed t hcommit =>
    rcases hcommit.2 with hread | hunread
    · exact ⟨t, List.mem_cons_self, hread, fun _ _ ↦ rfl⟩
    · refine ⟨w, List.mem_cons_of_mem t hw, hagrees, ?_⟩
      intro op hop
      exact (hahead op hop).trans (hunread op hop).symm

theorem Step.follows (h : Step answer commit x y) (hx : x.Follows answer p) :
    y.Follows answer p := by
  intro w hw
  cases h with
  | @answered op next hprogram =>
    obtain ⟨hasked, hagrees⟩ := List.forall_mem_cons.mp hw
    rcases hx w hagrees with ⟨e, hfail⟩ | hunder
    · rw [hprogram] at hfail
      cases hfail
    · refine .inr ?_
      rw [hunder, hprogram, under_call, ← hasked]
  | failed e => exact .inl ⟨e, rfl⟩
  | committed => exact hx w hw

theorem snapshot (h : ReflTransGen (Step answer fun x t ↦ commit x t ∧ x.Spares answer t)
    (start p s) x) (hdone : x.program = .done a) :
    ∃ w ∈ x.committed, p.under (answer w) = .ok a := by
  have hinv : x.Coherent answer ∧ x.Follows answer p := by
    clear hdone
    induction h with
    | refl => exact ⟨coherent_start p s, follows_start p s⟩
    | tail _ hstep ih => exact ⟨hstep.coherent ih.1, hstep.follows ih.2⟩
  obtain ⟨⟨w, hw, hagrees, -⟩, hfollows⟩ := hinv
  refine ⟨w, hw, ?_⟩
  rcases hfollows w hagrees with ⟨e, hfail⟩ | hunder
  · rw [hdone] at hfail
    cases hfail
  · rw [hunder, hdone, under_done]

end Reader

end Effect.Program

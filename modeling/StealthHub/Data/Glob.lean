import Mathlib.Data.List.Basic
import Mathlib.Tactic.Cases

set_option autoImplicit false

namespace Glob

variable {α : Type} (star question : α)

/-- The texts a pattern stands for. -/
inductive Matches : List α → List α → Prop
  | nil : Matches [] []
  | run {p v : List α} (w : List α) : Matches p v → Matches (star :: p) (w ++ v)
  | one {p v : List α} (c : α) : Matches p v → Matches (question :: p) (c :: v)
  | letter {p v : List α} (c : α) : Matches p v → Matches (c :: p) (c :: v)

section Matcher

variable [DecidableEq α]

def backtrack (next : List α → List α → Option (List α × List α) → Bool) :
    Option (List α × List α) → Bool
  | some (behind, _ :: rest) => next behind rest (some (behind, rest))
  | _ => false

/-- The matcher's loop: the rest of the pattern, the rest of the text, and, once a run
was seen, the pattern behind it with the text from which its present length is tried. -/
def loop : ℕ → List α → List α → Option (List α × List α) → Bool
  | 0, _, _, _ => false
  | _ + 1, p, [], _ => p.all (· = star)
  | fuel + 1, [], _ :: _, retry => backtrack (loop fuel) retry
  | fuel + 1, q :: p, c :: v, retry =>
    if q = question ∨ q = c then loop fuel p v retry
    else if q = star then loop fuel p (c :: v) (some (p, c :: v))
    else backtrack (loop fuel) retry

/-- Steps that suffice for a pattern and a text: the text left to the last run shrinks,
or else the pattern and the text do. -/
def steps (pattern text : List α) : ℕ :=
  (text.length + 1) * (pattern.length + text.length + 1) + pattern.length + text.length + 1

def wildcardMatches (pattern text : List α) : Bool :=
  loop star question (steps pattern text) pattern text none

end Matcher

variable {star question : α} {p q v w : List α} {c : α}

theorem matches_nil_left : Matches star question [] v ↔ v = [] := by
  constructor
  · rintro ⟨⟩
    rfl
  · rintro rfl
    exact .nil

theorem matches_run : Matches star question (star :: p) v ↔
    ∃ w rest, v = w ++ rest ∧ Matches star question p rest := by
  constructor
  · intro h
    cases h with
    | run w h => exact ⟨w, _, rfl, h⟩
    | one c h => exact ⟨[c], _, rfl, h⟩
    | letter _ h => exact ⟨[star], _, rfl, h⟩
  · rintro ⟨w, rest, rfl, h⟩
    exact .run w h

theorem matches_cons {a : α} (ha : a ≠ star) : Matches star question (a :: p) v ↔
    ∃ c rest, v = c :: rest ∧ (a = question ∨ a = c) ∧ Matches star question p rest := by
  constructor
  · intro h
    cases h with
    | run w h => exact absurd rfl ha
    | one c h => exact ⟨c, _, rfl, .inl rfl, h⟩
    | letter _ h => exact ⟨a, _, rfl, .inr rfl, h⟩
  · rintro ⟨c, rest, rfl, rfl | rfl, h⟩
    · exact .one c h
    · exact .letter a h

theorem matches_nil_right : Matches star question p [] ↔ ∀ a ∈ p, a = star := by
  induction p with
  | nil => simp [matches_nil_left]
  | cons a p ih =>
    rw [List.forall_mem_cons]
    by_cases ha : a = star
    · subst ha
      simp [matches_run, ih]
    · simp [matches_cons ha, ha]

theorem Matches.prepend (h : Matches star question (star :: p) v) (w : List α) :
    Matches star question (star :: p) (w ++ v) := by
  obtain ⟨w', rest, rfl, hrest⟩ := matches_run.mp h
  rw [← List.append_assoc]
  exact .run _ hrest

theorem Matches.of_segment {segment : List α} (hs : star ∉ segment)
    (h : Matches star question (segment ++ p) v) :
    ∃ w rest, v = w ++ rest ∧ w.length = segment.length ∧ Matches star question p rest := by
  induction segment generalizing v with
  | nil => exact ⟨[], v, rfl, rfl, h⟩
  | cons a segment ih =>
    obtain ⟨ha, hs⟩ := not_or.mp (List.mem_cons.not.mp hs)
    obtain ⟨c, rest, rfl, -, h⟩ := (matches_cons (Ne.symm ha)).mp h
    obtain ⟨w, rest', rfl, hw, h⟩ := ih hs h
    exact ⟨c :: w, rest', rfl, by rw [List.length_cons, List.length_cons, hw], h⟩

section Encode

variable {β : Type} {f : α → List β} {g : α → β} {star' question' : β}

/-- A text whose letters keep one code each matches the encoded pattern as it matches
the pattern, where the first code of a letter tells it from the two symbols and from the
letters of the text. -/
theorem matches_flatMap (hstar : f star = [star']) (hquestion : f question = [question'])
    (hcodes : ∀ a, ∃ code rest, f a = code :: rest ∧ (code = star' → a = star) ∧
      (code = question' → a = question) ∧ ∀ c ∈ v, code = g c → a = c)
    (hv : ∀ c ∈ v, f c = [g c]) :
    Matches star' question' (p.flatMap f) (v.map g) ↔ Matches star question p v := by
  induction p generalizing v with
  | nil => rw [List.flatMap_nil, matches_nil_left, matches_nil_left, List.map_eq_nil_iff]
  | cons a p ih =>
    have htail : ∀ {w : List α}, (∀ c ∈ w, c ∈ v) →
        (Matches star' question' (p.flatMap f) (w.map g) ↔ Matches star question p w) := by
      intro w hw
      refine ih (fun a ↦ ?_) fun c hc ↦ hv c (hw c hc)
      obtain ⟨code, rest, hcode, h₁, h₂, h₃⟩ := hcodes a
      exact ⟨code, rest, hcode, h₁, h₂, fun c hc ↦ h₃ c (hw c hc)⟩
    rw [List.flatMap_cons]
    by_cases ha : a = star
    · subst ha
      rw [hstar, List.singleton_append, matches_run, matches_run]
      constructor
      · rintro ⟨w', rest', heq, h⟩
        obtain ⟨w, rest, rfl, rfl, rfl⟩ := List.map_eq_append_iff.mp heq
        exact ⟨w, rest, rfl, (htail fun c ↦ List.mem_append_right w).mp h⟩
      · rintro ⟨w, rest, rfl, h⟩
        exact ⟨w.map g, rest.map g, List.map_append,
          (htail fun c ↦ List.mem_append_right w).mpr h⟩
    · obtain ⟨code, codes, hcode, hcs, hcq, hcv⟩ := hcodes a
      rw [hcode, List.cons_append, matches_cons fun hc ↦ ha (hcs hc), matches_cons ha]
      constructor
      · rintro ⟨d, rest', heq, hd, h⟩
        obtain ⟨c, rest, rfl, rfl, rfl⟩ := List.map_eq_cons_iff.mp heq
        have hletter : a = question ∨ a = c :=
          hd.imp hcq (hcv c List.mem_cons_self)
        have hone : codes = [] := by
          rcases hletter with rfl | rfl
          · exact (List.cons_eq_cons.mp (hcode.symm.trans hquestion)).2
          · exact (List.cons_eq_cons.mp (hcode.symm.trans (hv _ List.mem_cons_self))).2
        rw [hone, List.nil_append] at h
        exact ⟨c, rest, rfl, hletter, (htail fun c ↦ List.mem_cons_of_mem _).mp h⟩
      · rintro ⟨c, rest, rfl, hletter, h⟩
        have hone : codes = [] ∧ (code = question' ∨ code = g c) := by
          rcases hletter with rfl | rfl
          · obtain ⟨h₁, h₂⟩ := List.cons_eq_cons.mp (hcode.symm.trans hquestion)
            exact ⟨h₂, .inl h₁⟩
          · obtain ⟨h₁, h₂⟩ := List.cons_eq_cons.mp (hcode.symm.trans (hv _ List.mem_cons_self))
            exact ⟨h₂, .inr h₁⟩
        rw [hone.1, List.nil_append]
        exact ⟨g c, rest.map g, rfl, hone.2, (htail fun c ↦ List.mem_cons_of_mem _).mpr h⟩

end Encode

/-- The last run is being tried from `text`: what lies between it and the rest of the
pattern is a segment without runs, as long as what it has taken of the text. Before
any run, `size` bounds the text. -/
def Trying (star : α) (size bound : ℕ) (p v : List α) : Option (List α × List α) → Prop
  | none => star ∉ v ∧ v.length ≤ size ∧ p.length + v.length ≤ bound
  | some (behind, text) => star ∉ text ∧ behind.length + text.length ≤ bound ∧
      ∃ segment w, behind = segment ++ p ∧ text = w ++ v ∧ segment.length = w.length ∧
        star ∉ segment

def Alternatives (star question : α) (p v : List α) (retry : Option (List α × List α)) : Prop :=
  Matches star question p v ∨ ∃ behind text, retry = some (behind, text) ∧
    ∃ c w rest, text = c :: (w ++ rest) ∧ Matches star question behind rest

def budget (size : ℕ) : Option (List α × List α) → ℕ
  | none => size + 1
  | some (_, text) => text.length

variable {size bound : ℕ} {retry : Option (List α × List α)}

theorem Trying.star_not_mem (h : Trying star size bound p v retry) : star ∉ v := by
  cases retry with
  | none => exact h.1
  | some state =>
    obtain ⟨hstar, -, segment, w, -, htext, -, -⟩ := h
    intro hv
    exact hstar (htext ▸ List.mem_append_right w hv)

theorem Trying.length_le_budget (h : Trying star size bound p v retry) :
    v.length ≤ budget size retry := by
  cases retry with
  | none => exact Nat.le_succ_of_le h.2.1
  | some state =>
    obtain ⟨-, -, segment, w, -, htext, -, -⟩ := h
    simp [budget, htext]

theorem Trying.length_add_le (h : Trying star size bound p v retry) :
    p.length + v.length ≤ bound := by
  cases retry with
  | none => exact h.2.2
  | some state =>
    obtain ⟨-, hbound, segment, w, hbehind, htext, -, -⟩ := h
    rw [hbehind, htext, List.length_append, List.length_append] at hbound
    omega

theorem Trying.advance {a : α} (h : Trying star size bound (a :: p) (c :: v) retry)
    (ha : a ≠ star) : Trying star size bound p v retry := by
  cases retry with
  | none =>
    obtain ⟨hstar, hsize, hbound⟩ := h
    simp only [List.length_cons] at hsize hbound
    exact ⟨fun hv ↦ hstar (List.mem_cons_of_mem _ hv), by omega, by omega⟩
  | some state =>
    obtain ⟨hstar, hbound, segment, w, hbehind, htext, hlength, hsegment⟩ := h
    refine ⟨hstar, hbound, segment ++ [a], w ++ [c], ?_, ?_, ?_, ?_⟩
    · rw [hbehind, List.append_assoc, List.singleton_append]
    · rw [htext, List.append_assoc, List.singleton_append]
    · rw [List.length_append, List.length_append, hlength, List.length_singleton,
        List.length_singleton]
    · simpa [hsegment] using Ne.symm ha

theorem Trying.start (h : Trying star size bound (star :: p) v retry) :
    Trying star size bound p v (some (p, v)) := by
  have hbound := h.length_add_le
  rw [List.length_cons] at hbound
  exact ⟨h.star_not_mem, by omega, [], [], rfl, rfl, rfl, List.not_mem_nil⟩

theorem alternatives_advance {a : α} (ha : a = question ∨ a = c) (hstar : a ≠ star) :
    Alternatives star question (a :: p) (c :: v) retry ↔ Alternatives star question p v retry := by
  refine or_congr_left ?_
  rw [matches_cons hstar]
  constructor
  · rintro ⟨_, _, heq, -, h⟩
    cases heq
    exact h
  · exact fun h ↦ ⟨c, v, rfl, ha, h⟩

theorem alternatives_start (h : Trying star size bound (star :: p) v retry) :
    Alternatives star question (star :: p) v retry ↔
      Alternatives star question p v (some (p, v)) := by
  have hrun : Matches star question (star :: p) v ↔
      Alternatives star question p v (some (p, v)) := by
    rw [matches_run]
    constructor
    · rintro ⟨w, rest, rfl, hrest⟩
      cases w with
      | nil => exact .inl hrest
      | cons c w => exact .inr ⟨p, _, rfl, c, w, rest, rfl, hrest⟩
    · rintro (hv | ⟨_, _, heq, c, w, rest, htext, hrest⟩)
      · exact ⟨[], v, rfl, hv⟩
      · cases heq
        exact ⟨c :: w, rest, htext, hrest⟩
  rw [← hrun]
  refine ⟨?_, .inl⟩
  rintro (hv | ⟨behind, text, rfl, c, w₁, rest, hc, hrest⟩)
  · exact hv
  · obtain ⟨-, -, segment, w, rfl, htext, hlength, hsegment⟩ := h
    obtain ⟨w₂, rest₂, rfl, hw₂, hrest₂⟩ := hrest.of_segment hsegment
    have hrest₂' : rest₂ <:+ text := ⟨c :: (w₁ ++ w₂), by rw [hc]; simp⟩
    have hsuffix : rest₂ <:+ v := by
      refine List.suffix_of_suffix_length_le hrest₂' ⟨w, htext.symm⟩ ?_
      have hsame := congrArg List.length (htext.symm.trans hc)
      simp only [List.length_append, List.length_cons] at hsame
      omega
    obtain ⟨before, rfl⟩ := hsuffix
    exact hrest₂.prepend before

theorem alternatives_nil (h : Trying star size bound p [] retry) :
    Alternatives star question p [] retry ↔ Matches star question p [] := by
  refine ⟨?_, .inl⟩
  rintro (hp | ⟨behind, text, rfl, c, w₁, rest, hc, hrest⟩)
  · exact hp
  · obtain ⟨-, -, segment, w, rfl, htext, hlength, hsegment⟩ := h
    obtain ⟨w₂, rest₂, rfl, hw₂, -⟩ := hrest.of_segment hsegment
    have hsame := congrArg List.length (htext.symm.trans hc)
    simp only [List.length_append, List.length_cons, List.length_nil] at hsame
    omega

theorem alternatives_backtrack {behind rest : List α} (hp : ¬Matches star question p v) :
    Alternatives star question p v (some (behind, c :: rest)) ↔
      Alternatives star question behind rest (some (behind, rest)) := by
  constructor
  · rintro (h | ⟨_, _, heq, d, w, rest', htext, hrest⟩)
    · exact absurd h hp
    · cases heq
      obtain ⟨-, rfl⟩ := List.cons_eq_cons.mp htext
      cases w with
      | nil => exact .inl hrest
      | cons d w => exact .inr ⟨behind, _, rfl, d, w, rest', rfl, hrest⟩
  · rintro (h | ⟨_, _, heq, d, w, rest', htext, hrest⟩)
    · exact .inr ⟨behind, _, rfl, c, [], rest, rfl, h⟩
    · cases heq
      exact .inr ⟨behind, _, rfl, c, d :: w, rest', by rw [htext]; rfl, hrest⟩

variable [DecidableEq α]

theorem loop_iff (hne : star ≠ question) (fuel : ℕ) (h : Trying star size bound p v retry)
    (hfuel : budget size retry * (bound + 1) + p.length + v.length < fuel) :
    loop star question fuel p v retry = true ↔ Alternatives star question p v retry := by
  induction fuel generalizing p v retry with
  | zero => omega
  | succ fuel ih =>
    cases v with
    | nil => rw [alternatives_nil h, matches_nil_right, loop, List.all_eq_true]; simp
    | cons c v =>
      have hletter : c ≠ star := fun hc ↦ h.star_not_mem (by simp [hc])
      have hback : ¬Matches star question p (c :: v) →
          (backtrack (loop star question fuel) retry = true ↔
            Alternatives star question p (c :: v) retry) := by
        intro hp
        cases retry with
        | none => simp [backtrack, Alternatives, hp]
        | some state =>
          obtain ⟨behind, text⟩ := state
          obtain ⟨hstar, hbound, segment, w, hbehind, htext, hlength, hsegment⟩ := h
          cases text with
          | nil => simp at htext
          | cons d rest =>
            rw [alternatives_backtrack hp]
            refine ih ⟨fun hs ↦ hstar (List.mem_cons_of_mem _ hs), ?_, [], [], rfl, rfl, rfl,
              List.not_mem_nil⟩ ?_
            · simp only [List.length_cons] at hbound
              omega
            · simp only [budget, List.length_cons, Nat.succ_mul] at hfuel hbound ⊢
              omega
      cases p with
      | nil =>
        rw [← hback (by rw [matches_nil_left]; exact List.cons_ne_nil _ _)]
        rfl
      | cons a p =>
        simp only [List.length_cons] at hfuel
        rw [loop]
        by_cases ha : a = question ∨ a = c
        · have hstar : a ≠ star := by
            rcases ha with rfl | rfl
            · exact hne.symm
            · exact hletter
          rw [if_pos ha, alternatives_advance ha hstar]
          exact ih (h.advance hstar) (by omega)
        rw [if_neg ha]
        by_cases hstar : a = star
        · subst hstar
          rw [if_pos rfl, alternatives_start h]
          refine ih h.start ?_
          have hle := Nat.mul_le_mul_right (bound + 1) h.length_le_budget
          show (v.length + 1) * (bound + 1) + p.length + (v.length + 1) < fuel
          rw [List.length_cons] at hle
          omega
        · rw [if_neg hstar]
          refine hback fun hm ↦ ?_
          obtain ⟨d, rest, heq, hd, -⟩ := (matches_cons hstar).mp hm
          cases heq
          exact ha hd

theorem loop_start_iff (hne : star ≠ question) {pattern text : List α} (ht : star ∉ text)
    {fuel : ℕ} (hfuel : steps pattern text ≤ fuel) :
    loop star question fuel pattern text none = true ↔ Matches star question pattern text := by
  have htrying : Trying star text.length (pattern.length + text.length) pattern text none :=
    ⟨ht, Nat.le_refl _, Nat.le_refl _⟩
  rw [loop_iff hne _ htrying]
  · simp [Alternatives]
  · simp only [budget, steps] at hfuel ⊢
    omega

theorem wildcardMatches_iff (hne : star ≠ question) {pattern text : List α} (ht : star ∉ text) :
    wildcardMatches star question pattern text = true ↔ Matches star question pattern text :=
  loop_start_iff hne ht (Nat.le_refl _)

end Glob

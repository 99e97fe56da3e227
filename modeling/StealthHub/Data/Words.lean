import Mathlib.Data.List.Basic
import Mathlib.Data.List.Infix
import Mathlib.Data.List.TakeWhile
import Mathlib.Tactic.Cases

set_option autoImplicit false

namespace Words

variable {α : Type} {sep : α → Bool} {a b l w rest : List α} {c : α} {ws us : List (List α)}

def words (sep : α → Bool) (l : List α) : List (List α) :=
  (l.splitOnP sep).filter (!·.isEmpty)

def Plain (sep : α → Bool) (l : List α) : Prop := ∀ c ∈ l, sep c = false

instance (sep : α → Bool) (l : List α) : Decidable (Plain sep l) :=
  List.decidableBAll (sep · = false) l

def Opens (sep : α → Bool) (l : List α) : Prop := ∀ c ∈ l.head?, sep c = true

def Closes (sep : α → Bool) (l : List α) : Prop := ∀ c ∈ l.getLast?, sep c = true

theorem exists_plain (sep : α → Bool) (l : List α) :
    ∃ a rest, l = a ++ rest ∧ Plain sep a ∧ Opens sep rest := by
  refine ⟨l.takeWhile (!sep ·), l.dropWhile (!sep ·), List.takeWhile_append_dropWhile.symm,
    fun c hc ↦ ?_, fun c hc ↦ ?_⟩
  · simpa using List.mem_takeWhile_imp hc
  · have hhead := List.head?_dropWhile_not (!sep ·) l
    rw [Option.mem_def.mp hc] at hhead
    simpa using hhead

theorem closes_nil : Closes sep [] := nofun

theorem opens_nil : Opens sep [] := nofun

theorem closes_concat (hc : sep c = true) : Closes sep (a ++ [c]) := by
  intro d hd
  rw [List.getLast?_concat] at hd
  obtain rfl := Option.some.inj hd
  exact hc

theorem opens_cons (hc : sep c = true) : Opens sep (c :: a) := by
  intro d hd
  obtain rfl := Option.some.inj hd
  exact hc

theorem Closes.cases (h : Closes sep a) : a = [] ∨ ∃ b c, a = b ++ [c] ∧ sep c = true := by
  induction a using List.reverseRecOn with
  | nil => exact .inl rfl
  | append_singleton b c _ => exact .inr ⟨b, c, rfl, h c (List.getLast?_concat ..)⟩

theorem Opens.cases (h : Opens sep a) : a = [] ∨ ∃ b c, a = c :: b ∧ sep c = true := by
  cases a with
  | nil => exact .inl rfl
  | cons c b => exact .inr ⟨b, c, rfl, h c rfl⟩

theorem Closes.after (hc : sep c = true) (h : Closes sep b) : Closes sep (a ++ c :: b) := by
  rcases h.cases with rfl | ⟨b, d, rfl, hd⟩
  · exact closes_concat hc
  · rw [← List.cons_append, ← List.append_assoc]
    exact closes_concat hd

theorem Closes.of_append (h : Closes sep (a ++ b)) (hb : b ≠ []) : Closes sep b := by
  intro c hc
  apply h
  rw [List.getLast?_append_of_ne_nil a hb]
  exact hc

theorem splitOnP_induction (sep : α → Bool) {motive : List α → Prop}
    (last : ∀ a, Plain sep a → motive a)
    (more : ∀ a c b, Plain sep a → sep c = true → motive b → motive (a ++ c :: b))
    (l : List α) : motive l := by
  induction hn : l.length using Nat.strongRecOn generalizing l with
  | ind n ih =>
    obtain ⟨a, rest, rfl, ha, hrest⟩ := exists_plain sep l
    rcases hrest.cases with rfl | ⟨b, c, rfl, hc⟩
    · rw [List.append_nil]
      exact last a ha
    · have hlength : b.length < n := by
        rw [← hn, List.length_append, List.length_cons]
        omega
      exact more a c b ha hc (ih _ hlength b rfl)

theorem exists_last (sep : α → Bool) (l : List α) :
    ∃ rest a, l = rest ++ a ∧ Closes sep rest ∧ Plain sep a := by
  induction l using splitOnP_induction sep with
  | last a ha => exact ⟨[], a, rfl, closes_nil, ha⟩
  | more b c _ hb hc ih =>
    obtain ⟨rest, a, rfl, hrest, ha⟩ := ih
    refine ⟨b ++ c :: rest, a, ?_, hrest.after hc, ha⟩
    rw [List.append_assoc, List.cons_append]

theorem headD_splitOnP (l : List α) : (l.splitOnP sep).headD [] = l.takeWhile (!sep ·) := by
  induction l using splitOnP_induction sep with
  | last a ha =>
    rw [List.splitOnP_eq_singleton ha, List.takeWhile_eq_self_iff.mpr fun c hc ↦ by rw [ha c hc]; rfl]
    rfl
  | more a c b ha hc _ =>
    rw [List.splitOnP_append_cons_of_forall_mem ha c hc, List.takeWhile_append_of_pos,
      List.takeWhile_cons_of_neg (by rw [hc]; decide), List.append_nil]
    · rfl
    · intro d hd
      rw [ha d hd]
      rfl

theorem mem_splitOnP : w ∈ l.splitOnP sep ↔ ∃ a b, l = a ++ (w ++ b) ∧ Plain sep w ∧
    Closes sep a ∧ Opens sep b := by
  constructor
  · intro h
    induction l using splitOnP_induction sep with
    | last a ha =>
      rw [List.splitOnP_eq_singleton ha] at h
      obtain rfl := List.mem_singleton.mp h
      exact ⟨[], [], (List.append_nil w).symm, ha, closes_nil, opens_nil⟩
    | more a c rest ha hc ih =>
      rw [List.splitOnP_append_cons_of_forall_mem ha c hc] at h
      rcases List.mem_cons.mp h with rfl | h
      · exact ⟨[], c :: rest, rfl, ha, closes_nil, opens_cons hc⟩
      · obtain ⟨before, behind, rfl, hw, hbefore, hbehind⟩ := ih h
        refine ⟨a ++ c :: before, behind, ?_, hw, hbefore.after hc, hbehind⟩
        rw [List.append_assoc, List.cons_append]
  · rintro ⟨a, b, rfl, hw, ha, hb⟩
    have hlast : w ∈ (w ++ b).splitOnP sep := by
      rcases hb.cases with rfl | ⟨b, c, rfl, hc⟩
      · rw [List.append_nil, List.splitOnP_eq_singleton hw]
        exact List.mem_singleton_self w
      · rw [List.splitOnP_append_cons_of_forall_mem hw c hc]
        exact List.mem_cons_self
    rcases ha.cases with rfl | ⟨a, c, rfl, hc⟩
    · exact hlast
    · rw [List.append_assoc, List.singleton_append, List.splitOnP_append_cons a _ hc]
      exact List.mem_append_right _ hlast

theorem words_append_sep (hc : sep c = true) :
    words sep (a ++ c :: b) = words sep a ++ words sep b := by
  rw [words, List.splitOnP_append_cons a b hc, List.filter_append]
  rfl

@[simp] theorem words_nil : words sep [] = [] := rfl

theorem words_cons (hc : sep c = true) : words sep (c :: l) = words sep l :=
  words_append_sep (a := []) hc

theorem words_plain (hne : w ≠ []) (hw : Plain sep w) : words sep w = [w] := by
  rw [words, List.splitOnP_eq_singleton hw, List.filter_cons_of_pos (by simpa using hne)]
  rfl

theorem words_run (hne : w ≠ []) (hw : Plain sep w) (hrest : Opens sep rest) :
    words sep (w ++ rest) = w :: words sep rest := by
  rcases hrest.cases with rfl | ⟨b, c, rfl, hc⟩
  · rw [List.append_nil, words_plain hne hw, words_nil]
  · rw [words_append_sep hc, words_plain hne hw, words_cons hc]
    rfl

theorem words_closes (ha : Closes sep a) : words sep (a ++ b) = words sep a ++ words sep b := by
  rcases ha.cases with rfl | ⟨a, c, rfl, hc⟩
  · rfl
  · rw [List.append_assoc, List.singleton_append, words_append_sep hc, words_append_sep hc,
      words_nil, List.append_nil]

theorem words_opens (hb : Opens sep b) : words sep (a ++ b) = words sep a ++ words sep b := by
  rcases hb.cases with rfl | ⟨b, c, rfl, hc⟩
  · rw [List.append_nil, words_nil, List.append_nil]
  · rw [words_append_sep hc, words_cons hc]

theorem cons_sublist_words : List.Sublist (w :: ws) (words sep l) ↔ ∃ a b, l = a ++ (w ++ b) ∧
    w ≠ [] ∧ Plain sep w ∧ Closes sep a ∧ Opens sep b ∧ List.Sublist ws (words sep b) := by
  constructor
  · intro h
    induction l using splitOnP_induction sep with
    | last a ha =>
      by_cases hne : a = []
      · rw [hne, words_nil] at h
        cases h
      · rw [words_plain hne ha] at h
        cases h with
        | cons _ h => cases h
        | cons_cons _ h => exact ⟨[], [], (List.append_nil w).symm, hne, ha, closes_nil, opens_nil, h⟩
    | more a c rest ha hc ih =>
      have later (h : List.Sublist (w :: ws) (words sep rest)) : ∃ before behind,
          a ++ c :: rest = before ++ (w ++ behind) ∧ w ≠ [] ∧ Plain sep w ∧ Closes sep before ∧
            Opens sep behind ∧ List.Sublist ws (words sep behind) := by
        obtain ⟨before, behind, rfl, hne, hw, hbefore, hbehind, hws⟩ := ih h
        refine ⟨a ++ c :: before, behind, ?_, hne, hw, hbefore.after hc, hbehind, hws⟩
        rw [List.append_assoc, List.cons_append]
      by_cases hne : a = []
      · subst hne
        exact later ((words_cons hc).subst h)
      · rw [words_run hne ha (opens_cons hc)] at h
        cases h with
        | cons _ h => exact later ((words_cons hc).subst h)
        | cons_cons _ h => exact ⟨[], c :: rest, rfl, hne, ha, closes_nil, opens_cons hc, h⟩
  · rintro ⟨a, b, rfl, hne, hw, ha, hb, hws⟩
    rw [words_closes ha, words_run hne hw hb]
    exact (hws.cons_cons w).trans (List.sublist_append_right _ _)

end Words

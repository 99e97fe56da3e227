import StealthHub.Data.Text

set_option autoImplicit false

namespace LexicalPath

open Text

def push (stack : List String) (component : String) : List String :=
  if component = "" ∨ component = "." then stack
  else if component = ".." then stack.dropLast
  else stack ++ [component]

def normalize (path : String) : List String := (split '/' path).foldl push []

def StrictlyBelow (path directory : String) : Prop :=
  normalize directory <+: normalize path ∧ normalize path ≠ normalize directory

instance (path directory : String) : Decidable (StrictlyBelow path directory) :=
  inferInstanceAs (Decidable (_ ∧ _))

/-- A component that is neither empty nor `.`. -/
def Moves (component : String) : Prop := component ≠ "" ∧ component ≠ "."

instance (component : String) : Decidable (Moves component) :=
  inferInstanceAs (Decidable (_ ∧ _))

variable {stack components : List String} {path directory rest name component : String}

theorem push_name (hmoves : Moves component) (hparent : component ≠ "..") :
    push stack component = stack ++ [component] := by
  rw [push, if_neg, if_neg hparent]
  rintro (h | h)
  · exact hmoves.1 h
  · exact hmoves.2 h

theorem push_still (h : ¬Moves component) : push stack component = stack := by
  rw [push, if_pos]
  unfold Moves at h
  by_contra hne
  apply h
  exact not_or.mp hne

theorem foldl_push (h : ".." ∉ components) :
    components.foldl push stack = stack ++ components.filter (Moves ·) := by
  induction components generalizing stack with
  | nil => simp
  | cons component components ih =>
    have hparent : component ≠ ".." := by
      intro e
      apply h
      simp [e]
    have hrest : ".." ∉ components := fun hmem ↦ h (List.mem_cons_of_mem _ hmem)
    rw [List.foldl_cons, ih hrest]
    by_cases hmoves : Moves component
    · rw [push_name hmoves hparent, List.filter_cons_of_pos (by simpa using hmoves)]
      simp
    · rw [push_still hmoves, List.filter_cons_of_neg (by simpa using hmoves)]

theorem normalize_append :
    normalize (directory ++ "/" ++ rest) = (split '/' rest).foldl push (normalize directory) := by
  have hslash : "/".toList = ['/'] := by decide
  rw [normalize, split_append hslash, List.foldl_append, normalize]

theorem normalize_child (hname : '/' ∉ name.toList) :
    normalize (directory ++ "/" ++ name) = push (normalize directory) name := by
  rw [normalize_append, split_eq_singleton hname]
  rfl

theorem normalize_below (h : ".." ∉ split '/' rest) :
    normalize (directory ++ "/" ++ rest) =
      normalize directory ++ (split '/' rest).filter (Moves ·) := by
  rw [normalize_append, foldl_push h]

theorem normalize_name (hmoves : Moves name) (hparent : name ≠ "..") (hname : '/' ∉ name.toList) :
    normalize (directory ++ "/" ++ name) = normalize directory ++ [name] := by
  rw [normalize_child hname, push_name hmoves hparent]

theorem strictlyBelow_child_iff (hempty : name ≠ "") (hname : '/' ∉ name.toList) :
    StrictlyBelow (directory ++ "/" ++ name) directory ↔ name ≠ "." ∧ name ≠ ".." := by
  rw [StrictlyBelow]
  by_cases hmoves : Moves name
  · rw [normalize_child hname]
    by_cases hparent : name = ".."
    · rw [push, if_neg (by simp [hparent]), if_pos hparent]
      simp only [hparent, ne_eq, not_true_eq_false, and_false, iff_false, not_and, not_not]
      intro hpre
      -- a directory is no beginning of the path without its last component
      have hlength := hpre.length_le
      have hnil : normalize directory = [] := by
        apply List.eq_nil_of_length_eq_zero
        rw [List.length_dropLast] at hlength
        omega
      rw [hnil]
      rfl
    · rw [push_name hmoves hparent]
      simp [hmoves.2, hparent]
  · have hdot : name = "." := by
      by_contra hne
      exact hmoves ⟨hempty, hne⟩
    rw [normalize_child hname, push_still hmoves]
    simp [hdot]

theorem strictlyBelow_iff_moves (h : ".." ∉ split '/' rest) :
    StrictlyBelow (directory ++ "/" ++ rest) directory ↔ ∃ c ∈ split '/' rest, Moves c := by
  rw [StrictlyBelow, normalize_below h]
  simp only [List.prefix_append, ne_eq, List.append_right_eq_self, true_and,
    List.filter_eq_nil_iff, decide_eq_true_eq]
  push Not
  rfl

theorem infix_of_mem_splitOn {l piece : List Char} {c : Char} (h : piece ∈ l.splitOn c) :
    piece <:+: l := by
  have hl : [c].intercalate (l.splitOn c) = l := List.intercalate_splitOn c
  rw [← hl]
  generalize l.splitOn c = pieces at h
  induction pieces with
  | nil => cases h
  | cons first pieces ih =>
    cases pieces with
    | nil =>
      obtain rfl := List.mem_singleton.mp h
      simp
    | cons next rest =>
      rw [List.intercalate_cons_cons]
      rcases List.mem_cons.mp h with rfl | h
      · rw [List.append_assoc]
        exact (List.prefix_append _ _).isInfix
      · exact (ih h).trans (List.suffix_append _ _).isInfix

theorem moves_iff (hdots : ¬['.', '.'] <:+: component.toList) :
    Moves component ↔ ∃ c ∈ component.toList, c ≠ '.' := by
  have hempty : component = "" ↔ component.toList = [] := by
    rw [← String.toList_inj]
    rfl
  have hdot : component = "." ↔ component.toList = ['.'] := by
    rw [← String.toList_inj]
    rfl
  rw [Moves, ne_eq, hempty, ne_eq, hdot]
  generalize component.toList = l at hdots
  match l with
  | [] => simp
  | [c] => simp
  | c :: d :: l =>
    simp only [not_false_eq_true, true_and, List.cons.injEq, List.cons_ne_nil,
      and_false, true_iff]
    by_contra hall
    push Not at hall
    apply hdots
    have hc := hall c List.mem_cons_self
    have hd := hall d (List.mem_cons_of_mem _ List.mem_cons_self)
    rw [hc, hd]
    exact (List.prefix_append ['.', '.'] l).isInfix

theorem no_dots_of_mem_splitOn {l piece : List Char} (hdots : ¬['.', '.'] <:+: l)
    (h : piece ∈ l.splitOn '/') : ¬['.', '.'] <:+: (String.ofList piece).toList := by
  rw [String.toList_ofList]
  intro hwithin
  exact hdots (hwithin.trans (infix_of_mem_splitOn h))

theorem parent_not_mem_split (hdots : ¬['.', '.'] <:+: rest.toList) : ".." ∉ split '/' rest := by
  intro hmem
  obtain ⟨piece, hp, htext⟩ := List.mem_map.mp hmem
  apply no_dots_of_mem_splitOn hdots hp
  rw [htext]
  exact ⟨[], [], by decide⟩

theorem strictlyBelow_iff (hdots : ¬['.', '.'] <:+: rest.toList) :
    StrictlyBelow (directory ++ "/" ++ rest) directory ↔
      ∃ c ∈ rest.toList, c ≠ '.' ∧ c ≠ '/' := by
  rw [strictlyBelow_iff_moves (parent_not_mem_split hdots)]
  constructor
  · rintro ⟨text, hmem, hmoves⟩
    obtain ⟨piece, hp, rfl⟩ := List.mem_map.mp hmem
    obtain ⟨c, hc, hne⟩ := (moves_iff (no_dots_of_mem_splitOn hdots hp)).mp hmoves
    rw [String.toList_ofList] at hc
    refine ⟨c, (infix_of_mem_splitOn hp).subset hc, hne, ?_⟩
    rintro rfl
    exact not_mem_of_mem_splitOn hp hc
  · rintro ⟨c, hc, hne, hslash⟩
    rcases mem_splitOn (a := '/') hc with h | ⟨piece, hp, hc⟩
    · exact absurd h hslash
    · have hmoves : Moves (String.ofList piece) := by
        refine (moves_iff (no_dots_of_mem_splitOn hdots hp)).mpr ⟨c, ?_, hne⟩
        rw [String.toList_ofList]
        exact hc
      exact ⟨String.ofList piece, List.mem_map_of_mem hp, hmoves⟩

theorem take_push {n : ℕ} (h : n < stack.length) :
    (push stack component).take n = stack.take n := by
  rw [push]
  split_ifs
  · rfl
  · rw [List.dropLast_eq_take, List.take_take, Nat.min_eq_left (by omega)]
  · rw [List.take_append_of_le_length (by omega)]

end LexicalPath

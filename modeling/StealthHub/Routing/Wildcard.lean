import Mathlib.Data.Prod.Lex
import StealthHub.Data.Loop
import StealthHub.Routing.Topology

set_option autoImplicit false

namespace StealthHub.Routing

/-- The cursors of `wildcard_matches`. -/
structure Cursors where
  p : ℕ
  v : ℕ
  star : Option ℕ
  retry : ℕ

def Cursors.start : Cursors := ⟨0, 0, none, 0⟩

/-- One round of the loop over the value or, behind its end, of the loop over the last stars. -/
def wildcardStep (pattern value : List UInt8) (s : Cursors) : Cursors ⊕ Bool :=
  match value[s.v]? with
  | some byte =>
    if pattern[s.p]? = some 63 ∨ pattern[s.p]? = some byte then
      .inl { s with p := s.p + 1, v := s.v + 1 }
    else if pattern[s.p]? = some 42 then
      .inl { s with star := some s.p, p := s.p + 1, retry := s.v }
    else
      match s.star with
      | some starIndex => .inl { s with p := starIndex + 1, retry := s.retry + 1, v := s.retry + 1 }
      | none => .inr false
  | none =>
    if pattern[s.p]? = some 42 then .inl { s with p := s.p + 1 }
    else .inr (s.p = pattern.length)

variable {pattern value : List UInt8} {s s' : Cursors} {b : Bool}

/-- The cursors are within the texts, and the retry point is not ahead. -/
structure InBounds (pattern value : List UInt8) (s : Cursors) : Prop where
  p : s.p ≤ pattern.length
  v : s.v ≤ value.length
  star : ∀ index, s.star = some index → index < s.p ∧ s.retry ≤ s.v

def remaining (pattern value : List UInt8) (s : Cursors) : ℕ × ℕ :=
  (s.star.elim (value.length + 1) fun _ ↦ value.length - s.retry,
    (pattern.length - s.p) + (value.length - s.v))

theorem wildcardStep_cases (h : wildcardStep pattern value s = .inl s') :
    (∃ byte code, value[s.v]? = some byte ∧ pattern[s.p]? = some code ∧
        (code = 63 ∨ code = byte) ∧ s' = { s with p := s.p + 1, v := s.v + 1 }) ∨
      (∃ byte, value[s.v]? = some byte ∧ byte ≠ 42 ∧ pattern[s.p]? = some 42 ∧
        s' = { s with star := some s.p, p := s.p + 1, retry := s.v }) ∨
      (∃ byte index, value[s.v]? = some byte ∧ pattern[s.p]? ≠ some 63 ∧
        pattern[s.p]? ≠ some byte ∧ pattern[s.p]? ≠ some 42 ∧ s.star = some index ∧
          s' = { s with p := index + 1, retry := s.retry + 1, v := s.retry + 1 }) ∨
      value[s.v]? = none ∧ pattern[s.p]? = some 42 ∧ s' = { s with p := s.p + 1 } := by
  unfold wildcardStep at h
  split at h
  next byte hbyte =>
    split_ifs at h with hcode hstar
    · obtain rfl := Sum.inl.inj h
      rcases hcode with hcode | hcode
      · exact .inl ⟨byte, _, hbyte, hcode, .inl rfl, rfl⟩
      · exact .inl ⟨byte, _, hbyte, hcode, .inr rfl, rfl⟩
    · obtain rfl := Sum.inl.inj h
      refine .inr (.inl ⟨byte, hbyte, ?_, hstar, rfl⟩)
      rintro rfl
      exact hcode (.inr hstar)
    · obtain ⟨hquestion, hbyte'⟩ := not_or.mp hcode
      split at h
      next index hindex =>
        obtain rfl := Sum.inl.inj h
        exact .inr (.inr (.inl ⟨byte, index, hbyte, hquestion, hbyte', hstar, hindex, rfl⟩))
      next => cases h
  next hend =>
    split_ifs at h with hstar
    exact .inr (.inr (.inr ⟨hend, hstar, (Sum.inl.inj h).symm⟩))

theorem wildcardStep_done (h : wildcardStep pattern value s = .inr b) :
    (∃ byte, value[s.v]? = some byte ∧ pattern[s.p]? ≠ some 63 ∧ pattern[s.p]? ≠ some byte ∧
        pattern[s.p]? ≠ some 42 ∧ s.star = none ∧ b = false) ∨
      value[s.v]? = none ∧ pattern[s.p]? ≠ some 42 ∧ b = decide (s.p = pattern.length) := by
  unfold wildcardStep at h
  split at h
  next byte hbyte =>
    split_ifs at h with hcode hstar
    obtain ⟨hquestion, hbyte'⟩ := not_or.mp hcode
    split at h
    next => cases h
    next hnone => exact .inl ⟨byte, hbyte, hquestion, hbyte', hstar, hnone, (Sum.inr.inj h).symm⟩
  next hend =>
    split_ifs at h with hstar
    exact .inr ⟨hend, hstar, (Sum.inr.inj h).symm⟩

theorem InBounds.step (hs : InBounds pattern value s) (h : wildcardStep pattern value s = .inl s') :
    InBounds pattern value s' := by
  obtain ⟨hp, hv, hstar⟩ := hs
  rcases wildcardStep_cases h with ⟨byte, code, hbyte, hcode, -, rfl⟩ |
    ⟨byte, hbyte, -, hcode, rfl⟩ | ⟨byte, index, hbyte, -, -, -, hindex, rfl⟩ | ⟨-, hcode, rfl⟩
  · have hpattern := (List.getElem?_eq_some_iff.mp hcode).1
    have hvalue := (List.getElem?_eq_some_iff.mp hbyte).1
    refine ⟨hpattern, hvalue, fun index hindex ↦ ?_⟩
    obtain ⟨hlt, hle⟩ := hstar index hindex
    exact ⟨Nat.lt_succ_of_lt hlt, Nat.le_succ_of_le hle⟩
  · have hpattern := (List.getElem?_eq_some_iff.mp hcode).1
    refine ⟨hpattern, hv, fun index hindex ↦ ?_⟩
    obtain rfl := Option.some.inj hindex
    exact ⟨Nat.lt_succ_self _, Nat.le_refl _⟩
  · have hvalue := (List.getElem?_eq_some_iff.mp hbyte).1
    obtain ⟨hlt, hle⟩ := hstar index hindex
    refine ⟨hlt.trans_le hp, Nat.lt_of_le_of_lt hle hvalue, fun other hother ↦ ?_⟩
    obtain rfl := Option.some.inj (hindex.symm.trans hother)
    exact ⟨Nat.lt_succ_self _, Nat.le_refl _⟩
  · have hpattern := (List.getElem?_eq_some_iff.mp hcode).1
    refine ⟨hpattern, hv, fun index hindex ↦ ?_⟩
    obtain ⟨hlt, hle⟩ := hstar index hindex
    exact ⟨Nat.lt_succ_of_lt hlt, hle⟩

theorem remaining_step (hs : InBounds pattern value s)
    (h : wildcardStep pattern value s = .inl s') :
    Prod.Lex (· < ·) (· < ·) (remaining pattern value s') (remaining pattern value s) := by
  obtain ⟨hp, hv, hstar⟩ := hs
  rcases wildcardStep_cases h with ⟨byte, code, hbyte, hcode, -, rfl⟩ |
    ⟨byte, hbyte, -, hcode, rfl⟩ | ⟨byte, index, hbyte, -, -, -, hindex, rfl⟩ | ⟨-, hcode, rfl⟩
  · have hpattern := (List.getElem?_eq_some_iff.mp hcode).1
    exact .right _ (by dsimp only; omega)
  · have hpattern := (List.getElem?_eq_some_iff.mp hcode).1
    rw [Prod.lex_iff]
    dsimp only [remaining]
    cases hlast : s.star with
    | none =>
      simp only [Option.elim_some, Option.elim_none]
      omega
    | some index =>
      have hle := (hstar index hlast).2
      simp only [Option.elim_some]
      omega
  · have hvalue := (List.getElem?_eq_some_iff.mp hbyte).1
    have hle := (hstar index hindex).2
    rw [Prod.lex_iff]
    simp only [remaining, hindex, Option.elim_some]
    omega
  · have hpattern := (List.getElem?_eq_some_iff.mp hcode).1
    exact .right _ (by dsimp only; omega)

theorem start_inBounds : InBounds pattern value .start :=
  ⟨Nat.zero_le _, Nat.zero_le _, nofun⟩

theorem wildcard_terminates (pattern value : List UInt8) :
    ∃ b, Loop.Returns (wildcardStep pattern value) .start b := by
  have hwf : WellFounded (InvImage (Prod.Lex (· < ·) (· < ·)) (remaining pattern value)) :=
    InvImage.wf _ (WellFounded.prod_lex Nat.lt_wfRel.wf Nat.lt_wfRel.wf)
  exact Loop.exists_returns hwf (fun s s' hs h ↦ ⟨hs.step h, remaining_step hs h⟩) start_inBounds

def Cursors.behind (pattern value : List UInt8) (s : Cursors) : Option (List UInt8 × List UInt8) :=
  s.star.map fun index ↦ (pattern.drop (index + 1), value.drop s.retry)

theorem drop_of_getElem? {α : Type} {l : List α} {i : ℕ} {a : α} (h : l[i]? = some a) :
    l.drop i = a :: l.drop (i + 1) := by
  rw [List.drop_eq_getElem?_toList_append, h]
  rfl

theorem loop_backtrack {fuel : ℕ} {byte : UInt8} {rest : List UInt8}
    {retry : Option (List UInt8 × List UInt8)} (hquestion : pattern[s.p]? ≠ some 63)
    (hbyte : pattern[s.p]? ≠ some byte) (hstar : pattern[s.p]? ≠ some 42) :
    Glob.loop 42 63 (fuel + 1) (pattern.drop s.p) (byte :: rest) retry =
      Glob.backtrack (Glob.loop 42 63 fuel) retry := by
  cases hcode : pattern[s.p]? with
  | none =>
    rw [List.drop_eq_nil_of_le (List.getElem?_eq_none_iff.mp hcode)]
    rfl
  | some code =>
    rw [hcode, Ne, Option.some_inj] at hquestion hbyte hstar
    rw [drop_of_getElem? hcode, Glob.loop, if_neg (not_or.mpr ⟨hquestion, hbyte⟩), if_neg hstar]

theorem loop_of_returns (hs : InBounds pattern value s)
    (h : Loop.Returns (wildcardStep pattern value) s b) : ∃ least, ∀ fuel, least ≤ fuel →
      Glob.loop 42 63 (fuel + 1) (pattern.drop s.p) (value.drop s.v) (s.behind pattern value) =
        b := by
  induction h with
  | @done s b hstep =>
    refine ⟨0, fun fuel _ ↦ ?_⟩
    rcases wildcardStep_done hstep with ⟨byte, hbyte, hquestion, hother, hstar, hnone, rfl⟩ |
      ⟨hend, hstar, rfl⟩
    · rw [drop_of_getElem? hbyte, loop_backtrack hquestion hother hstar, Cursors.behind, hnone]
      rfl
    · rw [List.drop_eq_nil_of_le (List.getElem?_eq_none_iff.mp hend), Glob.loop]
      cases hcode : pattern[s.p]? with
      | none =>
        have hle := List.getElem?_eq_none_iff.mp hcode
        rw [List.drop_eq_nil_of_le hle, decide_eq_true (Nat.le_antisymm hs.p hle)]
        rfl
      | some code =>
        rw [hcode, Ne, Option.some_inj] at hstar
        have hlt := (List.getElem?_eq_some_iff.mp hcode).1
        rw [drop_of_getElem? hcode, decide_eq_false hlt.ne, List.all_cons, decide_eq_false hstar]
        rfl
  | @next s s' b hstep _ ih =>
    obtain ⟨least, hleast⟩ := ih (hs.step hstep)
    refine ⟨least + 1, fun fuel hfuel ↦ ?_⟩
    obtain ⟨fuel, rfl⟩ := Nat.exists_eq_add_of_le' (Nat.le_of_add_left_le hfuel)
    have hrest := hleast fuel (Nat.le_of_succ_le_succ hfuel)
    rcases wildcardStep_cases hstep with ⟨byte, code, hbyte, hcode, hfits, rfl⟩ |
      ⟨byte, hbyte, hne, hcode, rfl⟩ |
      ⟨byte, index, hbyte, hquestion, hother, hstar, hindex, rfl⟩ | ⟨hend, hcode, rfl⟩
    · rw [drop_of_getElem? hbyte, drop_of_getElem? hcode, Glob.loop, if_pos hfits]
      exact hrest
    · rw [drop_of_getElem? hbyte, drop_of_getElem? hcode, Glob.loop, if_neg, if_pos rfl,
        ← drop_of_getElem? hbyte]
      · exact hrest
      · exact not_or.mpr ⟨by decide, Ne.symm hne⟩
    · have hlt := (List.getElem?_eq_some_iff.mp hbyte).1
      have hbound : s.retry < value.length := Nat.lt_of_le_of_lt (hs.star index hindex).2 hlt
      have hretry : value.drop s.retry = value[s.retry] :: value.drop (s.retry + 1) :=
        List.drop_eq_getElem_cons hbound
      rw [drop_of_getElem? hbyte, loop_backtrack hquestion hother hstar, Cursors.behind, hindex,
        Option.map_some, hretry]
      rw [Cursors.behind, hindex] at hrest
      exact hrest
    · rw [List.drop_eq_nil_of_le (List.getElem?_eq_none_iff.mp hend), Glob.loop] at hrest ⊢
      rw [drop_of_getElem? hcode, List.all_cons, hrest]
      rfl

/-- The matcher always comes to an end, and its result says whether the pattern stands for the
value. -/
theorem wildcard_decides (pattern value : List UInt8) (h : 42 ∉ value) :
    ∃ b, Loop.Returns (wildcardStep pattern value) .start b ∧
      (∀ b', Loop.Returns (wildcardStep pattern value) .start b' → b' = b) ∧
      (b = true ↔ Glob.Matches 42 63 pattern value) ∧ wildcardMatches pattern value = b := by
  obtain ⟨b, hb⟩ := wildcard_terminates pattern value
  obtain ⟨least, hleast⟩ := loop_of_returns start_inBounds hb
  have hfuel := hleast (max least (Glob.steps pattern value)) (Nat.le_max_left _ _)
  have hmatches : b = true ↔ Glob.Matches 42 63 pattern value := by
    rw [← hfuel]
    exact Glob.loop_start_iff (by decide) h
      (Nat.le_succ_of_le (Nat.le_max_right least (Glob.steps pattern value)))
  refine ⟨b, hb, fun b' hb' ↦ hb'.unique hb, hmatches, ?_⟩
  rw [Bool.eq_iff_iff, hmatches]
  exact Glob.wildcardMatches_iff (by decide) h

theorem wildcard_decides_suffix : ∃ b,
    Loop.Returns (wildcardStep [42, 46, 97] [98, 46, 97]) .start b ∧
      (b = true ↔ Glob.Matches (42 : UInt8) 63 [42, 46, 97] [98, 46, 97]) ∧
        wildcardMatches [42, 46, 97] [98, 46, 97] = b := by
  obtain ⟨b, hb, -, hmatches, hsame⟩ := wildcard_decides [42, 46, 97] [98, 46, 97] (by decide)
  exact ⟨b, hb, hmatches, hsame⟩

end StealthHub.Routing

import Mathlib.Data.List.Basic
import Mathlib.Tactic.Cases

set_option autoImplicit false

namespace Terminated

variable {α : Type} {stop : α} {a a' r r' : List α}

theorem append_stop_inj : a ++ stop :: r = a' ++ stop :: r' ↔ (a = a' ∧ r = r') ∨
    (∃ x, a' = a ++ stop :: x ∧ r = x ++ stop :: r') ∨
      ∃ x, a = a' ++ stop :: x ∧ r' = x ++ stop :: r := by
  constructor
  · intro h
    rcases List.append_eq_append_iff.mp h with ⟨x, rfl, hx⟩ | ⟨x, rfl, hx⟩
    · cases x with
      | nil => exact .inl ⟨(List.append_nil a).symm, (List.cons_eq_cons.mp hx).2⟩
      | cons c x =>
        obtain ⟨rfl, hr⟩ := List.cons_eq_cons.mp hx
        exact .inr (.inl ⟨x, rfl, hr⟩)
    · cases x with
      | nil => exact .inl ⟨List.append_nil a', (List.cons_eq_cons.mp hx).2.symm⟩
      | cons c x =>
        obtain ⟨rfl, hr⟩ := List.cons_eq_cons.mp hx
        exact .inr (.inr ⟨x, rfl, hr⟩)
  · rintro (⟨rfl, rfl⟩ | ⟨x, rfl, rfl⟩ | ⟨x, rfl, rfl⟩)
    · rfl
    · rw [List.append_assoc, List.cons_append]
    · rw [List.append_assoc, List.cons_append]

theorem plain_inj (h : stop ∉ a) (h' : stop ∉ a') (heq : a ++ stop :: r = a' ++ stop :: r') :
    a = a' ∧ r = r' := by
  rcases append_stop_inj.mp heq with heq | ⟨x, rfl, -⟩ | ⟨x, rfl, -⟩
  · exact heq
  · exact absurd (List.mem_append_right a List.mem_cons_self) h'
  · exact absurd (List.mem_append_right a' List.mem_cons_self) h

/-- A field with a plain name. -/
@[ext] structure Field (stop : α) where
  name : List α
  payload : List α
  plain : stop ∉ name

def Field.spell (field : Field stop) : List α := field.name ++ stop :: (field.payload ++ [stop])

def spell (fields : List (Field stop)) : List α := fields.flatMap Field.spell

variable {fields fields' : List (Field stop)} {field field' : Field stop}

theorem spell_cons :
    spell (field :: fields) = field.name ++ stop :: (field.payload ++ stop :: spell fields) := by
  simp [spell, Field.spell]

theorem spell_append : spell (fields ++ fields') = spell fields ++ spell fields' :=
  List.flatMap_append

/-- The first fields that differ have one name, and the payload of the one goes on behind a stop
that ends the payload of the other; the fields behind that one spell the rest. -/
def Shifted (fields fields' : List (Field stop)) : Prop :=
  ∃ before field field' rest rest' x, fields = before ++ field :: rest ∧
    fields' = before ++ field' :: rest' ∧ field.name = field'.name ∧
      field'.payload = field.payload ++ stop :: x ∧ spell rest = x ++ stop :: spell rest'

theorem Shifted.spell_eq (h : Shifted fields fields') : spell fields = spell fields' := by
  obtain ⟨before, field, field', rest, rest', x, rfl, rfl, hname, hpayload, hrest⟩ := h
  rw [spell_append, spell_append, spell_cons, spell_cons, hname, hpayload, hrest,
    List.append_assoc, List.cons_append]

theorem Shifted.cons (h : Shifted fields fields') :
    Shifted (field :: fields) (field :: fields') := by
  obtain ⟨before, first, second, rest, rest', x, rfl, rfl, h⟩ := h
  exact ⟨field :: before, first, second, rest, rest', x, rfl, rfl, h⟩

theorem spell_inj_iff (hlength : fields.length = fields'.length) :
    spell fields = spell fields' ↔
      fields = fields' ∨ Shifted fields fields' ∨ Shifted fields' fields := by
  constructor
  · intro h
    induction fields generalizing fields' with
    | nil => exact .inl (List.eq_nil_of_length_eq_zero hlength.symm).symm
    | cons field fields ih =>
      obtain ⟨field', fields', rfl⟩ := List.exists_cons_of_length_eq_add_one hlength.symm
      rw [spell_cons, spell_cons] at h
      obtain ⟨hname, h⟩ := plain_inj field.plain field'.plain h
      rcases append_stop_inj.mp h with ⟨hpayload, hrest⟩ | ⟨x, hpayload, hrest⟩ |
        ⟨x, hpayload, hrest⟩
      · obtain rfl : field = field' := Field.ext hname hpayload
        rcases ih (Nat.succ.inj hlength) hrest with rfl | hshifted | hshifted
        · exact .inl rfl
        · exact .inr (.inl hshifted.cons)
        · exact .inr (.inr hshifted.cons)
      · exact .inr (.inl ⟨[], field, field', fields, fields', x, rfl, rfl, hname, hpayload, hrest⟩)
      · exact .inr (.inr
          ⟨[], field', field, fields', fields, x, rfl, rfl, hname.symm, hpayload, hrest⟩)
  · rintro (rfl | h | h)
    · rfl
    · exact h.spell_eq
    · exact h.spell_eq.symm

theorem spell_ne_behind {first : Field stop} {name : List α}
    (hnames : fields.map Field.name = fields'.map Field.name) (hfirst : first.name = name)
    (hplain : ∀ field ∈ fields, field.name = name → stop ∉ field.payload)
    (hplain' : ∀ field ∈ first :: fields', field.name = name → stop ∉ field.payload) :
    spell fields ≠ spell (first :: fields') := by
  induction fields generalizing first fields' with
  | nil =>
    intro h
    rw [spell_cons] at h
    exact absurd h.symm (List.append_ne_nil_of_right_ne_nil _ (List.cons_ne_nil _ _))
  | cons field fields ih =>
    intro h
    obtain ⟨second, fields', rfl⟩ : ∃ second rest, fields' = second :: rest :=
      List.exists_cons_of_ne_nil fun hnil ↦ by
        rw [hnil] at hnames
        cases hnames
    obtain ⟨hsecond, hnames⟩ := List.cons_eq_cons.mp hnames
    rw [spell_cons, spell_cons] at h
    obtain ⟨hname, h⟩ := plain_inj field.plain first.plain h
    have hfield : field.name = name := hname.trans hfirst
    obtain ⟨-, hrest⟩ := plain_inj (hplain field List.mem_cons_self hfield)
      (hplain' first List.mem_cons_self hfirst) h
    exact ih hnames (hsecond.symm.trans hfield)
      (fun other hother ↦ hplain other (List.mem_cons_of_mem _ hother))
      (fun other hother ↦ hplain' other (List.mem_cons_of_mem _ hother)) hrest

end Terminated

import StealthHub.Manager.App

set_option autoImplicit false

namespace StealthHub.Manager

open Text

variable {app app' : App} {form form' : Form} {action : Action} {values : List String}
  {snapshot : Snapshot} {code : KeyCode} {key : KeyEvent} {intent : Intent} {n : ℕ}

/-- A screen of the manager offers the action for what is known of the node. -/
def Offered (snapshot : Snapshot) (action : Action) : Prop :=
  ∃ screen ∈ SCREENS, action ∈ actions screen snapshot

def Action.skeleton (action : Action) : Action :=
  { action with fields := action.fields.map fun field ↦ { field with choices := [] } }

theorem actions_skeleton (screen : String) (snapshot snapshot' : Snapshot) :
    (actions screen snapshot).map Action.skeleton =
      (actions screen snapshot').map Action.skeleton := by
  unfold actions
  split <;> rfl

theorem Offered.skeleton (h : Offered snapshot action) :
    ∃ action', Offered .initial action' ∧ action'.skeleton = action.skeleton := by
  obtain ⟨screen, hscreen, haction⟩ := h
  have hmem := List.mem_map_of_mem (f := Action.skeleton) haction
  rw [actions_skeleton screen snapshot .initial, List.mem_map] at hmem
  obtain ⟨action', haction', heq⟩ := hmem
  exact ⟨action', ⟨screen, hscreen, haction'⟩, heq⟩

/-- The secret of an operation, its reference and its address have their fields. -/
structure WellFormed (action : Action) : Prop where
  reference : startsWith action.verb "secret-" = true → action.fields ≠ []
  hostname : action.verb = "https-setup" → 2 ≤ action.fields.length
  secret : (action.fields.map (·.secret)).count true ≤ 1

instance (action : Action) : Decidable (WellFormed action) :=
  decidable_of_iff ((startsWith action.verb "secret-" = true → action.fields ≠ []) ∧
      (action.verb = "https-setup" → 2 ≤ action.fields.length) ∧
      (action.fields.map (·.secret)).count true ≤ 1)
    ⟨fun h ↦ ⟨h.1, h.2.1, h.2.2⟩, fun h ↦ ⟨h.reference, h.hostname, h.secret⟩⟩

theorem WellFormed.of_skeleton (h : WellFormed action.skeleton) : WellFormed action where
  reference hverb hempty := h.reference hverb (by simp [Action.skeleton, hempty])
  hostname hverb := by simpa [Action.skeleton] using h.hostname hverb
  secret := by simpa [Action.skeleton, Function.comp_def] using h.secret

theorem WellFormed.skeleton (h : WellFormed action) : WellFormed action.skeleton where
  reference hverb hempty := h.reference hverb (by simpa [Action.skeleton] using hempty)
  hostname hverb := by simpa [Action.skeleton] using h.hostname hverb
  secret := by simpa [Action.skeleton, Function.comp_def] using h.secret

theorem initial_wellFormed :
    ∀ screen ∈ SCREENS, ∀ action ∈ actions screen .initial, WellFormed action := by
  decide

theorem Offered.wellFormed (h : Offered snapshot action) : WellFormed action := by
  obtain ⟨action', ⟨screen, hscreen, haction'⟩, heq⟩ := h.skeleton
  refine .of_skeleton ?_
  rw [← heq]
  exact (initial_wellFormed screen hscreen action' haction').skeleton

/-- What a form has passed when it is accepted. -/
structure Validated (action : Action) (values : List String) : Prop where
  count : values.length = action.fields.length
  value : ∀ entry ∈ values.zip action.fields, checkValue entry.1 entry.2 = .ok ()
  module : checkModule action values = .ok ()
  secret : checkSecret action values = .ok ()

theorem validate_eq_ok : validate action values = .ok () ↔ Validated action values := by
  unfold validate
  rw [Except.guard_eq_ok, not_not, Except.bind_eq_ok]
  constructor
  · rintro ⟨hcount, _, hvalue, h⟩
    obtain ⟨_, hmodule, hsecret⟩ := Except.bind_eq_ok.mp h
    exact ⟨hcount, Except.forM_eq_ok.mp hvalue, hmodule, hsecret⟩
  · intro h
    exact ⟨h.count, (), Except.forM_eq_ok.mpr h.value,
      Except.bind_eq_ok.mpr ⟨(), h.module, h.secret⟩⟩

theorem checkValue_ne_panicked (value : String) (field : Field) :
    checkValue value field ≠ .error .panicked := by
  unfold checkValue
  split_ifs <;> simp

theorem checkModule_ne_panicked (action : Action) (values : List String) :
    checkModule action values ≠ .error .panicked := by
  unfold checkModule
  split_ifs <;> simp

theorem checkSecret_ne_panicked (h : WellFormed action)
    (hcount : values.length = action.fields.length) :
    checkSecret action values ≠ .error .panicked := by
  unfold checkSecret
  split_ifs with hverb
  · cases values with
    | nil =>
      have hfields := h.reference hverb
      rw [List.length_nil, eq_comm, List.length_eq_zero_iff] at hcount
      exact absurd hcount hfields
    | cons value rest =>
      dsimp only
      split_ifs <;> simp
  · simp

theorem validate_ne_panicked (h : WellFormed action) : validate action values ≠ .error .panicked := by
  unfold validate
  by_cases hcount : values.length ≠ action.fields.length
  · rw [if_pos hcount]
    intro hpanic
    cases hpanic
  · rw [if_neg hcount]
    refine Except.bind_ne_error (Except.forM_ne_error fun entry _ ↦ checkValue_ne_panicked _ _)
      fun _ _ ↦ Except.bind_ne_error (checkModule_ne_panicked action values) fun _ _ ↦ ?_
    exact checkSecret_ne_panicked h (not_not.mp hcount)

structure Form.Fits (form : Form) : Prop where
  count : form.values.length = form.action.fields.length
  field : form.field ≤ form.values.length

/-- An edit leaves the action as it is and makes the confirmation `n` characters longer at most. -/
structure Form.Edited (form form' : Form) (n : ℕ) : Prop where
  action : form'.action = form.action
  fits : form'.Fits
  confirmation : form'.confirmation.length ≤ form.confirmation.length + n

theorem Form.Fits.edited (h : form.Fits) (n : ℕ) : form.Edited form n :=
  ⟨rfl, h, Nat.le_add_right _ _⟩

theorem Form.Fits.move (h : form.Fits) {field : ℕ} (hfield : field ≤ form.values.length) (n : ℕ) :
    form.Edited { form with field := field } n :=
  ⟨rfl, ⟨h.count, hfield⟩, Nat.le_add_right _ _⟩

theorem Form.Fits.set (h : form.Fits) (index : ℕ) (value : String) (n : ℕ) :
    form.Edited { form with values := form.values.set index value } n := by
  refine ⟨rfl, ⟨?_, ?_⟩, Nat.le_add_right _ _⟩
  · simpa using h.count
  · simpa using h.field

theorem Form.Fits.value (h : form.Fits) (hlt : form.field < form.values.length) :
    ∃ value field, form.values[form.field]? = some value ∧
      form.action.fields[form.field]? = some field :=
  ⟨_, _, List.getElem?_eq_getElem hlt, List.getElem?_eq_getElem (h.count ▸ hlt)⟩

theorem Form.Fits.choose (h : form.Fits) (forward : Bool) :
    ∃ form', form.choose forward = some form' ∧ form.Edited form' 0 := by
  unfold Form.choose
  by_cases hlt : form.field < form.values.length
  · obtain ⟨value, field, hvalue, hfield⟩ := h.value hlt
    rw [if_pos hlt, hfield, Option.bind_eq_bind, Option.bind_some]
    by_cases hempty : field.choices.isEmpty
    · rw [if_pos hempty]
      exact ⟨form, rfl, h.edited 0⟩
    · have hpos : 0 < field.choices.length := by
        rw [List.length_pos_iff, ne_eq, ← List.isEmpty_iff]
        exact hempty
      rw [if_neg hempty, hvalue, Option.bind_eq_bind, Option.bind_some]
      dsimp only
      -- the index of the next choice is taken modulo their number
      have hnext (index : ℕ) : index % field.choices.length < field.choices.length :=
        Nat.mod_lt _ hpos
      cases forward
      · simp only [Bool.false_eq_true, if_false, List.getElem?_eq_getElem (hnext _)]
        exact ⟨_, rfl, h.set _ _ 0⟩
      · simp only [if_true, List.getElem?_eq_getElem (hnext _)]
        exact ⟨_, rfl, h.set _ _ 0⟩
  · rw [if_neg hlt]
    exact ⟨form, rfl, h.edited 0⟩

theorem length_pop (s : String) : (pop s).length ≤ s.length := by
  simp [pop, String.length]

theorem length_pushWithin (bound : ℕ) (s : String) (c : Char) :
    (pushWithin bound s c).length ≤ s.length + 1 := by
  unfold pushWithin
  split_ifs
  · simp
  · exact Nat.le_succ _

theorem Form.Fits.erase (h : form.Fits) : ∃ form', form.erase = some form' ∧ form.Edited form' 0 := by
  unfold Form.erase
  by_cases hlt : form.field < form.values.length
  · obtain ⟨value, field, hvalue, hfield⟩ := h.value hlt
    rw [if_pos hlt, hvalue, Option.bind_eq_bind, Option.bind_some]
    exact ⟨_, rfl, h.set _ _ 0⟩
  · rw [if_neg hlt]
    exact ⟨_, rfl, rfl, ⟨h.count, h.field⟩, length_pop _⟩

theorem Form.Fits.insert (h : form.Fits) (c : Char) :
    ∃ form', form.insert c = some form' ∧ form.Edited form' 1 := by
  unfold Form.insert
  by_cases hlt : form.field < form.values.length
  · obtain ⟨value, field, hvalue, hfield⟩ := h.value hlt
    rw [if_pos hlt, hvalue, Option.bind_eq_bind, Option.bind_some, hfield, Option.bind_eq_bind,
      Option.bind_some]
    exact ⟨_, rfl, h.set _ _ 1⟩
  · rw [if_neg hlt]
    exact ⟨_, rfl, rfl, ⟨h.count, h.field⟩, length_pushWithin _ _ _⟩

theorem Form.opened_fits (action : Action) : (Form.opened action).Fits :=
  ⟨by simp [Form.opened], Nat.zero_le _⟩

/-- No index of the screens is behind its list, and a form is one that the node as it is shown
offers, open while nothing runs. -/
structure App.Sound (app : App) : Prop where
  screen : app.screen < SCREENS.length
  focus : app.focus < 3
  scroll : app.scroll ≤ maxScroll
  fits : ∀ form ∈ app.form, form.Fits
  offered : ∀ form ∈ app.form, Offered app.snapshot form.action
  idle : ∀ form ∈ app.form, app.busy = false
  modal : ∀ form ∈ app.form, app.help = false

/-- The characters a key can add to the confirmation. -/
def KeyCode.typed : KeyCode → ℕ
  | char _ => 1
  | _ => 0

/-- What a key can do to the screens, and what the loop is asked for. -/
inductive App.Responds (app : App) (code : KeyCode) : App → Intent → Prop
  | quits : Responds app code app .quit
  | moves (app' : App) (hclosed : app.form = none) (hform : app'.form = none)
      (hsnapshot : app'.snapshot = app.snapshot) (hbusy : app'.busy = app.busy) :
      Responds app code app' .none
  | opens (action : Action) (hclosed : app.form = none) (hidle : app.busy = false)
      (hoffered : Offered app.snapshot action) :
      Responds app code { app with form := some (.opened action) } .none
  | refreshes (hclosed : app.form = none) (hidle : app.busy = false) :
      Responds app code { app with busy := true } .refresh
  | closes (form : Form) (hform : app.form = some form) :
      Responds app code { app with form := none } .none
  | edits (form form' : Form) (hform : app.form = some form)
      (hedited : form.Edited form' code.typed) :
      Responds app code { app with form := some form' } .none
  | starts (form : Form) (hform : app.form = some form)
      (hvalid : Validated form.action form.values)
      (hconfirmed : ∀ expected ∈ form.action.confirmation, form.confirmation = expected) :
      Responds app code { app with form := none, busy := true, output := operationRunning }
        (.execute form.action form.values)

theorem App.Sound.screenName (h : app.Sound) :
    ∃ screen ∈ SCREENS, app.screenName = some screen :=
  ⟨_, List.getElem_mem h.screen, List.getElem?_eq_getElem h.screen⟩

theorem App.Sound.of_closed (hform : app.form = none) (hscreen : app.screen < SCREENS.length)
    (hfocus : app.focus < 3) (hscroll : app.scroll ≤ maxScroll) : app.Sound where
  screen := hscreen
  focus := hfocus
  scroll := hscroll
  fits form hmem := by rw [hform] at hmem; cases hmem
  offered form hmem := by rw [hform] at hmem; cases hmem
  idle form hmem := by rw [hform] at hmem; cases hmem
  modal form hmem := by rw [hform] at hmem; cases hmem

theorem App.Sound.edit (h : app.Sound) (hform : app.form = some form)
    (hedited : form.Edited form' n) : App.Sound { app with form := some form' } where
  screen := h.screen
  focus := h.focus
  scroll := h.scroll
  fits _ hmem := Option.some.inj hmem ▸ hedited.fits
  offered _ hmem := by
    rw [← Option.some.inj hmem, hedited.action]
    exact h.offered form hform
  idle _ _ := h.idle form hform
  modal _ _ := h.modal form hform

/-- What is claimed of a key: it has a result, and the result is one of those above. -/
def App.Answers (app : App) (code : KeyCode) (result : Option (App × Intent)) : Prop :=
  ∃ app' intent, result = some (app', intent) ∧ app.Responds code app' intent ∧ app'.Sound

theorem App.Sound.answers_edit (h : app.Sound) (hform : app.form = some form)
    (hedited : form.Edited form' code.typed) : app.Answers code (app.edit (some form')) :=
  ⟨_, _, rfl, .edits form form' hform hedited, h.edit hform hedited⟩

theorem App.Sound.answers_submit (h : app.Sound) (hform : app.form = some form) :
    app.Answers code (app.submit form) := by
  have hwell := (h.offered form hform).wellFormed
  unfold App.submit
  cases hvalid : validate form.action form.values with
  | error fault =>
    cases fault with
    | panicked => exact absurd hvalid (validate_ne_panicked hwell)
    | refused message =>
      exact h.answers_edit hform ⟨rfl, ⟨(h.fits form hform).count, (h.fits form hform).field⟩,
        Nat.le_add_right _ _⟩
  | ok _ =>
    dsimp only
    split_ifs with hconfirmation
    · exact h.answers_edit hform ⟨rfl, ⟨(h.fits form hform).count, (h.fits form hform).field⟩,
        Nat.le_add_right _ _⟩
    · refine ⟨_, _, rfl, .starts form hform (validate_eq_ok.mp hvalid) fun expected hmem ↦ ?_,
        .of_closed rfl h.screen h.focus h.scroll⟩
      rw [Option.mem_def.mp hmem] at hconfirmation
      simpa using hconfirmation

theorem App.Sound.answers_formKey (h : app.Sound) (hform : app.form = some form)
    (code : KeyCode) : app.Answers code (app.formKey form code) := by
  have hfits := h.fits form hform
  have hmod (n : ℕ) : n % (form.values.length + 1) ≤ form.values.length :=
    Nat.lt_succ_iff.mp (Nat.mod_lt _ (Nat.succ_pos _))
  have hstay : app.Answers code (some (app, .none)) := by
    refine ⟨app, .none, rfl, ?_, h⟩
    have hedits := @App.Responds.edits app code form form hform (hfits.edited _)
    rwa [← hform] at hedits
  cases code with
  | esc =>
    exact ⟨_, _, rfl, .closes form hform, .of_closed rfl h.screen h.focus h.scroll⟩
  | tab => exact h.answers_edit hform (hfits.move (hmod _) _)
  | down => exact h.answers_edit hform (hfits.move (hmod _) _)
  | backTab => exact h.answers_edit hform (hfits.move (hmod _) _)
  | up => exact h.answers_edit hform (hfits.move (hmod _) _)
  | left =>
    obtain ⟨form', hchosen, hedited⟩ := hfits.choose false
    change app.Answers _ (app.edit (form.choose false))
    rw [hchosen]
    exact h.answers_edit hform hedited
  | right =>
    obtain ⟨form', hchosen, hedited⟩ := hfits.choose true
    change app.Answers _ (app.edit (form.choose true))
    rw [hchosen]
    exact h.answers_edit hform hedited
  | backspace =>
    obtain ⟨form', herased, hedited⟩ := hfits.erase
    change app.Answers _ (app.edit form.erase)
    rw [herased]
    exact h.answers_edit hform hedited
  | char c =>
    change app.Answers _ (if isControl c then some (app, .none) else app.edit (form.insert c))
    split_ifs
    · exact hstay
    · obtain ⟨form', heq, hedited⟩ := hfits.insert c
      rw [heq]
      exact h.answers_edit hform hedited
  | enter =>
    change app.Answers _ (if form.field < form.values.length then
      app.edit (some { form with field := form.field + 1 }) else app.submit form)
    split_ifs with hlt
    · exact h.answers_edit hform (hfits.move hlt _)
    · exact h.answers_submit hform
  | pageUp => exact hstay
  | pageDown => exact hstay
  | home => exact hstay
  | finish => exact hstay
  | other => exact hstay

theorem App.Sound.answers_move (hclosed : app.form = none) (hform : app'.form = none)
    (hsnapshot : app'.snapshot = app.snapshot) (hbusy : app'.busy = app.busy)
    (hscreen : app'.screen < SCREENS.length) (hfocus : app'.focus < 3)
    (hscroll : app'.scroll ≤ maxScroll) : app.Answers code (some (app', .none)) :=
  ⟨app', .none, rfl, .moves app' hclosed hform hsnapshot hbusy,
    .of_closed hform hscreen hfocus hscroll⟩

theorem App.Sound.answers_openForm (h : app.Sound) (hclosed : app.form = none)
    (hidle : app.busy = false) (hmodal : app.help = false) :
    app.Answers code (app.openForm.map (·, .none)) := by
  obtain ⟨screen, hscreen, hname⟩ := h.screenName
  simp only [App.openForm, App.actions, hname, Option.map_some, Option.bind_eq_bind,
    Option.bind_some, Option.pure_def]
  cases haction : (Manager.actions screen app.snapshot)[app.selected]? with
  | none =>
    dsimp only [Option.elim]
    exact answers_move hclosed hclosed rfl rfl h.screen h.focus h.scroll
  | some action =>
    have hoffered : Offered app.snapshot action :=
      ⟨screen, hscreen, List.mem_of_getElem? haction⟩
    refine ⟨_, _, rfl, .opens action hclosed hidle hoffered, h.screen, h.focus, h.scroll, ?_, ?_, ?_,
      ?_⟩
    · exact fun form hmem ↦ Option.some.inj hmem ▸ Form.opened_fits action
    · exact fun form hmem ↦ Option.some.inj hmem ▸ hoffered
    · exact fun _ _ ↦ hidle
    · exact fun _ _ ↦ hmodal

theorem App.Sound.answers_screenKey (h : app.Sound) (hclosed : app.form = none)
    (hmodal : app.help = false) (code : KeyCode) : app.Answers code (app.screenKey code) := by
  obtain ⟨screen, hscreen, hname⟩ := h.screenName
  have hstay : app.Answers code (some (app, .none)) :=
    answers_move hclosed hclosed rfl rfl h.screen h.focus h.scroll
  have hfocus (n : ℕ) : n % 3 < 3 := Nat.mod_lt _ (by decide)
  have hselect (forward : Bool) : app.Answers code ((app.selectItem forward).map (·, .none)) := by
    simp only [App.selectItem, hname, Option.bind_eq_bind, Option.bind_some, Option.pure_def]
    split_ifs <;> exact answers_move hclosed hclosed rfl rfl h.screen h.focus h.scroll
  have hprevious : app.Answers code (some (app.previous, .none)) := by
    unfold App.previous
    split_ifs
    · exact answers_move hclosed hclosed rfl rfl (by have := h.screen; dsimp only; omega) h.focus
        (Nat.zero_le _)
    · exact answers_move hclosed hclosed rfl rfl h.screen h.focus h.scroll
    · exact answers_move hclosed hclosed rfl rfl h.screen h.focus
        (by have := h.scroll; dsimp only; omega)
  have hfollowing : app.Answers code (app.following.map (·, .none)) := by
    simp only [App.following, App.actions, hname, Option.map_some, Option.bind_eq_bind,
      Option.bind_some, Option.pure_def]
    split_ifs
    · exact answers_move hclosed hclosed rfl rfl
        (lt_of_le_of_lt (min_le_right _ _) (by decide)) h.focus (Nat.zero_le _)
    · exact answers_move hclosed hclosed rfl rfl h.screen h.focus h.scroll
    · exact answers_move hclosed hclosed rfl rfl h.screen h.focus (min_le_right _ _)
  unfold App.screenKey
  split
  · exact ⟨app, .quit, rfl, .quits, h⟩
  · exact answers_move hclosed hclosed rfl rfl h.screen h.focus h.scroll
  · split_ifs with hbusy
    · exact hstay
    · exact ⟨_, _, rfl, .refreshes hclosed (eq_false_of_ne_true hbusy),
        .of_closed hclosed h.screen h.focus h.scroll⟩
  · split_ifs with hbusy
    · exact hstay
    · exact ⟨_, _, rfl, .refreshes hclosed (eq_false_of_ne_true hbusy),
        .of_closed hclosed h.screen h.focus h.scroll⟩
  · exact answers_move hclosed hclosed rfl rfl h.screen (hfocus _) h.scroll
  · exact answers_move hclosed hclosed rfl rfl h.screen (hfocus _) h.scroll
  · exact answers_move hclosed hclosed rfl rfl h.screen (hfocus 0) h.scroll
  · exact hselect false
  · exact hselect true
  · exact hprevious
  · exact hprevious
  · exact hfollowing
  · exact hfollowing
  · exact answers_move hclosed hclosed rfl rfl h.screen h.focus (min_le_right _ _)
  · exact answers_move hclosed hclosed rfl rfl h.screen h.focus
      (le_trans (Nat.sub_le _ _) h.scroll)
  · exact answers_move hclosed hclosed rfl rfl h.screen h.focus (Nat.zero_le _)
  · simp only [App.scrollToEnd, App.content, hname, Option.map_some, Option.bind_eq_bind,
      Option.bind_some, Option.pure_def]
    exact answers_move hclosed hclosed rfl rfl h.screen h.focus (min_le_right _ _)
  · split_ifs with hfirst hopen
    · exact answers_move hclosed hclosed rfl rfl h.screen (hfocus 1) h.scroll
    · simp only [Bool.and_eq_true, Bool.not_eq_true'] at hopen
      exact h.answers_openForm hclosed hopen.1 hmodal
    · exact hstay
  · exact hstay

theorem App.Sound.answers (h : app.Sound) (key : KeyEvent) : app.Answers key.code (app.key key) := by
  unfold App.key
  split_ifs with hquit hhelp
  · exact ⟨app, .quit, rfl, .quits, h⟩
  · have hclosed : app.form = none := by
      rw [Option.eq_none_iff_forall_not_mem]
      intro form hform
      rw [h.modal form hform] at hhelp
      cases hhelp
    exact answers_move hclosed hclosed rfl rfl h.screen h.focus h.scroll
  · cases hform : app.form with
    | none => exact h.answers_screenKey hform (eq_false_of_ne_true hhelp) key.code
    | some form => exact h.answers_formKey hform key.code

end StealthHub.Manager

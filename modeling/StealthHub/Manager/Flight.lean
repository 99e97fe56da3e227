import Mathlib.Data.List.Induction
import StealthHub.Manager.Loop

set_option autoImplicit false

namespace StealthHub.Manager

variable {app app' : App} {form form' : Form} {action : Action} {values : List String}
  {snapshot : Snapshot} {node node' : Node} {intent : Intent} {steps : List Step}
  {id : ℕ} {task : Task} {completion : Completion}

def Task.Shown (snapshot : Snapshot) : Task → Prop
  | collect => True
  | operation action values => Offered snapshot action ∧ Validated action values

/-- The tasks that have not been heard of. -/
def Node.pending (node : Node) : ℕ := node.running.length + node.channel.length

/-- The screens are sound, what runs is known to them, and the terminal shows them. -/
structure Node.Sound (node : Node) : Prop where
  app : node.app.Sound
  single : node.pending ≤ 1
  flight : node.stopped = false → node.pending = if node.app.busy then 1 else 0
  stopped : node.stopped = true → node.running = []
  handle : ∀ entry ∈ node.running, entry.1 = node.task
  shown : ∀ entry ∈ node.running, entry.2.Shown node.app.snapshot
  drawn : node.dirty = false → node.drawn = some (node.app, node.theme)

theorem App.new_sound (guided : Bool) : (App.new guided).Sound :=
  .of_closed rfl (by cases guided <;> decide) (by decide : 0 < 3) (Nat.zero_le _)

theorem Node.start_sound (guided : Bool) (theme : ThemeKind) : (Node.start guided theme).Sound where
  app := App.new_sound guided
  single := le_rfl
  flight _ := rfl
  stopped h := by cases h
  handle entry hentry := by rw [List.mem_singleton.mp hentry]; rfl
  shown entry hentry := by rw [List.mem_singleton.mp hentry]; trivial
  drawn h := by cases h

theorem Node.Sound.closed (h : node.Sound) (hstopped : node.stopped = false)
    (hpending : node.pending ≠ 0) : node.app.form = none := by
  rw [Option.eq_none_iff_forall_not_mem]
  intro form hform
  have hflight := h.flight hstopped
  rw [h.app.idle form hform] at hflight
  exact hpending hflight

theorem App.receive_form (app : App) (completion : Completion) :
    (app.receive completion).form = app.form := by
  cases completion with
  | snapshot => rfl
  | operation label result => cases result <;> rfl

theorem App.Sound.receive (h : app.Sound) (hclosed : app.form = none) (completion : Completion) :
    (app.receive completion).Sound := by
  refine .of_closed ((app.receive_form completion).trans hclosed) ?_ ?_ ?_
  all_goals
    cases completion with
    | snapshot =>
      first | exact h.screen | exact h.focus | exact h.scroll
    | operation label result =>
      cases result <;> first | exact h.screen | exact h.focus | exact h.scroll

theorem App.receive_busy (app : App) (completion : Completion) :
    (app.receive completion).busy = false := by
  cases completion with
  | snapshot => rfl
  | operation label result => cases result <;> rfl

theorem Node.Sound.channel_cases (h : node.Sound) (hstopped : node.stopped = false) :
    node.channel = [] ∨ ∃ completion, node.channel = [completion] ∧ node.running = [] ∧
      node.app.form = none := by
  have hflight := h.flight hstopped
  unfold Node.pending at hflight
  cases hchannel : node.channel with
  | nil => exact .inl rfl
  | cons completion rest =>
    right
    have hclosed : node.app.form = none := by
      refine h.closed hstopped ?_
      rw [Node.pending, hchannel, List.length_cons]
      omega
    rw [hchannel, List.length_cons] at hflight
    have hrest : rest = [] := by
      rw [← List.length_eq_zero_iff]
      split_ifs at hflight
      omega
    have hrunning : node.running = [] := by
      rw [← List.length_eq_zero_iff]
      split_ifs at hflight
      omega
    exact ⟨completion, by rw [hrest], hrunning, hclosed⟩

theorem Node.Sound.drain (h : node.Sound) (hstopped : node.stopped = false) :
    node.drain.Sound ∧ node.drain.channel = [] := by
  refine ⟨?_, rfl⟩
  rcases h.channel_cases hstopped with hchannel | ⟨completion, hchannel, hrunning, hclosed⟩
  · have hdrain : node.drain = node := by
      simp only [Node.drain, hchannel, List.foldl_nil, List.isEmpty_nil, Bool.not_true,
        Bool.or_false]
      rw [← hchannel]
    rw [hdrain]
    exact h
  · have happ : node.drain.app = node.app.receive completion := by
      simp [Node.drain, hchannel]
    have hpending : node.drain.pending = 0 := by simp [Node.pending, Node.drain, hrunning]
    refine ⟨?_, ?_, fun _ ↦ ?_, ?_, ?_, ?_, fun hdirty ↦ ?_⟩
    · rw [happ]
      exact h.app.receive hclosed completion
    · rw [hpending]
      exact Nat.zero_le _
    · rw [happ, App.receive_busy, hpending]
      rfl
    · exact h.stopped
    · exact h.handle
    · intro entry hentry
      have hnone : entry ∈ node.running := hentry
      rw [hrunning] at hnone
      cases hnone
    · simp [Node.drain, hchannel] at hdirty

theorem Node.Sound.draw (h : node.Sound) : node.draw.Sound := by
  unfold Node.draw
  split_ifs
  · exact ⟨h.app, h.single, h.flight, h.stopped, h.handle, h.shown, fun _ ↦ rfl⟩
  · exact h

theorem Node.draw_stopped (node : Node) : node.draw.stopped = node.stopped := by
  unfold Node.draw
  split_ifs <;> rfl

theorem Node.Sound.stop (h : node.Sound) : node.stop.Sound := by
  have hrunning : node.stop.running = [] := by
    rw [Node.stop, List.filter_eq_nil_iff]
    intro entry hentry
    simpa using h.handle entry hentry
  refine ⟨h.app, ?_, (fun hstopped ↦ by cases hstopped), fun _ ↦ hrunning, fun entry hentry ↦ ?_,
    fun entry hentry ↦ ?_, h.drawn⟩
  · rw [Node.pending, hrunning, List.length_nil, Nat.zero_add]
    exact le_trans (Nat.le_add_left _ _) h.single
  · rw [hrunning] at hentry
    cases hentry
  · rw [hrunning] at hentry
    cases hentry

theorem Node.Sound.replace (h : node.Sound) (happ : app'.Sound)
    (hsnapshot : app'.snapshot = node.app.snapshot) (hbusy : app'.busy = node.app.busy) :
    Node.Sound { node with dirty := true, app := app' } where
  app := happ
  single := h.single
  flight hstopped := by
    have hflight := h.flight hstopped
    rwa [← hbusy] at hflight
  stopped := h.stopped
  handle := h.handle
  shown entry hentry := by
    dsimp only
    rw [hsnapshot]
    exact h.shown entry hentry
  drawn hdirty := by cases hdirty

theorem Node.Sound.spawn (h : node.Sound) (hstopped : node.stopped = false)
    (hidle : node.app.busy = false) (happ : app'.Sound) (hbusy : app'.busy = true)
    (hshown : task.Shown app'.snapshot) :
    (Node.spawn { node with dirty := true, app := app' } task).Sound := by
  have hpending := h.flight hstopped
  rw [hidle, if_neg Bool.false_ne_true, Node.pending, Nat.add_eq_zero_iff,
    List.length_eq_zero_iff, List.length_eq_zero_iff] at hpending
  obtain ⟨hrunning, hchannel⟩ := hpending
  have hone : (Node.spawn { node with dirty := true, app := app' } task).pending = 1 := by
    simp [Node.pending, Node.spawn, hrunning, hchannel]
  refine ⟨happ, hone.le, fun _ ↦ ?_, fun h' ↦ ?_, fun entry hentry ↦ ?_, fun entry hentry ↦ ?_,
    fun hdirty ↦ by cases hdirty⟩
  · rw [hone]
    exact (if_pos hbusy).symm
  · have hstopped' : node.stopped = true := h'
    rw [hstopped] at hstopped'
    cases hstopped'
  · simp only [Node.spawn, hrunning, List.nil_append, List.mem_singleton] at hentry
    rw [hentry]
    rfl
  · simp only [Node.spawn, hrunning, List.nil_append, List.mem_singleton] at hentry
    rw [hentry]
    exact hshown

theorem Node.Sound.key (h : node.Sound) (hstopped : node.stopped = false) (key : KeyEvent) :
    ∃ node', node.event (.key key) = some node' ∧ node'.Sound := by
  simp only [Node.event]
  split_ifs with hrelease htheme
  · exact ⟨node, rfl, h⟩
  · exact ⟨_, rfl, h.app, h.single, h.flight, h.stopped, h.handle, h.shown,
      fun hdirty ↦ by cases hdirty⟩
  · obtain ⟨app', intent, heq, hresponds, happ⟩ := h.app.answers key
    rw [heq]
    refine ⟨_, rfl, ?_⟩
    dsimp only
    cases hresponds with
    | quits => exact (h.replace h.app rfl rfl).stop
    | moves _ _ _ hsnapshot hbusy => exact h.replace happ hsnapshot hbusy
    | opens => exact h.replace happ rfl rfl
    | refreshes _ hidle => exact h.spawn hstopped hidle happ rfl trivial
    | closes => exact h.replace happ rfl rfl
    | edits => exact h.replace happ rfl rfl
    | starts form hform hvalid =>
      exact h.spawn hstopped (h.app.idle form hform) happ rfl ⟨h.app.offered form hform, hvalid⟩

theorem Node.Sound.event (h : node.Sound) (hstopped : node.stopped = false) (event : Event) :
    ∃ node', node.event event = some node' ∧ node'.Sound := by
  cases event with
  | key key => exact h.key hstopped key
  | resize =>
    exact ⟨_, rfl, h.app, h.single, h.flight, h.stopped, h.handle, h.shown,
      fun hdirty ↦ by cases hdirty⟩
  | other => exact ⟨node, rfl, h⟩

theorem Node.Sound.send (h : node.Sound) (id : ℕ) (completes : Task → Option Completion) :
    (node.send id completes).Sound := by
  unfold Node.send
  cases hfound : (node.running.find? (·.1 = id)).bind fun entry ↦ completes entry.2 with
  | none => exact h
  | some completion =>
    dsimp only
    split_ifs with hroom
    · obtain ⟨entry, hentry, hcompletes⟩ := Option.bind_eq_some_iff.mp hfound
      have hmem : entry ∈ node.running := List.mem_of_find?_eq_some hentry
      have hid : entry.1 = id := by simpa using List.find?_some hentry
      -- the one task that runs is the one that sends
      have hone : node.running.length = 1 ∧ node.channel.length = 0 := by
        have hpos := List.length_pos_of_mem hmem
        have hsingle := h.single
        unfold Node.pending at hsingle
        omega
      obtain ⟨hlength, hchannel⟩ := hone
      have hpending : node.pending = 1 := by rw [Node.pending, hlength, hchannel]
      obtain ⟨only, honly⟩ := List.length_eq_one_iff.mp hlength
      have hkept : (node.running.filter (·.1 ≠ id)).length +
          (node.channel ++ [completion]).length = 1 := by
        rw [honly, List.mem_singleton] at hmem
        simp [honly, ← hmem, hid, hchannel]
      refine ⟨h.app, hkept.le, fun hstopped ↦ ?_, fun hstopped ↦ ?_, fun other hother ↦ ?_,
        fun other hother ↦ ?_, h.drawn⟩
      · exact hkept.trans (hpending.symm.trans (h.flight hstopped))
      · rw [h.stopped hstopped] at hmem
        cases hmem
      · exact h.handle other (List.mem_of_mem_filter hother)
      · exact h.shown other (List.mem_of_mem_filter hother)
    · exact h

theorem Node.Sound.step (h : node.Sound) (step : Step) :
    ∃ node', node.step step = some node' ∧ node'.Sound := by
  cases step with
  | turn signal event =>
    simp only [Node.step]
    split_ifs with hstopped hsignal
    · exact ⟨node, rfl, h⟩
    · exact ⟨node.stop, rfl, h.stop⟩
    · rw [Bool.not_eq_true] at hstopped
      have hdrawn := (h.drain hstopped).1.draw
      cases event with
      | none => exact ⟨_, rfl, hdrawn⟩
      | some event =>
        exact hdrawn.event ((Node.draw_stopped _).trans hstopped) event
  | collected id snapshot => exact ⟨_, rfl, h.send id _⟩
  | exited id result => exact ⟨_, rfl, h.send id _⟩

theorem Node.Sound.run (h : node.Sound) (steps : List Step) :
    ∃ node', node.run steps = some node' ∧ node'.Sound := by
  induction steps generalizing node with
  | nil => exact ⟨node, rfl, h⟩
  | cons step steps ih =>
    obtain ⟨node', hstep, hsound⟩ := h.step step
    simp only [Node.run, hstep, Option.bind_some]
    exact ih hsound

/-- No key stops the program, one task is pending at most, and when the loop has ended no helper is
left that runs. -/
theorem one_task_pending (guided : Bool) (theme : ThemeKind) (steps : List Step) :
    ∃ node, (Node.start guided theme).run steps = some node ∧ node.pending ≤ 1 ∧
      (node.stopped = false → (node.app.busy = true ↔ node.pending = 1)) ∧
      (node.stopped = true → node.running = []) := by
  obtain ⟨node, hrun, hsound⟩ := (Node.start_sound guided theme).run steps
  refine ⟨node, hrun, hsound.single, fun hstopped ↦ ?_, hsound.stopped⟩
  rw [hsound.flight hstopped]
  split_ifs with hbusy
  · exact iff_of_true hbusy rfl
  · exact iff_of_false hbusy not_false

/-- What runs is what the operator was shown: while an operation runs, the screens still show the
observations it was chosen from, and its values are those they accept. -/
theorem running_shown (guided : Bool) (theme : ThemeKind) (steps : List Step) :
    ∃ node, (Node.start guided theme).run steps = some node ∧
      ∀ id action values, (id, Task.operation action values) ∈ node.running →
        Offered node.app.snapshot action ∧ validate action values = .ok () ∧
          node.app.form = none := by
  obtain ⟨node, hrun, hsound⟩ := (Node.start_sound guided theme).run steps
  refine ⟨node, hrun, fun id action values hmem ↦ ?_⟩
  obtain ⟨hoffered, hvalid⟩ := hsound.shown _ hmem
  refine ⟨hoffered, validate_eq_ok.mpr hvalid, hsound.closed ?_ ?_⟩
  · rw [← Bool.not_eq_true]
    intro hstopped
    rw [hsound.stopped hstopped] at hmem
    cases hmem
  · have hpos := List.length_pos_of_mem hmem
    unfold Node.pending
    omega

/-- The characters that a step can add to a confirmation. -/
def Step.typed : Step → ℕ
  | turn _ (some (.key key)) => if key.release then 0 else key.code.typed
  | _ => 0

theorem Node.run_append (node : Node) (steps : List Step) (step : Step) :
    node.run (steps ++ [step]) = (node.run steps).bind (·.step step) := by
  induction steps generalizing node with
  | nil => simp [Node.run]
  | cons first steps ih =>
    simp only [List.cons_append, Node.run]
    cases node.step first with
    | none => rfl
    | some next => exact ih next

theorem foldl_receive_form (channel : List Completion) (app : App) :
    (channel.foldl App.receive app).form = app.form := by
  induction channel generalizing app with
  | nil => rfl
  | cons completion channel ih => exact (ih _).trans (app.receive_form completion)

theorem Node.draw_app (node : Node) : node.draw.app = node.app := by
  unfold Node.draw
  split_ifs <;> rfl

theorem Node.draw_running (node : Node) : node.draw.running = node.running := by
  unfold Node.draw
  split_ifs <;> rfl

theorem Node.drain_draw_form (node : Node) : node.drain.draw.app.form = node.app.form := by
  rw [Node.draw_app]
  exact foldl_receive_form node.channel node.app

def Form.Continues (before : Option Form) (form : Form) (n : ℕ) : Prop :=
  form.confirmation = "" ∨ ∃ earlier, before = some earlier ∧ form.action = earlier.action ∧
    form.confirmation.length ≤ earlier.confirmation.length + n

def Confirmed (before : Option Form) (action : Action) : Prop :=
  ∃ form, before = some form ∧ form.action = action ∧
    ∀ expected ∈ action.confirmation, form.confirmation = expected

theorem App.Responds.continues {code : KeyCode} (h : app.Responds code app' intent)
    (hform : app'.form = some form) : Form.Continues app.form form code.typed := by
  cases h with
  | quits => exact .inr ⟨form, hform, rfl, Nat.le_add_right _ _⟩
  | moves _ _ hnone =>
    rw [hnone] at hform
    cases hform
  | opens action =>
    left
    rw [← Option.some.inj hform]
    rfl
  | refreshes => exact .inr ⟨form, hform, rfl, Nat.le_add_right _ _⟩
  | closes => cases hform
  | edits earlier later hearlier hedited =>
    right
    rw [← Option.some.inj hform]
    exact ⟨earlier, hearlier, hedited.action, hedited.confirmation⟩
  | starts => cases hform

theorem Node.serve_form (node : Node) (intent : Intent) :
    (node.serve intent).app.form = node.app.form := by
  cases intent <;> rfl

theorem Node.mem_serve {entry : ℕ × Task} (h : entry ∈ (node.serve intent).running) :
    entry ∈ node.running ∨ entry.2 = .collect ∧ intent = .refresh ∨
      ∃ action values, entry.2 = .operation action values ∧ intent = .execute action values := by
  cases intent with
  | none => exact .inl h
  | quit => exact .inl (List.mem_of_mem_filter h)
  | refresh =>
    refine (List.mem_append.mp h).imp_right fun hnew ↦ .inl ?_
    rw [List.mem_singleton.mp hnew]
    exact ⟨rfl, rfl⟩
  | execute action values =>
    refine (List.mem_append.mp h).imp_right fun hnew ↦ .inr ⟨action, values, ?_, rfl⟩
    rw [List.mem_singleton.mp hnew]

theorem Node.Sound.event_continues (h : node.Sound) {event : Event}
    (heq : node.event event = some node') (hform : node'.app.form = some form) :
    Form.Continues node.app.form form (Step.turn false (some event)).typed := by
  have hsame (n : ℕ) (hsome : node.app.form = some form) :
      Form.Continues node.app.form form n :=
    .inr ⟨form, hsome, rfl, Nat.le_add_right _ _⟩
  cases event with
  | resize =>
    rw [Node.event, Option.some.injEq] at heq
    exact hsame _ (by rw [← hform, ← heq])
  | other =>
    rw [Node.event, Option.some.injEq] at heq
    exact hsame _ (by rw [← hform, ← heq])
  | key key =>
    simp only [Node.event] at heq
    split_ifs at heq with hrelease htheme
    · exact hsame _ (by rw [← hform, ← Option.some.inj heq])
    · exact hsame _ (by rw [← hform, ← Option.some.inj heq])
    · rw [Step.typed, if_neg hrelease]
      obtain ⟨app', intent, hkey, hresponds, -⟩ := h.app.answers key
      rw [hkey, Option.map_some, Option.some.injEq] at heq
      refine hresponds.continues ?_
      rw [← hform, ← heq]
      exact (Node.serve_form { node with dirty := true, app := app' } intent).symm

theorem Node.Sound.event_confirmed (h : node.Sound) {event : Event}
    (heq : node.event event = some node') (hnew : (id, .operation action values) ∈ node'.running)
    (hold : (id, .operation action values) ∉ node.running) : Confirmed node.app.form action := by
  cases event with
  | resize =>
    rw [Node.event, Option.some.injEq] at heq
    rw [← heq] at hnew
    exact absurd hnew hold
  | other =>
    rw [Node.event, Option.some.injEq] at heq
    rw [← heq] at hnew
    exact absurd hnew hold
  | key key =>
    simp only [Node.event] at heq
    split_ifs at heq with hrelease htheme
    · rw [← Option.some.inj heq] at hnew
      exact absurd hnew hold
    · rw [← Option.some.inj heq] at hnew
      exact absurd hnew hold
    · obtain ⟨app', intent, hkey, hresponds, -⟩ := h.app.answers key
      rw [hkey, Option.map_some, Option.some.injEq] at heq
      rw [← heq] at hnew
      rcases Node.mem_serve hnew with hmem | ⟨htask, -⟩ | ⟨action', values', htask, hintent⟩
      · exact absurd hmem hold
      · cases htask
      · injection htask with haction hvalues
        have hexecute : intent = .execute action' values' := hintent
        rw [hexecute] at hresponds
        cases hresponds with
        | starts form hform hvalid hconfirmed =>
          exact ⟨form, hform, haction.symm, fun expected hexpected ↦
            hconfirmed expected (haction ▸ hexpected)⟩

theorem Node.send_form (node : Node) (id : ℕ) (completes : Task → Option Completion) :
    (node.send id completes).app.form = node.app.form := by
  unfold Node.send
  split
  · rfl
  · split_ifs <;> rfl

theorem Node.send_running (node : Node) (id : ℕ) (completes : Task → Option Completion)
    {entry : ℕ × Task} (h : entry ∈ (node.send id completes).running) : entry ∈ node.running := by
  unfold Node.send at h
  split at h
  · exact h
  · split_ifs at h
    · exact List.mem_of_mem_filter h
    · exact h

theorem Node.Sound.step_continues (h : node.Sound) {step : Step} (heq : node.step step = some node')
    (hform : node'.app.form = some form) : Form.Continues node.app.form form step.typed := by
  have hsame (n : ℕ) (hsome : node.app.form = some form) :
      Form.Continues node.app.form form n :=
    .inr ⟨form, hsome, rfl, Nat.le_add_right _ _⟩
  cases step with
  | turn signal event =>
    simp only [Node.step] at heq
    split_ifs at heq with hstopped hsignal
    · exact hsame _ (by rw [← hform, ← Option.some.inj heq])
    · exact hsame _ (by rw [← hform, ← Option.some.inj heq]; rfl)
    · rw [Bool.not_eq_true] at hstopped
      cases event with
      | none =>
        refine hsame _ ?_
        rw [← hform, ← Option.some.inj heq]
        exact node.drain_draw_form.symm
      | some event =>
        have hcontinues := (h.drain hstopped).1.draw.event_continues heq hform
        rw [Node.drain_draw_form] at hcontinues
        cases event <;> exact hcontinues
  | collected id snapshot =>
    refine hsame _ ?_
    rw [← hform, ← Option.some.inj heq]
    exact (node.send_form id _).symm
  | exited id result =>
    refine hsame _ ?_
    rw [← hform, ← Option.some.inj heq]
    exact (node.send_form id _).symm

theorem Node.Sound.step_confirmed (h : node.Sound) {step : Step} (heq : node.step step = some node')
    (hnew : (id, .operation action values) ∈ node'.running)
    (hold : (id, .operation action values) ∉ node.running) : Confirmed node.app.form action := by
  cases step with
  | turn signal event =>
    simp only [Node.step] at heq
    split_ifs at heq with hstopped hsignal
    · rw [← Option.some.inj heq] at hnew
      exact absurd hnew hold
    · rw [← Option.some.inj heq] at hnew
      exact absurd (List.mem_of_mem_filter hnew) hold
    · rw [Bool.not_eq_true] at hstopped
      have hrunning : node.drain.draw.running = node.running := Node.draw_running _
      cases event with
      | none =>
        rw [← Option.some.inj heq, hrunning] at hnew
        exact absurd hnew hold
      | some event =>
        rw [← hrunning] at hold
        have hconfirmed := (h.drain hstopped).1.draw.event_confirmed heq hnew hold
        rwa [Node.drain_draw_form] at hconfirmed
  | collected other snapshot =>
    rw [← Option.some.inj heq] at hnew
    exact absurd (node.send_running other _ hnew) hold
  | exited other result =>
    rw [← Option.some.inj heq] at hnew
    exact absurd (node.send_running other _ hnew) hold

/-- While these steps were taken, after those, a form for the action was open. -/
def OpenDuring (start : Node) (before during : List Step) (action : Action) : Prop :=
  ∀ earlier later, during = earlier ++ later → ∃ node form,
    start.run (before ++ earlier) = some node ∧ node.app.form = some form ∧ form.action = action

theorem typed_since_opened (guided : Bool) (theme : ThemeKind) (steps : List Step)
    (hrun : (Node.start guided theme).run steps = some node) (hform : node.app.form = some form) :
    ∃ before during, steps = before ++ during ∧
      OpenDuring (Node.start guided theme) before during form.action ∧
      form.confirmation.length ≤ (during.map Step.typed).sum := by
  induction steps using List.reverseRecOn generalizing node form with
  | nil =>
    rw [Node.run, Option.some.injEq] at hrun
    rw [← hrun] at hform
    cases hform
  | append_singleton steps step ih =>
    obtain ⟨earlier, hearlier, hsound⟩ := (Node.start_sound guided theme).run steps
    have hstep := hrun
    rw [Node.run_append, hearlier, Option.bind_some] at hstep
    rcases hsound.step_continues hstep hform with hempty | ⟨former, hformer, haction, hlength⟩
    · -- the form was opened by the last step
      refine ⟨steps ++ [step], [], (List.append_nil _).symm, fun first later hsplit ↦ ?_, ?_⟩
      · rw [(List.append_eq_nil_iff.mp hsplit.symm).1, List.append_nil]
        exact ⟨node, form, hrun, hform, rfl⟩
      · rw [hempty]
        exact Nat.zero_le _
    · obtain ⟨before, during, hsteps, hopen, hsum⟩ := ih hearlier hformer
      refine ⟨before, during ++ [step], ?_, fun first later hsplit ↦ ?_, ?_⟩
      · rw [hsteps, List.append_assoc]
      · rcases List.eq_nil_or_concat later with rfl | ⟨rest, last, rfl⟩
        · rw [List.append_nil] at hsplit
          rw [← hsplit, ← List.append_assoc, ← hsteps]
          exact ⟨node, form, hrun, hform, rfl⟩
        · rw [List.concat_eq_append, ← List.append_assoc] at hsplit
          obtain ⟨mid, open', hmid, hopen', haction'⟩ :=
            hopen first rest (List.append_inj_left' hsplit rfl)
          exact ⟨mid, open', hmid, hopen', haction'.trans haction.symm⟩
      · rw [List.map_append, List.sum_append]
        exact le_trans hlength (Nat.add_le_add hsum (by simp))

/-- An operation that asks for a confirmation starts only after the operator has typed it, into a
form for that operation which has been open since. -/
theorem started_typed (guided : Bool) (theme : ThemeKind) (steps : List Step) (step : Step)
    (id : ℕ) (action : Action) (values : List String) (expected : String) (node node' : Node)
    (hrun : (Node.start guided theme).run steps = some node) (hstep : node.step step = some node')
    (hnew : (id, .operation action values) ∈ node'.running)
    (hold : (id, .operation action values) ∉ node.running)
    (hexpected : action.confirmation = some expected) :
    ∃ before during, steps = before ++ during ∧
      OpenDuring (Node.start guided theme) before during action ∧
      expected.length ≤ (during.map Step.typed).sum := by
  obtain ⟨reached, hreached, hsound⟩ := (Node.start_sound guided theme).run steps
  obtain rfl : reached = node := Option.some.inj (hreached.symm.trans hrun)
  obtain ⟨form, hform, haction, hconfirmed⟩ := hsound.step_confirmed hstep hnew hold
  obtain ⟨before, during, hsteps, hopen, hsum⟩ := typed_since_opened guided theme steps hrun hform
  rw [haction] at hopen
  rw [hconfirmed expected hexpected] at hsum
  exact ⟨before, during, hsteps, hopen, hsum⟩

def Step.press (code : KeyCode) : Step := .turn false (some (.key ⟨code, .none, false⟩))

def confirmingSteps : List Step :=
  [.collected 0 .initial, .turn false none, .press .enter, .press .enter] ++
    "APPLY".toList.map fun c ↦ .press (.char c)

def reconcileAction : Action := ⟨"Run reconciliation", "reconcile", [], some "APPLY", false⟩

theorem started_typed_reconcile : ∃ before during, confirmingSteps = before ++ during ∧
    OpenDuring (Node.start false .obsidianGate) before during reconcileAction ∧
    "APPLY".length ≤ (during.map Step.typed).sum :=
  started_typed false .obsidianGate confirmingSteps (.press .enter) 1 reconcileAction [] "APPLY" _ _
    rfl rfl List.mem_cons_self List.not_mem_nil rfl

/-- After a turn of the loop the terminal shows what there is. -/
theorem turn_drawn (guided : Bool) (theme : ThemeKind) (steps : List Step) :
    ∃ node, (Node.start guided theme).run (steps ++ [.turn false none]) = some node ∧
      (node.stopped = false → node.drawn = some (node.app, node.theme)) := by
  obtain ⟨node, hrun, hsound⟩ := (Node.start_sound guided theme).run steps
  obtain ⟨node', hstep, hsound'⟩ := hsound.step (.turn false none)
  refine ⟨node', ?_, fun hstopped ↦ hsound'.drawn ?_⟩
  · rw [Node.run_append, hrun, Option.bind_some, hstep]
  · simp only [Node.step, Option.elim] at hstep
    split_ifs at hstep with hended hsignal
    · rw [Option.some.inj hstep, hstopped] at hended
      cases hended
    · cases hsignal
    · rw [← Option.some.inj hstep]
      unfold Node.draw
      split_ifs with hdirty
      · rfl
      · exact eq_false_of_ne_true hdirty

end StealthHub.Manager

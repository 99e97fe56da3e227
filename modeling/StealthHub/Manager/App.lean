import StealthHub.Manager.Operation

set_option autoImplicit false

namespace StealthHub.Manager

open Text

def SCREENS : List String :=
  ["Health", "System", "Users", "Profiles", "Routing", "Runtimes", "Updates", "Logs",
    "Diagnostics", "Secrets", "HTTPS", "Deployment", "Danger"]

inductive KeyCode
  | char (c : Char)
  | tab
  | backTab
  | up
  | down
  | left
  | right
  | backspace
  | enter
  | esc
  | pageUp
  | pageDown
  | home
  | finish
  /-- A key that no screen knows. -/
  | other
deriving DecidableEq

structure KeyModifiers where
  shift : Bool
  control : Bool
  alt : Bool
  superKey : Bool
  hyperKey : Bool
  metaKey : Bool
deriving DecidableEq

def KeyModifiers.none : KeyModifiers := ⟨false, false, false, false, false, false⟩

structure KeyEvent where
  code : KeyCode
  modifiers : KeyModifiers
  release : Bool
deriving DecidableEq

structure Form where
  action : Action
  values : List String
  field : ℕ
  confirmation : String
  error : String
deriving DecidableEq

inductive Intent
  | none
  | quit
  | refresh
  | execute (action : Action) (values : List String)

structure App where
  snapshot : Snapshot
  screen : ℕ
  selected : ℕ
  focus : ℕ
  scroll : ℕ
  form : Option Form
  help : Bool
  busy : Bool
  output : String
  completedSteps : List String

def Snapshot.initial : Snapshot := ⟨.empty, [], [], [], []⟩

def App.new (guided : Bool) : App where
  snapshot := .initial
  screen := if guided then 11 else 0
  selected := 0
  focus := 0
  scroll := 0
  form := none
  help := false
  busy := true
  output := "Loading local node observations..."
  completedSteps := []

def App.screenName (app : App) : Option String := SCREENS[app.screen]?

def App.actions (app : App) : Option (List Action) :=
  app.screenName.map fun screen ↦ Manager.actions screen app.snapshot

def defaultContent (screen : String) : String :=
  match screen with
  | "HTTPS" => "Cloudflare DNS-01 / panel HTTPS\nUse a zone-scoped DNS Edit + Zone Read credential.\nThe API credential is hidden and sent through stdin.\nDNS record is DNS-only. TLS terminates at nginx.\nPorts 80/443 must be available.\nCertificate renewal uses Certbot's timer."
  | "Deployment" => "GUIDED DEPLOYMENT\nComplete steps in order; optional HTTPS/runtime steps may be skipped.\nEach action reports its own result; failed steps stay incomplete.\nRepeat runtime step for each required module.\nAt completion use HTTPS /admin/setup or an SSH tunnel.\nRetrieve the one-time setup credential locally from the root env file.\nProfiles remain disabled until explicitly configured in the web panel."
  | "Danger" => "DESTRUCTIVE OPERATIONS\nInspect the removal preview and verify your backup first.\nPanel: preserves runtimes and third-party packages.\nFull: removes the Infiproxy runtime/config footprint.\nFactory: also removes /opt/infiproxy.\nNeither mode recreates a clean operating-system image."
  | "Logs" => "Select a known service to read its bounded journal.\nOutput is limited; credential-bearing lines are redacted."
  | "Users" => "No records available. Edit through the authenticated web panel."
  | "Profiles" => "No records available. Edit through the authenticated web panel."
  | _ => "No observations available. Press R to refresh."

def selectedDetail (title : String) (items : List String) (selected : ℕ) : String :=
  (items[selected]?).elim "" fun detail ↦
    "\n\n" ++ title ++ " " ++ toString (selected + 1) ++ " / " ++ toString items.length ++
      " (Left/Right)\n" ++ detail

def App.contentOf (app : App) (screen : String) : String :=
  (app.snapshot.sections.get? screen).getD (defaultContent screen) ++
    (if screen = "Users" ∨ screen = "Profiles" then
      "\n\nRead-only view, up to 500 records. Edit through the authenticated web panel." else "") ++
    (if screen = "Deployment" ∧ app.completedSteps ≠ [] then
      "\nCompleted this session: " ++ ", ".intercalate app.completedSteps else "") ++
    (if screen = "Routing" then
      selectedDetail "SELECTED PATH" app.snapshot.routingPaths app.selected else "") ++
    (if screen = "Profiles" then
      selectedDetail "SELECTED PROFILE" app.snapshot.profileDetails app.selected else "") ++
    "\n\n" ++ app.output

def App.content (app : App) : Option String := app.screenName.map app.contentOf

/-- `u16::MAX`, the largest scroll position. -/
def maxScroll : ℕ := 65535

def Form.choose (form : Form) (forward : Bool) : Option Form := do
  if form.field < form.values.length then
    let field ← form.action.fields[form.field]?
    if field.choices.isEmpty then return form
    else
      let value ← form.values[form.field]?
      let index := (field.choices.idxOf? value).getD 0
      let count := field.choices.length
      let chosen ← field.choices[if forward then (index + 1) % count else (index + count - 1) % count]?
      return { form with values := form.values.set form.field chosen }
  else return form

def pop (s : String) : String := String.ofList s.toList.dropLast

def Form.erase (form : Form) : Option Form := do
  if form.field < form.values.length then
    let value ← form.values[form.field]?
    return { form with values := form.values.set form.field (pop value) }
  else return { form with confirmation := pop form.confirmation }

def pushWithin (bound : ℕ) (s : String) (c : Char) : String :=
  if len s + c.utf8Size ≤ bound then s.push c else s

def Form.insert (form : Form) (c : Char) : Option Form := do
  if form.field < form.values.length then
    let value ← form.values[form.field]?
    let field ← form.action.fields[form.field]?
    return { form with values := form.values.set form.field (pushWithin field.bound value c) }
  else return { form with confirmation := pushWithin 256 form.confirmation c }

def confirmationError : String := "Enter the exact confirmation text to proceed"

def operationRunning : String :=
  "Operation running. Status will be reported when the helper exits."

def App.submit (app : App) (form : Form) : Option (App × Intent) :=
  match validate form.action form.values with
  | .error .panicked => none
  | .error (.refused message) =>
    some ({ app with form := some { form with error := message } }, .none)
  | .ok _ =>
    if form.action.confirmation.any fun expected ↦ form.confirmation != expected then
      some ({ app with form := some { form with error := confirmationError } }, .none)
    else
      some ({ app with form := none, busy := true, output := operationRunning },
        .execute form.action form.values)

def App.edit (app : App) (form : Option Form) : Option (App × Intent) :=
  form.map fun form ↦ ({ app with form := some form }, .none)

def App.formKey (app : App) (form : Form) (code : KeyCode) : Option (App × Intent) :=
  let inputCount := form.values.length
  match code with
  | .esc => some ({ app with form := none }, .none)
  | .tab | .down => app.edit (some { form with field := (form.field + 1) % (inputCount + 1) })
  | .backTab | .up =>
    app.edit (some { form with field := (form.field + inputCount) % (inputCount + 1) })
  | .left => app.edit (form.choose false)
  | .right => app.edit (form.choose true)
  | .backspace => app.edit form.erase
  | .char c => if isControl c then some (app, .none) else app.edit (form.insert c)
  | .enter =>
    if form.field < inputCount then app.edit (some { form with field := form.field + 1 })
    else app.submit form
  | _ => some (app, .none)

def App.selectItem (app : App) (forward : Bool) : Option App := do
  let screen ← app.screenName
  let count := if screen = "Routing" then app.snapshot.routingPaths.length
    else app.snapshot.profileDetails.length
  if screen = "Routing" ∨ screen = "Profiles" then
    return { app with selected :=
      if forward then min (app.selected + 1) (count - 1) else app.selected - 1 }
  else return app

def App.previous (app : App) : App :=
  if app.focus = 0 then { app with screen := app.screen - 1, selected := 0, scroll := 0 }
  else if app.focus = 1 then { app with selected := app.selected - 1 }
  else { app with scroll := app.scroll - 1 }

def App.following (app : App) : Option App := do
  if app.focus = 0 then
    return { app with screen := min (app.screen + 1) (SCREENS.length - 1), selected := 0, scroll := 0 }
  else if app.focus = 1 then
    let actions ← app.actions
    return { app with selected := min (app.selected + 1) (actions.length - 1) }
  else return { app with scroll := min (app.scroll + 1) maxScroll }

def App.scrollToEnd (app : App) : Option App := do
  let content ← app.content
  return { app with scroll := min ((lines content).length - 5) maxScroll }

def Form.opened (action : Action) : Form where
  action := action
  values := action.fields.map fun field ↦ field.choices.head?.getD ""
  field := 0
  confirmation := ""
  error := ""

def App.openForm (app : App) : Option App := do
  let actions ← app.actions
  return actions[app.selected]?.elim app fun action ↦ { app with form := some (.opened action) }

def App.screenKey (app : App) (code : KeyCode) : Option (App × Intent) :=
  match code with
  | .char 'q' => some (app, .quit)
  | .char '?' => some ({ app with help := true }, .none)
  | .char 'r' | .char 'R' =>
    if app.busy then some (app, .none) else some ({ app with busy := true }, .refresh)
  | .tab => some ({ app with focus := (app.focus + 1) % 3 }, .none)
  | .backTab => some ({ app with focus := (app.focus + 2) % 3 }, .none)
  | .esc => some ({ app with focus := 0 }, .none)
  | .left => (app.selectItem false).map (·, .none)
  | .right => (app.selectItem true).map (·, .none)
  | .up | .char 'k' => some (app.previous, .none)
  | .down | .char 'j' => app.following.map (·, .none)
  | .pageDown => some ({ app with scroll := min (app.scroll + 10) maxScroll }, .none)
  | .pageUp => some ({ app with scroll := app.scroll - 10 }, .none)
  | .home => some ({ app with scroll := 0 }, .none)
  | .finish => app.scrollToEnd.map (·, .none)
  | .enter =>
    if app.focus = 0 then some ({ app with focus := 1 }, .none)
    else if !app.busy && app.focus = 1 then app.openForm.map (·, .none)
    else some (app, .none)
  | _ => some (app, .none)

def App.key (app : App) (key : KeyEvent) : Option (App × Intent) :=
  if key.modifiers.control && key.code = .char 'c' then some (app, .quit)
  else if app.help then some ({ app with help := false }, .none)
  else app.form.elim (app.screenKey key.code) fun form ↦ app.formKey form key.code

end StealthHub.Manager

import StealthHub.Manager.Screens

set_option autoImplicit false

namespace StealthHub.Manager

inductive ThemeKind
  | obsidianGate
  | ultrakill
deriving DecidableEq

def ThemeKind.toggled : ThemeKind → ThemeKind
  | obsidianGate => ultrakill
  | ultrakill => obsidianGate

inductive Task
  | collect
  | operation (action : Action) (values : List String)

inductive Completion
  | snapshot (snapshot : Snapshot)
  | operation (label : String) (result : Except String String)

inductive Event
  | key (key : KeyEvent)
  | resize
  /-- The mouse, the focus or a paste. -/
  | other

structure Node where
  app : App
  theme : ThemeKind
  /-- The gate of the drawing. -/
  dirty : Bool
  /-- What the terminal shows. -/
  drawn : Option (App × ThemeKind)
  running : List (ℕ × Task)
  /-- What tasks have sent and the loop has not read. -/
  channel : List Completion
  /-- The handle that is aborted in the end. -/
  task : ℕ
  spawned : ℕ
  stopped : Bool

def Node.start (guided : Bool) (theme : ThemeKind) : Node where
  app := .new guided
  theme := theme
  dirty := true
  drawn := none
  running := [(0, .collect)]
  channel := []
  task := 0
  spawned := 1
  stopped := false

def refreshed : String :=
  "Refreshed local observations. Process/listener status does not prove a proxy handshake."

def App.receive (app : App) : Completion → App
  | .snapshot snapshot => { app with busy := false, snapshot := snapshot, output := refreshed }
  | .operation label (.ok text) =>
    { app with
      busy := false
      completedSteps := app.completedSteps ++ [label]
      output := label ++ ": helper completed\n" ++ text ++ "\nPress R to refresh observations." }
  | .operation _ (.error message) => { app with busy := false, output := message }

def Node.drain (node : Node) : Node :=
  { node with
    app := node.channel.foldl App.receive node.app
    dirty := node.dirty || !node.channel.isEmpty
    channel := [] }

def Node.draw (node : Node) : Node :=
  if node.dirty then { node with dirty := false, drawn := some (node.app, node.theme) } else node

def Node.spawn (node : Node) (task : Task) : Node :=
  { node with
    running := node.running ++ [(node.spawned, task)]
    task := node.spawned
    spawned := node.spawned + 1 }

/-- The loop ends; the process group of an aborted operation is killed with it. -/
def Node.stop (node : Node) : Node :=
  { node with running := node.running.filter (·.1 ≠ node.task), stopped := true }

def Node.serve (node : Node) : Intent → Node
  | .none => node
  | .quit => node.stop
  | .refresh => node.spawn .collect
  | .execute action values => node.spawn (.operation action values)

def togglesTheme (app : App) (key : KeyEvent) : Bool :=
  app.form.isNone && (key.code = .char 't' || key.code = .char 'T') && key.modifiers = .none

def Node.event (node : Node) : Event → Option Node
  | .resize => some { node with dirty := true }
  | .other => some node
  | .key key =>
    if key.release then some node
    else if togglesTheme node.app key then
      some { node with dirty := true, theme := node.theme.toggled }
    else (node.app.key key).map fun (app, intent) ↦
      ({ node with dirty := true, app := app } : Node).serve intent

inductive Step
  /-- One turn of the loop: whether a signal has come, and the event that is read within the time
  of a poll. -/
  | turn (signal : Bool) (event : Option Event)
  | collected (id : ℕ) (snapshot : Snapshot)
  | exited (id : ℕ) (result : Except String String)

def Node.send (node : Node) (id : ℕ) (completion : Task → Option Completion) : Node :=
  match (node.running.find? (·.1 = id)).bind fun entry ↦ completion entry.2 with
  | none => node
  | some completion =>
    if node.channel.length < 2 then
      { node with
        running := node.running.filter (·.1 ≠ id)
        channel := node.channel ++ [completion] }
    else node

def Task.collected (snapshot : Snapshot) : Task → Option Completion
  | collect => some (.snapshot snapshot)
  | operation _ _ => none

def Task.exited (result : Except String String) : Task → Option Completion
  | collect => none
  | operation action _ => some (.operation action.label result)

def Node.step (node : Node) : Step → Option Node
  | .turn signal event =>
    if node.stopped then some node
    else if signal then some node.stop
    else event.elim (some node.drain.draw) node.drain.draw.event
  | .collected id snapshot => some (node.send id (Task.collected snapshot))
  | .exited id result => some (node.send id (Task.exited result))

def Node.run (node : Node) : List Step → Option Node
  | [] => some node
  | step :: steps => (node.step step).bind fun node ↦ node.run steps

end StealthHub.Manager

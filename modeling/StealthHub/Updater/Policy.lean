import StealthHub.Data.EnvFile
import StealthHub.Data.Result

set_option autoImplicit false

namespace StealthHub.Updater

open Text EnvFile

/-- `u32::from_str`. -/
def parseU32 (s : String) : Option ℕ :=
  let digits := if s.toList.head? = some '+' then s.toList.tail else s.toList
  let value := digits.foldl (fun n c ↦ 10 * n + (c.toNat - 48)) 0
  if !digits.isEmpty && digits.all isAsciiDigit && value < 2 ^ 32 then some value else none

def parseBoolSetting (value : String) : Bool :=
  toAsciiLowercase (trim value) ∈ ["1", "true", "yes", "on"]

def parseHour (value : String) : Option ℕ := (parseU32 (trim value)).filter (· ≤ 23)

def parseScheduleTime (value : String) : Option (ℕ × ℕ) := do
  let (hourText, minuteText) ← splitOnce ':' (trim value)
  if len hourText ≠ 2 || len minuteText ≠ 2 then none
  else
    let hour ← parseU32 hourText
    let minute ← parseU32 minuteText
    if hour ≤ 23 ∧ minute ≤ 59 then some (hour, minute) else none

def nonEmptyOrDefault (value defaultValue : String) : String :=
  if isEmpty (trim value) then defaultValue else trim value

structure Config where
  enabled : Bool
  scheduleTime : String
  repo : String
  gitRef : String
deriving DecidableEq

/-- The settings of the panel, by key. -/
abbrev Settings := String → Option String

def settingOrDefault (settings : Settings) (key defaultValue : String) : String :=
  (settings key).getD defaultValue

def pad (n : ℕ) : String := if n < 10 then "0" ++ toString n else toString n

/-- `load_config_with_source`. -/
def loadConfig (settings : Settings) (pinnedSource : Option (String × String)) : Config :=
  let legacyHour := (parseHour (settingOrDefault settings "panel_update_hour" "5")).getD 5
  let scheduleTime := settingOrDefault settings "panel_update_time" (pad legacyHour ++ ":00")
  let source := pinnedSource.getD
    (settingOrDefault settings "panel_update_repo" "infinitrator/stealthhub-panel",
      settingOrDefault settings "panel_update_ref" "main")
  { enabled := parseBoolSetting (settingOrDefault settings "panel_update_enabled" "true")
    scheduleTime := if (parseScheduleTime scheduleTime).isSome then scheduleTime else "05:00"
    repo := source.1
    gitRef := source.2 }

def envBool (value : Bool) : String := if value then "true" else "false"

def isAsciiHexdigit (c : Char) : Bool :=
  isAsciiDigit c || ('a' ≤ c && c ≤ 'f') || ('A' ≤ c && c ≤ 'F')

def isAsciiGraphic (c : Char) : Bool := '!' ≤ c && c ≤ '~'

/-- What may stand between the quotes. -/
def cleaned (value : String) : String :=
  String.ofList (value.toList.filter fun c ↦ isAsciiGraphic c || c = ' ')

def shellEnvValue (value : String) : String := quoted (cleaned value)

def policyFields (config : Config) : List (String × String) :=
  [("AUTO_ENABLED", envBool config.enabled),
    ("SCHEDULE_HOUR", ((split ':' config.scheduleTime).head?).getD "5"),
    ("SCHEDULE_TIME", shellEnvValue config.scheduleTime),
    ("REPO", shellEnvValue config.repo),
    ("REF", shellEnvValue config.gitRef)]

/-- The content that `write_policy_file` writes. -/
def policyFile (config : Config) : String := render (policyFields config)

def readEnabled (text : String) : Except String Bool :=
  if trim text = "true" then .ok true
  else if trim text = "false" then .ok false
  else .error "Panel auto-update must be enabled or disabled explicitly."

/-- What the owner's form saves of the update window. -/
def updateWindow (enabledText timeText : String) : Except String (List (String × String)) := do
  let enabled ← readEnabled enabledText
  let time := nonEmptyOrDefault timeText "05:00"
  match parseScheduleTime time with
  | none => .error "Maintenance time must use 24-hour HH:MM format."
  | some (hour, _) => .ok [("panel_update_enabled", envBool enabled), ("panel_update_time", time),
      ("panel_update_hour", toString hour)]

/-- `upsert_settings`. -/
def Settings.saved (settings : Settings) (values : List (String × String)) : Settings :=
  values.foldl (fun settings entry ↦ Function.update settings entry.1 (some entry.2)) settings

/-- `read_state` of the updater of the panel; a file that is missing reads as empty. -/
def readState (file : Option String) (key : String) : String :=
  ((file.bind (lastAssigned key)).map fun value ↦
    replace escapedQuote "'" (unquoted value)).getD ""

/-- `state_value` of the updater of the modules. -/
def stateValue (file : Option String) (key : String) : String :=
  ((file.bind (firstAssigned key)).map unquoted).getD ""

/-- The pattern `^([01][0-9]|2[0-3]):[0-5][0-9]$`. -/
def matchesClock (time : String) : Bool :=
  match time.toList with
  | [a, b, colon, c, d] =>
    (((a = '0' || a = '1') && isAsciiDigit b) || (a = '2' && '0' ≤ b && b ≤ '3')) && colon = ':' &&
      ('0' ≤ c && c ≤ '5') && isAsciiDigit d
  | _ => false

/-- `$((10#$hour * 60 + 10#$minute))` of a time that matches. -/
def clockTotal (time : String) : ℕ :=
  match time.toList with
  | [a, b, _, c, d] =>
    ((a.toNat - 48) * 10 + (b.toNat - 48)) * 60 + ((c.toNat - 48) * 10 + (d.toNat - 48))
  | _ => 0

/-- `${time:-05:00}`. -/
def scheduledTime (time : String) : String := if isEmpty time then "05:00" else time

/-- Whether the updater of the panel applies a commit; `now` is the minute of the day. -/
def shouldUpdateNow (requested : Bool) (file : Option String) (latestSha appliedSha : String)
    (now : ℕ) : Bool :=
  requested ||
    (readState file "AUTO_ENABLED" = "true" && latestSha ≠ appliedSha &&
      matchesClock (scheduledTime (readState file "SCHEDULE_TIME")) &&
      clockTotal (scheduledTime (readState file "SCHEDULE_TIME")) ≤ now)

/-- Whether the updater of the modules has reached its time; it fails on a time that it cannot
read. -/
def automaticDue (file : Option String) (now : ℕ) : Except String Bool :=
  let time := scheduledTime (stateValue file "SCHEDULE_TIME")
  if matchesClock time then .ok (clockTotal time ≤ now)
  else .error ("invalid maintenance time: " ++ time)

end StealthHub.Updater

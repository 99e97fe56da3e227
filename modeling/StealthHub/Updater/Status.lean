import StealthHub.Updater.Schedule

set_option autoImplicit false

namespace StealthHub.Updater

open Text EnvFile

def isSafeGitSegment (c : Char) : Bool := isAsciiAlphanumeric c || c = '-' || c = '_' || c = '.'

def isSafeGitRefChar (c : Char) : Bool := isSafeGitSegment c || c = '/'

/-- The pattern `^[A-Za-z0-9_.-]+/[A-Za-z0-9_.-]+$`. -/
def validRepo (repo : String) : Bool :=
  match splitOnce '/' repo with
  | none => false
  | some (owner, name) =>
    !isEmpty owner && !isEmpty name && owner.toList.all isSafeGitSegment &&
      name.toList.all isSafeGitSegment

def validRef (gitRef : String) : Bool :=
  !isEmpty gitRef && gitRef.toList.all isSafeGitRefChar && !startsWith gitRef "/" &&
    !startsWith gitRef "-" && !contains gitRef ".."

/-- A time as the updater writes it. -/
structure Timestamp where
  text : String
  plain : ∀ c ∈ text.toList, (isAsciiAlphanumeric c || c = '-' || c = ':') = true

/-- How far a run of the updater gets. -/
inductive Reached
  | checked
  | failed
  | applied
deriving DecidableEq

variable {repo gitRef current latest status value content : String} {checkedAt : Timestamp}
variable {config : Config}

/-- A character of a value that is written, and read back, as it is. -/
structure Inert (c : Char) : Prop where
  control : isControl c = false
  blank : isWhitespace c = false

theorem now_plain : ∀ c ∈ "now".toList, (isAsciiAlphanumeric c || c = '-' || c = ':') = true := by
  have hall : ("now".toList.all fun c ↦ isAsciiAlphanumeric c || c = '-' || c = ':') = true := by
    decide
  exact List.all_eq_true.mp hall

def now : Timestamp := ⟨"now", now_plain⟩

end StealthHub.Updater

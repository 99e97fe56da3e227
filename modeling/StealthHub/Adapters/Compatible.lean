import StealthHub.Adapters.Cores
import StealthHub.Modules.ReleaseVersions

set_option autoImplicit false

namespace StealthHub.Adapters

open Text Modules

inductive FileError
  | notFound
  | other (message : String)

/-- What the host tells of one core: its binary, its version marker, and what the binary says
of its version on both streams. -/
structure InstalledRuntime where
  binaryIsFile : Bool
  tlsReady : Bool
  versionFile : Except FileError String
  versionOutput : Option (Bool × String × String)

def capabilitiesRequireTls (capabilities : Finset String) : Bool :=
  decide (∃ capability ∈ capabilities, capability ∈
    ["hysteria2", "tuic", "any-tls", "anytls-tls", "trojan-tls", "trusttunnel-h2"])

def Flavor.versionPrefix : Flavor → Option String
  | .xray => some "Xray "
  | .mihomo => some "Mihomo Meta "
  | .singBox => some "sing-box version "
  | .hysteria => some "Version:"
  | .tuic => none

def Flavor.reportedVersion (flavor : Flavor) (line : String) : Option (ℕ × ℕ × ℕ) :=
  match flavor.versionPrefix with
  | some expected => do
    let suffix ← stripPrefix expected (trim line)
    strictReleaseVersion (← (splitWhitespace suffix).head?)
  | none => strictReleaseVersion (trim line)

def probedVersion (flavor : Flavor) (runtime : InstalledRuntime) : Option (ℕ × ℕ × ℕ) := do
  let (success, stdout, stderr) ← runtime.versionOutput
  if !success then none
  else
    let versions := (lines (stdout ++ "\n" ++ stderr)).filterMap flavor.reportedVersion
    match versions.dedup with
    | [version] => some version
    | _ => none

def compatible (flavor : Flavor) (validatedVersion : String) (required : Finset String)
    (runtime : InstalledRuntime) : Except String Bool :=
  if !runtime.binaryIsFile then .ok false
  else if capabilitiesRequireTls required && !runtime.tlsReady then .ok false
  else do
    let expected ← (normalizedReleaseVersion validatedVersion).elim
      (.error "validated runtime version is invalid") .ok
    let markerMatches ← match runtime.versionFile with
      | .ok value => .ok (decide (normalizedReleaseVersion (trim value) = some expected))
      | .error .notFound => .ok true
      | .error (.other message) => .error message
    return markerMatches && probedVersion flavor runtime = some expected

variable {flavor : Flavor} {validatedVersion : String} {required : Finset String}
variable {runtime : InstalledRuntime} {text : String}

theorem marker_of_compatible (hmarker : runtime.versionFile = .ok text)
    (h : compatible flavor validatedVersion required runtime = .ok true) : ∃ pin,
      normalizedReleaseVersion validatedVersion = some pin ∧
        normalizedReleaseVersion (trim text) = some pin := by
  unfold compatible at h
  split_ifs at h
  · cases h
  · cases h
  · cases hpin : normalizedReleaseVersion validatedVersion with
    | none =>
      rw [hpin] at h
      cases h
    | some pin =>
      rw [hpin, hmarker] at h
      have hmatches := Except.ok.inj h
      rw [Bool.and_eq_true, decide_eq_true_eq] at hmatches
      exact ⟨pin, rfl, hmatches.1⟩

/-- A version is read strictly, and a marker of another form never passes for the validated
version, unless a text has three numbers that single dots do not separate, or more behind them.
What a core reports is read alike by both parsers, and the order is that of the numbers. -/
theorem versions_strict_iff (s : String) :
    (((∀ version, normalizedReleaseVersion s = some version ↔ Release s version) ∧
        ∀ flavor validatedVersion required runtime text, runtime.versionFile = .ok text →
          trim text = s → compatible flavor validatedVersion required runtime = .ok true →
            ∃ pin, normalizedReleaseVersion validatedVersion = some pin ∧ Release s pin) ↔
      SinglyDotted s) ∧
    (∀ version, strictReleaseVersion s = some version →
      normalizedReleaseVersion s = some version) ∧
    (∀ t, NotNewer s t ↔ ∃ left right, normalizedReleaseVersion s = some left ∧
      normalizedReleaseVersion t = some right ∧ lexical left ≤ lexical right) ∧
    (∀ t u, NotNewer s t → NotNewer t u → NotNewer s u) ∧
    ∀ t version version', normalizedReleaseVersion s = some version →
      normalizedReleaseVersion t = some version' → NotNewer s t ∨ NotNewer t s := by
  refine ⟨⟨fun h ↦ release_iff.mp h.1, fun h ↦ ⟨release_iff.mpr h, ?_⟩⟩,
    fun version ↦ strict_normalized, fun t ↦ notNewer_iff, fun t u ↦ notNewer_trans,
    fun t version version' ↦ notNewer_total⟩
  rintro flavor validatedVersion required runtime text hmarker rfl hcompatible
  obtain ⟨pin, hpin, hsame⟩ := marker_of_compatible hmarker hcompatible
  exact ⟨pin, hpin, (release_iff.mpr h pin).mp hsame⟩

def prereleaseRuntime : InstalledRuntime where
  binaryIsFile := true
  tlsReady := true
  versionFile := .ok "v1.19.30-alpha\n"
  versionOutput := some (true, "Mihomo Meta v1.19.30 linux amd64", "")

theorem prerelease_spelled : Spelled "v1.19.30-alpha".toList ['v'] ['1'] ['.'] ['1', '9'] ['.']
    ['3', '0'] "-alpha".toList (1, 19, 30) where
  text := by decide
  major := ⟨by decide, List.all_eq_true.mp rfl, by decide⟩
  minor := ⟨by decide, List.all_eq_true.mp rfl, by decide⟩
  patch := ⟨by decide, List.all_eq_true.mp rfl, by decide⟩
  before := by decide
  between := by decide
  between' := by decide
  behind := by decide

theorem prerelease_not_release (version : ℕ × ℕ × ℕ) : ¬Release "v1.19.30-alpha" version := by
  rintro ⟨before, first, second, third, h⟩
  have hbehind := (prerelease_spelled.unique h).2.2
  exact absurd hbehind (by decide)

theorem prerelease_marker_passes :
    (¬∀ s version, normalizedReleaseVersion s = some version ↔ Release s version) ∧
      ¬∀ flavor validatedVersion required runtime text pin, runtime.versionFile = .ok text →
        compatible flavor validatedVersion required runtime = .ok true →
          normalizedReleaseVersion validatedVersion = some pin → Release (trim text) pin := by
  constructor
  · intro h
    have hread : normalizedReleaseVersion "v1.19.30-alpha" = some (1, 19, 30) := by decide
    exact prerelease_not_release _ ((h _ _).mp hread)
  · intro h
    have hcompatible : compatible .mihomo "v1.19.30" ∅ prereleaseRuntime = .ok true := by decide
    have hpin : normalizedReleaseVersion "v1.19.30" = some (1, 19, 30) := by decide
    have htrim : trim "v1.19.30-alpha\n" = "v1.19.30-alpha" := by decide
    have hrelease := h _ _ _ prereleaseRuntime _ _ rfl hcompatible hpin
    rw [htrim] at hrelease
    exact prerelease_not_release _ hrelease

end StealthHub.Adapters

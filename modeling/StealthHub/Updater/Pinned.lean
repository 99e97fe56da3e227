import StealthHub.Updater.Confined

set_option autoImplicit false

namespace StealthHub.Updater

open Text EnvFile Modules
open Manager (ManifestFile readManifest readManifest_ok)

/-- What happens while nobody asks for anything that the worker takes up. -/
def Step.Unattended : Step → Prop
  | .panel _ => True
  | .reconciled _ => True
  | .begin _ => True
  | .due _ => True
  | .automatic _ _ => True
  | _ => False

variable {host host' start : ModuleHost} {record : Record} {id tag : String} {attempt : Attempt}
  {spec : ModuleSpec} {file : ManifestFile} {runtime runtime' : Runtime} {version : ℕ × ℕ × ℕ}

theorem digitRuns_dropPrefix {pattern : String} (h : Separator pattern.toList) (value : String) :
    digitRuns (dropPrefix pattern value).toList = digitRuns value.toList := by
  rw [dropPrefix]
  cases hstrip : stripPrefix pattern value with
  | none => rfl
  | some rest => rw [stripPrefix_some hstrip, digitRuns_separator h, Option.getD_some]

theorem normalizedReleaseVersion_normalizeVersion (value : String) :
    normalizedReleaseVersion (normalizeVersion value) = normalizedReleaseVersion value := by
  have hruns : digitRuns (normalizeVersion value).toList = digitRuns value.toList := by
    rw [normalizeVersion, digitRuns_dropPrefix (by decide), digitRuns_dropPrefix (by decide),
      digitRuns_dropPrefix (by decide)]
  refine Option.ext fun version ↦ ?_
  rw [normalized_iff, normalized_iff, hruns]

theorem notNewer_of_not_gt (hversion : normalizedReleaseVersion id = some version)
    (htag : (normalizedReleaseVersion tag).isSome = true)
    (h : (compareReleaseVersions id tag).toOption ≠ some .gt) :
    NotNewer id (normalizeVersion tag) := by
  obtain ⟨other, hother⟩ := Option.isSome_iff_exists.mp htag
  have hcompare : compareReleaseVersions id tag =
      .ok (compare (lexical version) (lexical other)) :=
    compare_ok.mpr ⟨version, other, hversion, hother, rfl⟩
  refine notNewer_iff.mpr ⟨version, other, hversion,
    (normalizedReleaseVersion_normalizeVersion tag).trans hother, ?_⟩
  rw [hcompare] at h
  exact not_lt.mp fun hlt ↦ h (congrArg some (compare_gt_iff_gt.mpr hlt))

theorem pinnedRelease_valid (hread : readManifest file = .ok spec)
    (hpinned : spec.upstream = .pinnedRelease tag) :
    (normalizedReleaseVersion tag).isSome = true := by
  unfold readManifest at hread
  split_ifs at hread
  obtain ⟨values, read, -, -, hvalid⟩ := parseManifest_ok hread
  obtain ⟨haccepted, hspec⟩ := validateSpec_ok hvalid
  have hupstream := haccepted.upstream
  have hsame : read.upstream = .pinnedRelease tag := by
    rw [← hpinned, ← hspec]
  rw [hsame, validateUpstream] at hupstream
  split_ifs at hupstream with hinvalid
  simp only [Bool.or_eq_true, not_or, Bool.not_eq_true', Option.isNone_iff_eq_none] at hinvalid
  exact Option.ne_none_iff_isSome.mp hinvalid.2

/-- A module of a validated pin, whose program is installed as a release. -/
structure Pinned (record : Record) (tag : String) (first : String) (runtime : Runtime) : Prop where
  upstream : record.upstream = "pinned-release"
  ref : record.ref = tag
  release : (normalizedReleaseVersion tag).isSome = true
  binary : record.binary ∈ runtime.binaries
  version : runtime.version = first ∨ runtime.version = normalizeVersion tag
  notNewer : NotNewer first runtime.version

theorem Pinned.exists_release (h : Pinned record tag id runtime) :
    ∃ version, normalizedReleaseVersion runtime.version = some version := by
  obtain ⟨-, right, -, hright, -⟩ := notNewer_iff.mp h.notNewer
  exact ⟨right, hright⟩

theorem ne_current_of_release {value : String} (h : normalizedReleaseVersion value = some version) :
    value ≠ "current" := by
  rintro rfl
  have hnone : normalizedReleaseVersion "current" = none := by decide
  rw [hnone] at h
  cases h

theorem Pinned.ne_current (h : Pinned record tag id runtime) :
    runtime.version ≠ "current" ∧ normalizeVersion tag ≠ "current" := by
  obtain ⟨version, hversion⟩ := h.exists_release
  obtain ⟨other, hother⟩ := Option.isSome_iff_exists.mp h.release
  exact ⟨ne_current_of_release hversion,
    ne_current_of_release ((normalizedReleaseVersion_normalizeVersion tag).trans hother)⟩

theorem Pinned.installedVersion (h : Pinned record tag id runtime)
    (hruntime : host.runtime record = some runtime) :
    host.installedVersion record = runtime.version ∧ host.executable record = true := by
  constructor
  · rw [ModuleHost.installedVersion, hruntime]
    exact if_pos ⟨h.binary, h.ne_current.1⟩
  · rw [ModuleHost.executable, hruntime, Option.any_some]
    exact decide_eq_true h.binary

theorem places_restoreServiceState (service : String) :
    (restoreServiceState host service attempt).2.places = host.places := by
  unfold restoreServiceState
  dsimp only
  split_ifs
  all_goals rfl

theorem placeOf_setPlace (host : ModuleHost) (record : Record) (place : Place) :
    (host.setPlace record place).placeOf record = place := by
  rw [ModuleHost.placeOf, ModuleHost.setPlace_places, Function.update_self]

theorem placeOf_runCoreInstaller {download : Download} (hplace : host.placeOf record = .runs runtime)
    (hversion : runtime.version ≠ id) (hcurrent : runtime.version ≠ "current" ∧ id ≠ "current") :
    (runCoreInstaller host record id download attempt).placeOf record = .runs runtime ∨
      (runCoreInstaller host record id download attempt).placeOf record =
        .runs ⟨id, [record.binary]⟩ := by
  have hact : (host.act [.install record.id id record.binary download]).placeOf record =
      .runs runtime := hplace
  have hstaged (left : List String) : (Place.runs runtime).staged id left = .runs runtime :=
    if_neg (not_or.mpr ⟨hcurrent.2, hversion⟩)
  unfold runCoreInstaller
  dsimp only
  split_ifs
  · rw [placeOf_setPlace, hact]
    exact .inl rfl
  · rw [placeOf_setPlace, hact]
    cases attempt.installer with
    | refused => exact .inl rfl
    | started => exact .inl rfl
    | staged left =>
      rw [Installer.apply, hstaged]
      exact .inl rfl
    | switched =>
      rw [Installer.apply, hstaged]
      exact .inr (if_neg hcurrent.1)
  · exact .inl hact

theorem placeOf_rollbackSymlink (h : host.placeOf record = .runs runtime ∨
      host.placeOf record = .runs runtime' ∧ runtime'.version ≠ runtime.version) :
    (rollbackSymlink host record (.runs runtime) attempt).placeOf record = host.placeOf record ∨
      (rollbackSymlink host record (.runs runtime) attempt).placeOf record = .runs runtime := by
  have hback : (Place.runs runtime).rolledBack (host.placeOf record) = none ∨
      (Place.runs runtime).rolledBack (host.placeOf record) = some (.runs runtime) := by
    rcases h with h | ⟨h, hne⟩
    · rw [h, Place.rolledBack, if_pos rfl]
      split_ifs
      · exact .inl rfl
      · exact .inr rfl
    · rw [h, Place.rolledBack, if_neg hne]
      split_ifs
      · exact .inl rfl
      · exact .inr rfl
  unfold rollbackSymlink
  rcases hback with hback | hback
  · rw [hback]
    exact .inl rfl
  · rw [hback]
    dsimp only
    split_ifs
    · exact .inl rfl
    · exact .inr (placeOf_setPlace _ _ _)
    · exact .inr (placeOf_setPlace _ _ _)

theorem pinned_installed {first normalized : String} {download : Download}
    (h : Pinned record tag first runtime)
    (hnormalized : normalized = normalizeVersion tag) (hplace : host.placeOf record = .runs runtime)
    (hversion : normalized ≠ runtime.version) (hnewer : NotNewer runtime.version normalized)
    (hhost : host' = (restoreServiceState (runCoreInstaller host record normalized download attempt)
      record.service attempt).2) :
    (∃ runtime', (host'.remember record.id tag).placeOf record = .runs runtime' ∧
      Pinned record tag first runtime') ∧
    ∃ runtime', (rollbackSymlink host' record (.runs runtime) attempt).placeOf record =
        .runs runtime' ∧ Pinned record tag first runtime' := by
  have hnew : Pinned record tag first ⟨normalized, [record.binary]⟩ :=
    { h with
      binary := List.mem_singleton_self _
      version := .inr hnormalized
      notNewer := notNewer_trans h.notNewer hnewer }
  have hinstalled : host'.placeOf record = .runs runtime ∨
      host'.placeOf record = .runs ⟨normalized, [record.binary]⟩ := by
    have hsame : host'.placeOf record =
        (runCoreInstaller host record normalized download attempt).placeOf record := by
      rw [hhost, ModuleHost.placeOf, places_restoreServiceState, ModuleHost.placeOf]
    rw [hsame]
    exact placeOf_runCoreInstaller hplace (Ne.symm hversion) (hnormalized ▸ h.ne_current)
  have hkept : ∃ runtime', host'.placeOf record = .runs runtime' ∧
      Pinned record tag first runtime' := by
    rcases hinstalled with hsame | hswitched
    · exact ⟨runtime, hsame, h⟩
    · exact ⟨_, hswitched, hnew⟩
  refine ⟨hkept, ?_⟩
  rcases placeOf_rollbackSymlink (hinstalled.imp_right fun hswitched ↦ ⟨hswitched, hversion⟩)
    with hback | hback
  · rwa [hback]
  · exact ⟨runtime, hback, h⟩

theorem pinned_installReleaseModule {first : String} (h : Pinned record tag first runtime)
    (hplace : host.placeOf record = .runs runtime) :
    ∃ runtime', (installReleaseModule host record false attempt).2.placeOf record = .runs runtime' ∧
      Pinned record tag first runtime' := by
  obtain ⟨version, hversion⟩ := h.exists_release
  obtain ⟨hinstalled, hexecutable⟩ := h.installedVersion (Place.runtime_eq_some.mpr hplace)
  have hunchanged : ∃ runtime', host.placeOf record = .runs runtime' ∧
      Pinned record tag first runtime' := ⟨runtime, hplace, h⟩
  unfold installReleaseModule
  cases hmetadata : attempt.metadata with
  | none => exact hunchanged
  | some metadata =>
    obtain ⟨name, url⟩ := metadata
    dsimp only
    rw [hinstalled, hplace]
    by_cases htag : record.upstream = "pinned-release" ∧ name ≠ record.ref
    · rw [if_pos htag]
      exact hunchanged
    obtain rfl : name = tag := by
      rw [← h.ref]
      exact not_not.mp fun hne ↦ htag ⟨h.upstream, hne⟩
    rw [if_neg htag]
    cases attempt.fetched with
    | none =>
      dsimp only
      split_ifs
      all_goals exact hunchanged
    | some download =>
      dsimp only
      split_ifs with hurl hcurrent hnewer hdriver hrestored
      · exact hunchanged
      · exact hunchanged
      · exact hunchanged
      · exact hunchanged
      all_goals
        have hchanged : normalizeVersion name ≠ runtime.version :=
          fun hsame ↦ hcurrent ⟨hexecutable, .inr hsame.symm⟩
        have hknown : runtime.version ≠ "unknown" := by
          intro hsame
          have hnone : normalizedReleaseVersion "unknown" = none := by decide
          rw [hsame, hnone] at hversion
          cases hversion
        have hnot : NotNewer runtime.version (normalizeVersion name) :=
          notNewer_of_not_gt hversion h.release fun hgt ↦ hnewer ⟨h.upstream, hknown, hgt, rfl⟩
      · exact (pinned_installed h rfl hplace hchanged hnot rfl).1
      · exact (pinned_installed h rfl hplace hchanged hnot rfl).2

theorem pinned_updateModule {first : String} (id : String) (attempt : Attempt)
    (h : Pinned (recordOf spec) tag first runtime)
    (hmem : file ∈ host.active.files) (hread : readManifest file = .ok spec)
    (hplace : host.placeOf (recordOf spec) = .runs runtime) :
    ∃ runtime', (updateModule host id false attempt).2.placeOf (recordOf spec) = .runs runtime' ∧
      Pinned (recordOf spec) tag first runtime' := by
  obtain ⟨hstem, -, -⟩ := readManifest_ok hread
  by_cases hid : id = spec.id
  · have hload : loadModule host.active id = some (recordOf spec) :=
      loadModule_eq_some.mpr ⟨file, hmem, spec, hstem.symm.trans hid.symm, hread, rfl⟩
    have hupstream : ¬((recordOf spec).upstream ≠ "release" ∧
        (recordOf spec).upstream ≠ "pinned-release") := fun hne ↦ hne.2 h.upstream
    rw [updateModule, hload]
    dsimp only
    rw [if_neg hupstream]
    exact pinned_installReleaseModule h hplace
  · rcases within_updateModule host id false attempt with hsame | ⟨other, hload, hwithin⟩
    · rw [hsame]
      exact ⟨runtime, hplace, h⟩
    · obtain ⟨found, -, spec', hfound, hspec', hrecord⟩ := loadModule_eq_some.mp hload
      have hother : other.id = id := by
        rw [hrecord, ← hfound]
        exact (readManifest_ok hspec').1
      have hroot : runtimeRoot (recordOf spec) ≠ runtimeRoot other :=
        runtimeRoot_ne (by rw [hother]; exact Ne.symm hid)
      exact ⟨runtime, (hwithin.places _ hroot).trans hplace, h⟩

def Holds (spec : ModuleSpec) (file : ManifestFile) (tag first : String) (host : ModuleHost) : Prop :=
  file ∈ host.active.files ∧ ∃ runtime, host.placeOf (recordOf spec) = .runs runtime ∧
    Pinned (recordOf spec) tag first runtime

theorem Holds.step {first : String} (h : Holds spec file tag first host)
    (hread : readManifest file = .ok spec) {step : Step} (hunattended : step.Unattended) :
    ∃ host', host.step step = some host' ∧ Holds spec file tag first host' := by
  obtain ⟨hmem, runtime, hplace, hpinned⟩ := h
  cases step with
  | panel files => exact ⟨_, rfl, hmem, runtime, hplace, hpinned⟩
  | reconciled applied => exact ⟨_, rfl, hmem, runtime, hplace, hpinned⟩
  | begin found =>
    obtain ⟨hactive, hplaces, -⟩ := begin_same host found
    refine ⟨_, rfl, ?_, runtime, ?_, hpinned⟩
    · rwa [hactive]
    · rwa [ModuleHost.placeOf, hplaces]
  | due now => exact ⟨_, rfl, hmem, runtime, hplace, hpinned⟩
  | automatic id attempt =>
    refine ⟨_, rfl, ?_⟩
    rcases automaticOne_eq host id attempt with hsame | hupdated
    · rw [hsame]
      exact ⟨hmem, runtime, hplace, hpinned⟩
    · rw [hupdated]
      refine ⟨?_, pinned_updateModule id attempt hpinned hmem hread hplace⟩
      rwa [active_updateModule]
  | register id attempt => exact hunattended.elim
  | remove id => exact hunattended.elim
  | lifecycle action id obeyed => exact hunattended.elim
  | update id attempt => exact hunattended.elim

theorem Holds.run {first : String} (h : Holds spec file tag first host)
    (hread : readManifest file = .ok spec) {steps : List Step}
    (hunattended : ∀ step ∈ steps, step.Unattended) :
    ∃ host', host.run steps = some host' ∧ Holds spec file tag first host' := by
  induction steps generalizing host with
  | nil => exact ⟨host, rfl, h⟩
  | cons step rest ih =>
    obtain ⟨hstep, hrest⟩ := List.forall_mem_cons.mp hunattended
    obtain ⟨next, hnext, hholds⟩ := h.step hread hstep
    obtain ⟨host', hrun, hfinal⟩ := ih hholds hrest
    refine ⟨host', ?_, hfinal⟩
    rw [ModuleHost.run, List.foldlM_cons, hnext]
    exact hrun

/-- However often modules are updated automatically, and whatever the panel's account and the
releases upstream look like in between, a pinned module keeps its program, and its release is the
first one or that of the pin, and never older than the first. -/
theorem automatic_never_downgrades (start : ModuleHost) (steps : List Step) {file : ManifestFile}
    {spec : ModuleSpec} {tag : String} {runtime : Runtime} {version : ℕ × ℕ × ℕ}
    (hunattended : ∀ step ∈ steps, step.Unattended) (hmem : file ∈ start.active.files)
    (hread : readManifest file = .ok spec) (hpinned : spec.upstream = .pinnedRelease tag)
    (hruntime : start.runtime (recordOf spec) = some runtime) (hbinary : spec.binary ∈ runtime.binaries)
    (hversion : normalizedReleaseVersion runtime.version = some version) :
    ∃ host runtime', start.run steps = some host ∧ host.runtime (recordOf spec) = some runtime' ∧
      spec.binary ∈ runtime'.binaries ∧
      (runtime'.version = runtime.version ∨ runtime'.version = normalizeVersion tag) ∧
      NotNewer runtime.version runtime'.version := by
  have hstart : Pinned (recordOf spec) tag runtime.version runtime := by
    have htag := pinnedRelease_valid hread hpinned
    exact {
      upstream := by rw [recordOf, hpinned]; rfl
      ref := by rw [recordOf, hpinned]; rfl
      release := htag
      binary := hbinary
      version := .inl rfl
      notNewer := notNewer_iff.mpr ⟨version, version, hversion, hversion, le_rfl⟩ }
  have hholds : Holds spec file tag runtime.version start :=
    ⟨hmem, runtime, Place.runtime_eq_some.mp hruntime, hstart⟩
  obtain ⟨host, hrun, -, runtime', hplace', hfinal⟩ := hholds.run hread hunattended
  exact ⟨host, runtime', hrun, Place.runtime_eq_some.mpr hplace', hfinal.binary, hfinal.version,
    hfinal.notNewer⟩

def pinnedModule : ModuleSpec := { demoModule "demo" with upstream := .pinnedRelease "v1.3.0" }

def pinnedAccepted : ModuleSpec :=
  { pinnedModule with binaryPath := currentDirectory "cores" "demo" ++ "/demo" }

def pinnedFile : ManifestFile := ⟨"demo", true, writeFields (recordFields pinnedModule)⟩

theorem pinnedFile_read : readManifest pinnedFile = .ok pinnedAccepted := by
  have hsafe : ∀ value ∈ recordFields pinnedModule, safeText value = true ∧ trim value = value := by
    decide
  have hvalid : (validateSpec pinnedModule false).toOption = some pinnedAccepted := by decide
  exact parseManifest_writeFields (fun value hmem ↦ ⟨(hsafe value hmem).1, (hsafe value hmem).2⟩) rfl
    rfl (Except.toOption_eq_some.mp hvalid)

def pinnedHost : ModuleHost :=
  { demoHost none with active := ⟨[pinnedFile], List.nodup_singleton _⟩ }

/-- The line `demo`. -/
def demoArchive : List UInt8 := [100, 101, 109, 111, 10]

def demoDigest : String := "eb9c26baee47f19e4993a77bca936d0ff09e355a82d3db79bf154ebff1a80604"

def pinnedAttempt : Attempt where
  metadata := some ("v1.3.0", "https://github.com/owner/repo/releases/download/v1.3.0/demo")
  fetched := some ⟨"demo", demoArchive, demoDigest⟩
  installer := .switched
  wasEnabled := true
  wasActive := true
  reloads := true
  enables := true
  restarts := true
  linked := true

def pinnedUpdate : List Step :=
  [.panel { demoFiles noRequests with
      states := fun _ ↦ some "AUTO_ENABLED=true\nINSTALLED=true\n" },
    .begin (.directory 997 0o750), .due 300, .automatic "demo" pinnedAttempt]

theorem automatic_never_downgrades_pinned :
    ∃ host runtime', pinnedHost.run pinnedUpdate = some host ∧
      host.runtime (recordOf pinnedAccepted) = some runtime' ∧ "demo" ∈ runtime'.binaries ∧
      (runtime'.version = "1.2.0" ∨ runtime'.version = normalizeVersion "v1.3.0") ∧
      NotNewer "1.2.0" runtime'.version := by
  have hunattended : ∀ step ∈ pinnedUpdate, step.Unattended :=
    List.forall_mem_cons.mpr ⟨trivial, List.forall_mem_cons.mpr
      ⟨trivial, List.forall_mem_cons.mpr ⟨trivial, List.forall_mem_singleton.mpr trivial⟩⟩⟩
  have hruntime : pinnedHost.runtime (recordOf pinnedAccepted) = some ⟨"1.2.0", ["demo"]⟩ := by decide
  have hversion : normalizedReleaseVersion "1.2.0" = some (1, 2, 0) := by decide
  exact automatic_never_downgrades pinnedHost pinnedUpdate hunattended (List.mem_singleton_self _)
    pinnedFile_read rfl hruntime (List.mem_singleton_self _) hversion

end StealthHub.Updater

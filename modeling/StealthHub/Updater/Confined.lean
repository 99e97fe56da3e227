import StealthHub.Updater.Worker

set_option autoImplicit false

namespace StealthHub.Updater

open Text EnvFile Modules
open Manager (ManifestFile ModuleDirectory readManifest loadRegistry manifestRecord matchesModuleId
  find?_stem readManifest_ok matchesModuleId_of_validId)

/-- What happens to the host, one turn of a loop of the worker at a time. -/
inductive Step
  /-- The account of the panel writes what it likes into its own directories. -/
  | panel (files : PanelFiles)
  /-- A reconciliation records what it has applied. -/
  | reconciled (applied : Option String)
  /-- The worker is started, and finds its directory of requests. -/
  | begin (found : RequestPath)
  /-- `run_automatic` asks for the time. -/
  | due (now : ℕ)
  | register (id : String) (attempt : Attempt)
  | remove (id : String)
  | lifecycle (action : RuntimeLifecycleAction) (id : String) (obeyed : Bool)
  | update (id : String) (attempt : Attempt)
  | automatic (id : String) (attempt : Attempt)

/-- A start that fails leaves everything as it is, and so does a time that cannot be read. -/
def ModuleHost.step (host : ModuleHost) : Step → Option ModuleHost
  | .panel files => some { host with toPanelFiles := files }
  | .reconciled applied => some { host with applied }
  | .begin found => some ((begin host found).getD host)
  | .due _ => some host
  | .register id attempt => (registerOne host id attempt).map Prod.snd
  | .remove id => some (removeOne host id).2
  | .lifecycle action id obeyed => some (lifecycleOne host action id obeyed).2
  | .update id attempt => some (runOne host id attempt).2
  | .automatic id attempt => some (automaticOne host id attempt).2

def ModuleHost.run (host : ModuleHost) (steps : List Step) : Option ModuleHost :=
  steps.foldlM ModuleHost.step host

/-- What is read of a manifest. -/
def recordOf (spec : ModuleSpec) : Record where
  id := spec.id
  repo := spec.repo
  upstream := spec.upstream.fields.1
  ref := spec.upstream.fields.2
  driver := spec.driver
  root := spec.root
  binary := spec.binary
  service := spec.service
  assetAmd64 := spec.assetAmd64
  assetArm64 := spec.assetArm64

/-- An act on the service, the runtime or the program of one module. -/
inductive Act.Of (record : Record) : Act → Prop
  | service (verb : String) : Act.Of record (.service verb record.service)
  | install (version : String) (download : Download) :
    Act.Of record (.install record.id version record.binary download)
  | erase : Act.Of record (.erase (runtimeRoot record))

variable {host host' host'' start : ModuleHost} {record : Record} {id stem target : String}
  {attempt : Attempt} {spec : ModuleSpec} {directory : ModuleDirectory} {file : ManifestFile}
  {action : RuntimeLifecycleAction} {P : Act → Prop}

theorem clearAside_eq (host : ModuleHost) (id : String) (action : RuntimeLifecycleAction) :
    ∃ aside, host.clearAside id action = { host with aside } := by
  unfold ModuleHost.clearAside
  split
  · exact ⟨host.aside, rfl⟩
  · exact ⟨_, rfl⟩

theorem settle_eq (host : ModuleHost) (id : String) (action : RuntimeLifecycleAction) :
    ∃ aside, host.settle id action = { host.without id action with aside } :=
  clearAside_eq (host.without id action) id action

theorem setAside_cases (host : ModuleHost) (id : String) (action : RuntimeLifecycleAction) :
    (∃ link, host.aside id action = .directory link true ∧ host.setAside id action = host) ∨
      host.setAside id action = host.without id action ∨
      ∃ target, host.aside id action = .directory (some target) false ∧
        host.setAside id action = (host.without id action).act [.moveInto target id action] := by
  unfold ModuleHost.setAside
  cases haside : host.aside id action with
  | free => exact .inr (.inl rfl)
  | directory link taken =>
    cases taken with
    | true => exact .inl ⟨link, rfl, rfl⟩
    | false =>
      cases link with
      | none => exact .inr (.inl rfl)
      | some target => exact .inr (.inr ⟨target, rfl, rfl⟩)

theorem settle_same (host : ModuleHost) (id : String) (action : RuntimeLifecycleAction) :
    (host.settle id action).active = host.active ∧ (host.settle id action).places = host.places ∧
      (host.settle id action).applied = host.applied := by
  obtain ⟨aside, hsettle⟩ := settle_eq host id action
  rw [hsettle]
  exact ⟨rfl, rfl, rfl⟩

theorem setAside_same (host : ModuleHost) (id : String) (action : RuntimeLifecycleAction) :
    (host.setAside id action).active = host.active ∧
      (host.setAside id action).places = host.places ∧
        (host.setAside id action).applied = host.applied := by
  rcases setAside_cases host id action with ⟨-, -, hstays⟩ | hmoved | ⟨target, -, hmoved⟩
  · rw [hstays]
    exact ⟨rfl, rfl, rfl⟩
  · rw [hmoved]
    exact ⟨rfl, rfl, rfl⟩
  · rw [hmoved]
    exact ⟨rfl, rfl, rfl⟩

/-- What is added to the acts of root. -/
def Adds (P : Act → Prop) (host host' : ModuleHost) : Prop :=
  ∃ acts, host'.acts = host.acts ++ acts ∧ ∀ act ∈ acts, P act

theorem Adds.same (h : host'.acts = host.acts) : Adds P host host' :=
  ⟨[], by rw [h, List.append_nil], List.forall_mem_nil _⟩

theorem Adds.one {act : Act} (h : P act) : Adds P host (host.act [act]) :=
  ⟨[act], rfl, List.forall_mem_singleton.mpr h⟩

theorem Adds.trans (h : Adds P host host') (h' : Adds P host' host'') : Adds P host host'' := by
  obtain ⟨acts, hacts, hall⟩ := h
  obtain ⟨acts', hacts', hall'⟩ := h'
  refine ⟨acts ++ acts', ?_, List.forall_mem_append.mpr ⟨hall, hall'⟩⟩
  rw [hacts', hacts, List.append_assoc]

theorem Adds.mono {Q : Act → Prop} (h : Adds P host host') (hmono : ∀ act, P act → Q act) :
    Adds Q host host' := by
  obtain ⟨acts, hacts, hall⟩ := h
  exact ⟨acts, hacts, fun act hact ↦ hmono act (hall act hact)⟩

theorem adds_settle : Adds P host (host.settle id action) := by
  obtain ⟨aside, hsettle⟩ := settle_eq host id action
  rw [hsettle]
  exact .same rfl

theorem adds_setAside (h : ∀ target, host.aside id action = .directory (some target) false →
    P (.moveInto target id action)) : Adds P host (host.setAside id action) := by
  rcases setAside_cases host id action with ⟨-, -, hstays⟩ | hmoved | ⟨target, hlink, hmoved⟩
  · rw [hstays]
    exact .same rfl
  · rw [hmoved]
    exact .same rfl
  · rw [hmoved]
    exact (Adds.same rfl).trans (.one (h target hlink))

theorem readManifest_record (h : readManifest file = .ok spec) :
    readRecord (pipeRecord spec) = some (recordOf spec) := by
  unfold readManifest at h
  split_ifs at h
  obtain ⟨values, read, hlines, hreads, hvalid⟩ := parseManifest_ok h
  have hclean : ∀ value ∈ recordFields read, Clean value :=
    hreads.clean (parseLines_clean hlines (by simp))
  have hrecord : recordFields spec = recordFields read := by
    rw [← (validateSpec_ok hvalid).2]
    rfl
  rw [← hrecord] at hclean
  unfold readRecord
  simp only [split_pipeRecord hclean, recordFields]
  rfl

theorem loadModule_eq_some : loadModule directory id = some record ↔
    ∃ file ∈ directory.files, ∃ spec, file.stem = id ∧ readManifest file = .ok spec ∧
      record = recordOf spec := by
  unfold loadModule manifestRecord
  constructor
  · intro h
    split_ifs at h
    obtain ⟨hbind, -⟩ := Option.filter_eq_some_iff.mp h
    obtain ⟨text, hmap, hread⟩ := Option.bind_eq_some_iff.mp hbind
    obtain ⟨spec, hfound, rfl⟩ := Option.map_eq_some_iff.mp hmap
    obtain ⟨file, hfile, hspec⟩ := Option.bind_eq_some_iff.mp hfound
    have hok := Except.toOption_eq_some.mp hspec
    obtain ⟨hmem, hstem⟩ := lookup_eq_some.mp hfile
    exact ⟨file, hmem, spec, hstem, hok,
      Option.some.inj (hread.symm.trans (readManifest_record hok))⟩
  · rintro ⟨file, hmem, spec, rfl, hspec, rfl⟩
    obtain ⟨hid, hvalid, -⟩ := readManifest_ok hspec
    have hmatches : matchesModuleId file.stem = true := by
      rw [← hid]
      exact matchesModuleId_of_validId hvalid
    rw [if_pos hmatches, find?_stem hmem, Option.bind_some, Except.toOption_eq_some.mpr hspec,
      Option.map_some, Option.bind_some, readManifest_record hspec]
    exact Option.filter_eq_some_iff.mpr ⟨rfl, decide_eq_true hid⟩

theorem exists_loadModule (h : Readable directory) (hmem : file ∈ directory.files) :
    ∃ record, loadModule directory file.stem = some record := by
  obtain ⟨spec, hspec⟩ := h file hmem
  exact ⟨recordOf spec, loadModule_eq_some.mpr ⟨file, hmem, spec, rfl, hspec, rfl⟩⟩

/-- All that an update of a module may change, and what it may do. -/
structure Within (record : Record) (host host' : ModuleHost) : Prop where
  active : host'.active = host.active
  available : host'.available = host.available
  owner : host'.requestOwner = host.requestOwner
  files : host'.toPanelFiles = host.toPanelFiles
  applied : host'.applied = host.applied
  lastAuto : host'.lastAuto = host.lastAuto
  places : ∀ root, root ≠ runtimeRoot record → host'.places root = host.places root
  present : ∀ root, (host.places root).runtime.isSome = true →
    (host'.places root).runtime.isSome = true
  acts : Adds (fun act ↦ Act.Of record act ∧ ∀ directory, act ≠ .erase directory) host host'

theorem Within.refl (record : Record) (host : ModuleHost) : Within record host host where
  active := rfl
  available := rfl
  owner := rfl
  files := rfl
  applied := rfl
  lastAuto := rfl
  places := fun _ _ ↦ rfl
  present := fun _ h ↦ h
  acts := .same rfl

theorem Within.trans (h : Within record host host') (h' : Within record host' host'') :
    Within record host host'' where
  active := h'.active.trans h.active
  available := h'.available.trans h.available
  owner := h'.owner.trans h.owner
  files := h'.files.trans h.files
  applied := h'.applied.trans h.applied
  lastAuto := h'.lastAuto.trans h.lastAuto
  places := fun root hroot ↦ (h'.places root hroot).trans (h.places root hroot)
  present := fun root hroot ↦ h'.present root (h.present root hroot)
  acts := h.acts.trans h'.acts

theorem within_service (verb : String) :
    Within record host (host.act [.service verb record.service]) :=
  { Within.refl record host with acts := .one ⟨.service verb, fun _ h ↦ by cases h⟩ }

theorem within_setPlace {place : Place}
    (h : (host.runtime record).isSome = true → place.runtime.isSome = true) :
    Within record host (host.setPlace record place) where
  __ := Within.refl record host
  places := fun _ hroot ↦ Function.update_of_ne hroot _ _
  present := fun root hroot ↦ by
    by_cases hsame : root = runtimeRoot record
    · subst hsame
      rw [ModuleHost.setPlace_places, Function.update_self]
      exact h hroot
    · rwa [ModuleHost.setPlace_places, Function.update_of_ne hsame]

section places

variable {place : Place} {runtime : Runtime}

theorem Place.runtime_eq_some : place.runtime = some runtime ↔ place = .runs runtime := by
  cases place with
  | runs found => simp [Place.runtime]
  | _ => simp [Place.runtime]

theorem Place.made_isSome (h : place.runtime.isSome = true) : place.made.runtime.isSome = true := by
  cases place with
  | runs found => rfl
  | _ => cases h

theorem Place.staged_isSome (version : String) (left : List String)
    (h : place.runtime.isSome = true) : (place.staged version left).runtime.isSome = true := by
  cases place with
  | runs found =>
    rw [Place.staged]
    split_ifs
    · rfl
    · rfl
  | _ => cases h

theorem Place.linked_isSome : (place.linked runtime).runtime.isSome = true := by
  cases place with
  | runs found =>
    rw [Place.linked]
    split_ifs
    · rfl
    · rfl
  | _ => rfl

theorem Installer.apply_isSome (installer : Installer) (version binary : String)
    (h : place.runtime.isSome = true) :
    (installer.apply version binary place).runtime.isSome = true := by
  cases installer with
  | refused => exact h
  | started => exact Place.made_isSome h
  | staged left => exact Place.staged_isSome version left h
  | switched => exact Place.linked_isSome

theorem Place.rolledBack_isSome {previous now : Place} (h : previous.rolledBack now = some place)
    (hnow : now.runtime.isSome = true) (hprevious : previous ≠ .bare) :
    place.runtime.isSome = true := by
  obtain ⟨found, hfound⟩ := Option.isSome_iff_exists.mp hnow
  rw [Place.runtime_eq_some.mp hfound] at h
  cases previous with
  | runs before =>
    rw [Place.rolledBack] at h
    split_ifs at h
    · obtain rfl := Option.some.inj h
      rfl
    · obtain rfl := Option.some.inj h
      rfl
  | bare => exact absurd rfl hprevious
  | absent => cases h
  | looped => cases h

end places

theorem within_remember (version : String) :
    Within record host (host.remember record.id version) :=
  { Within.refl record host with }

theorem within_runCoreInstaller (version : String) (download : Download) :
    Within record host (runCoreInstaller host record version download attempt) := by
  have hact : Within record host
      (host.act [.install record.id version record.binary download]) :=
    { Within.refl record host with
      acts := .one ⟨.install version download, fun _ h ↦ by cases h⟩ }
  unfold runCoreInstaller
  dsimp only
  split_ifs
  · exact hact.trans (within_setPlace Place.made_isSome)
  · exact hact.trans (within_setPlace (attempt.installer.apply_isSome _ _))
  · exact hact

theorem within_restoreServiceState :
    Within record host (restoreServiceState host record.service attempt).2 := by
  have henabled : Within record host (if attempt.wasEnabled = true then
      host.act [.service "enable" record.service] else host) := by
    split_ifs
    · exact within_service _
    · exact Within.refl record host
  unfold restoreServiceState
  generalize (if attempt.wasEnabled = true then host.act [.service "enable" record.service]
    else host) = enabled at henabled
  dsimp only
  split_ifs
  · exact Within.refl record host
  · exact henabled
  · exact henabled.trans (within_service _)
  · exact henabled

theorem within_rollbackSymlink (h : Within record host host') :
    Within record host (rollbackSymlink host' record (host.placeOf record) attempt) := by
  unfold rollbackSymlink
  cases hback : (host.placeOf record).rolledBack (host'.placeOf record) with
  | none => exact h
  | some place =>
    have hplaced : Within record host (host'.setPlace record place) :=
      { h with
        places := fun root hroot ↦ (Function.update_of_ne hroot _ _).trans (h.places root hroot)
        present := fun root hroot ↦ by
          by_cases hsame : root = runtimeRoot record
          · subst hsame
            rw [ModuleHost.setPlace_places, Function.update_self]
            refine Place.rolledBack_isSome hback (h.present _ hroot) fun hbare ↦ ?_
            rw [ModuleHost.placeOf] at hbare
            rw [hbare] at hroot
            cases hroot
          · rw [ModuleHost.setPlace_places, Function.update_of_ne hsame]
            exact h.present root hroot }
    dsimp only
    split_ifs
    · exact h
    · exact hplaced.trans (within_service _)
    · exact hplaced

theorem within_installReleaseModule (allowDowngrade : Bool) :
    Within record host (installReleaseModule host record allowDowngrade attempt).2 := by
  unfold installReleaseModule
  cases attempt.metadata with
  | none => exact Within.refl record host
  | some metadata =>
    obtain ⟨tag, url⟩ := metadata
    cases attempt.fetched with
    | none =>
      dsimp only
      split_ifs
      all_goals exact Within.refl record host
    | some download =>
      have hinstalled : Within record host (restoreServiceState (runCoreInstaller host record
          (normalizeVersion tag) download attempt) record.service attempt).2 :=
        (within_runCoreInstaller _ _).trans within_restoreServiceState
      dsimp only
      split_ifs
      all_goals first
        | exact Within.refl record host
        | skip
      · exact hinstalled.trans (within_remember _)
      · exact within_rollbackSymlink hinstalled

theorem within_updateModule (host : ModuleHost) (id : String) (allowDowngrade : Bool)
    (attempt : Attempt) :
    (updateModule host id allowDowngrade attempt).2 = host ∨
      ∃ record, loadModule host.active id = some record ∧
        Within record host (updateModule host id allowDowngrade attempt).2 := by
  unfold updateModule
  cases hload : loadModule host.active id with
  | none => exact .inl rfl
  | some record =>
    dsimp only
    split_ifs
    · exact .inl rfl
    · exact .inr ⟨record, rfl, within_installReleaseModule allowDowngrade⟩

theorem automaticOne_eq (host : ModuleHost) (id : String) (attempt : Attempt) :
    (automaticOne host id attempt).2 = host ∨
      (automaticOne host id attempt).2 = (updateModule host id false attempt).2 := by
  unfold automaticOne
  generalize updateModule host id false attempt = result
  obtain ⟨success, next⟩ := result
  split_ifs
  · exact .inl rfl
  · cases success with
    | true => exact .inr rfl
    | false => exact .inr rfl
  · exact .inl rfl

theorem active_updateModule (host : ModuleHost) (id : String) (allowDowngrade : Bool)
    (attempt : Attempt) : (updateModule host id allowDowngrade attempt).2.active = host.active := by
  rcases within_updateModule host id allowDowngrade attempt with hsame | ⟨record, -, hwithin⟩
  · rw [hsame]
  · exact hwithin.active

/-- A manifest that root has put up, and that the worker may act on. -/
def Known (start : ModuleHost) (file : ManifestFile) : Prop :=
  file ∈ start.active.files ∨ file ∈ start.available.files ∧ moduleIsRetired file.stem = false

/-- What the worker may do: the manifest says on which module. -/
def Authorised (start : ModuleHost) (act : Act) : Prop :=
  ∃ file spec, Known start file ∧ readManifest file = .ok spec ∧ Act.Of (recordOf spec) act

def Leads (aside : String → RuntimeLifecycleAction → Aside) (stem : String)
    (action : RuntimeLifecycleAction) (target : String) : Prop :=
  ∃ taken, aside stem action = .directory (some target) taken

/-- The links that the account of the panel has left up to some step. -/
def Planted (start : ModuleHost) (steps : List Step) (stem : String)
    (action : RuntimeLifecycleAction) (target : String) : Prop :=
  Leads start.aside stem action target ∨
    ∃ files, Step.panel files ∈ steps ∧ Leads files.aside stem action target

/-- A request is moved to where one of the links leads. -/
def Diverted (links : String → RuntimeLifecycleAction → String → Prop) (act : Act) : Prop :=
  ∃ stem action target, act = .moveInto target stem action ∧ links stem action target

variable {links : String → RuntimeLifecycleAction → String → Prop}

/-- What holds after every turn of the worker. -/
structure Confined (start : ModuleHost) (links : String → RuntimeLifecycleAction → String → Prop)
    (host : ModuleHost) : Prop where
  readable : Readable host.active
  known : ∀ file ∈ host.active.files, Known start file
  catalog : ∀ file ∈ host.available.files, file ∈ start.active.files ∨ file ∈ start.available.files
  left : ∀ stem action target, Leads host.aside stem action target → links stem action target
  acts : Adds (fun act ↦ Authorised start act ∨ Diverted links act) start host

theorem Confined.refl (h : Readable start.active)
    (hlinks : ∀ stem action target, Leads start.aside stem action target →
      links stem action target) : Confined start links start where
  readable := h
  known := fun _ hfile ↦ .inl hfile
  catalog := fun _ hfile ↦ .inr hfile
  left := hlinks
  acts := .same rfl

theorem Confined.authorised (h : Confined start links host)
    (hload : loadModule host.active id = some record) {act : Act} (hact : Act.Of record act) :
    Authorised start act := by
  obtain ⟨file, hfile, spec, -, hspec, rfl⟩ := loadModule_eq_some.mp hload
  exact ⟨file, spec, h.known file hfile, hspec, hact⟩

theorem Confined.same (h : Confined start links host) (hactive : host'.active = host.active)
    (havailable : host'.available = host.available) (haside : host'.aside = host.aside)
    (hacts : host'.acts = host.acts) : Confined start links host' where
  readable := hactive ▸ h.readable
  known := hactive ▸ h.known
  catalog := havailable ▸ h.catalog
  left := haside ▸ h.left
  acts := h.acts.trans (.same hacts)

theorem leads_clearAside {id : String} {action other : RuntimeLifecycleAction}
    (h : Leads (host.clearAside id action).aside stem other target) :
    Leads host.aside stem other target := by
  unfold ModuleHost.clearAside at h
  split at h
  · exact h
  · dsimp only at h
    obtain ⟨taken, htaken⟩ := h
    by_cases hstem : stem = id
    · subst hstem
      rw [Function.update_self] at htaken
      by_cases hother : other = action
      · subst hother
        rw [Function.update_self] at htaken
        cases htaken
      · rw [Function.update_of_ne hother] at htaken
        exact ⟨taken, htaken⟩
    · rw [Function.update_of_ne hstem] at htaken
      exact ⟨taken, htaken⟩

theorem Confined.clearAside (h : Confined start links host) (id : String)
    (action : RuntimeLifecycleAction) : Confined start links (host.clearAside id action) := by
  have hleft : ∀ stem other target, Leads (host.clearAside id action).aside stem other target →
      links stem other target := fun stem other target hlead ↦ h.left _ _ _ (leads_clearAside hlead)
  obtain ⟨aside, hclear⟩ := clearAside_eq host id action
  rw [hclear] at hleft ⊢
  exact { h with left := hleft }

theorem Confined.without (h : Confined start links host) : Confined start links (host.without id action) :=
  h.same rfl rfl rfl rfl

theorem Confined.settle (h : Confined start links host) : Confined start links (host.settle id action) :=
  h.without.clearAside id action

theorem Confined.setAside (h : Confined start links host) :
    Confined start links (host.setAside id action) := by
  rcases setAside_cases host id action with ⟨-, -, hstays⟩ | hmoved | ⟨target, hlink, hmoved⟩
  · rwa [hstays]
  · rw [hmoved]
    exact h.without
  · rw [hmoved]
    have hdiverted : Diverted links (.moveInto target id action) :=
      ⟨id, action, target, rfl, h.left _ _ _ ⟨false, hlink⟩⟩
    exact { h.without with acts := h.without.acts.trans (.one (.inr hdiverted)) }

theorem Confined.discard (h : Confined start links host) : Confined start links (host.discard id action) :=
  h.same rfl rfl rfl rfl

theorem Confined.updateModule (h : Confined start links host) (id : String) (allowDowngrade : Bool)
    (attempt : Attempt) : Confined start links (updateModule host id allowDowngrade attempt).2 := by
  rcases within_updateModule host id allowDowngrade attempt with hsame | ⟨record, hload, hwithin⟩
  · rwa [hsame]
  · have hauthorised : Adds (fun act ↦ Authorised start act ∨ Diverted links act) host
        (Updater.updateModule host id allowDowngrade attempt).2 :=
      hwithin.acts.mono fun act hof ↦ .inl (h.authorised hload hof.1)
    exact {
      readable := hwithin.active ▸ h.readable
      known := hwithin.active ▸ h.known
      catalog := hwithin.available ▸ h.catalog
      left := congrArg PanelFiles.aside hwithin.files ▸ h.left
      acts := h.acts.trans hauthorised }

theorem registrable_eq_some : host.registrable id = some file ↔ moduleIsRetired id = false ∧
    matchesModuleId id = true ∧ lookup host.active id = none ∧ lookup host.available id = some file ∧
      (readManifest file).isOk = true := by
  unfold ModuleHost.registrable
  constructor
  · intro h
    split_ifs at h with hchecks
    simp only [Bool.and_eq_true, Bool.not_eq_true', Option.isNone_iff_eq_none] at hchecks
    exact ⟨hchecks.1.1, hchecks.1.2, hchecks.2, Option.filter_eq_some_iff.mp h⟩
  · rintro ⟨hretired, hid, hactive, hsource, hread⟩
    rw [if_pos (by simp [hretired, hid, hactive])]
    exact Option.filter_eq_some_iff.mpr ⟨hsource, hread⟩

theorem Confined.place (h : Confined start links host) (hsource : host.registrable id = some file) :
    Confined start links { host with active := place host.active file } := by
  obtain ⟨hretired, -, -, hlookup, hread⟩ := registrable_eq_some.mp hsource
  obtain ⟨hmem, hstem⟩ := lookup_eq_some.mp hlookup
  refine { h with readable := fun other hother ↦ ?_, known := fun other hother ↦ ?_ }
  · rcases mem_place.mp hother with ⟨hother, -⟩ | rfl
    · exact h.readable other hother
    · exact Except.exists_of_isOk hread
  · rcases mem_place.mp hother with ⟨hother, -⟩ | rfl
    · exact h.known other hother
    · exact (h.catalog _ hmem).imp_right fun hstart ↦ ⟨hstart, hstem ▸ hretired⟩

theorem Confined.drop (h : Confined start links host) :
    Confined start links { host with active := drop host.active id } :=
  { h with
    readable := fun other hother ↦ h.readable other (mem_drop.mp hother).1
    known := fun other hother ↦ h.known other (mem_drop.mp hother).1 }

theorem Confined.registerOne (h : Confined start links host) (id : String) (attempt : Attempt) :
    ∃ outcome host', registerOne host id attempt = some (outcome, host') ∧
      Confined start links host' := by
  unfold Updater.registerOne
  split_ifs with hsafe
  · exact ⟨_, _, rfl, h.discard⟩
  cases hsource : host.registrable id with
  | none => exact ⟨_, _, rfl, h.setAside⟩
  | some source =>
    have hplaced := (h.place hsource).clearAside id .install
    obtain ⟨hmem, hstem⟩ := lookup_eq_some.mp (registrable_eq_some.mp hsource).2.2.2.1
    obtain ⟨record, hrecord⟩ := exists_loadModule (h.place hsource).readable (mem_place.mpr (.inr rfl))
    rw [hstem] at hrecord
    obtain ⟨aside, hclear⟩ := clearAside_eq
      { host with active := Updater.place host.active source } id .install
    dsimp only
    rw [hclear] at hplaced ⊢
    rw [hrecord, if_neg (by simp)]
    have hconfined := hplaced.updateModule id true attempt
    revert hconfined
    generalize Updater.updateModule _ id true attempt = result
    obtain ⟨success, next⟩ := result
    intro hconfined
    cases success with
    | true => exact ⟨_, _, rfl, hconfined.without⟩
    | false => exact ⟨_, _, rfl, hconfined.drop.setAside⟩

theorem Confined.removed (h : Confined start links host)
    (hload : loadModule host.active id = some record)
    (hfile : lookup host.active id = some file) : Confined start links (host.removed record file) := by
  obtain ⟨hmem, -⟩ := lookup_eq_some.mp hfile
  have hacts : Adds (fun act ↦ Authorised start act ∨ Diverted links act) host
      (host.removed record file) :=
    ⟨_, rfl, List.forall_mem_cons.mpr ⟨.inl (h.authorised hload (.service _)),
      List.forall_mem_singleton.mpr (.inl (h.authorised hload .erase))⟩⟩
  refine {
    readable := h.drop.readable
    known := h.drop.known
    catalog := fun other hother ↦ ?_
    left := h.left
    acts := h.acts.trans hacts }
  unfold ModuleHost.removed at hother
  dsimp only at hother
  split_ifs at hother
  · exact h.catalog other (mem_drop.mp hother).1
  · rcases mem_place.mp hother with ⟨hother, -⟩ | rfl
    · exact h.catalog other hother
    · exact (h.known _ hmem).imp_right And.left
  · exact h.catalog other hother

theorem Confined.removeOne (h : Confined start links host) (id : String) :
    Confined start links (removeOne host id).2 := by
  unfold Updater.removeOne
  by_cases hsafe : (!host.safeRequest id .remove) = true
  · rw [if_pos hsafe]
    exact h.discard
  rw [if_neg hsafe]
  cases hload : loadModule host.active id with
  | none => exact h.setAside
  | some record =>
    cases hfile : lookup host.active id with
    | none => exact h.setAside
    | some file =>
      dsimp only
      split_ifs
      · exact h.setAside
      · exact (h.removed hload hfile).settle

theorem Confined.lifecycleOne (h : Confined start links host) (action : RuntimeLifecycleAction)
    (id : String) (obeyed : Bool) : Confined start links (lifecycleOne host action id obeyed).2 := by
  unfold Updater.lifecycleOne
  cases hload : loadModule host.active id with
  | none =>
    dsimp only
    split_ifs
    · exact h.discard
    · exact h.setAside
    · exact h.setAside
  | some record =>
    have hadds : Adds (fun act ↦ Authorised start act ∨ Diverted links act) host
        (host.act [.service action.requestSuffix record.service]) :=
      .one (.inl (h.authorised hload (.service _)))
    have hact : Confined start links (host.act [.service action.requestSuffix record.service]) :=
      { h with acts := h.acts.trans hadds }
    dsimp only
    split_ifs
    · exact h.discard
    · exact h.setAside
    · exact h.setAside
    · exact hact.settle
    · exact hact.setAside

theorem Confined.runOne (h : Confined start links host) (id : String) (attempt : Attempt) :
    Confined start links (runOne host id attempt).2 := by
  unfold Updater.runOne
  have hupdated := h.updateModule id true attempt
  revert hupdated
  generalize Updater.updateModule host id true attempt = result
  obtain ⟨success, next⟩ := result
  intro hupdated
  split_ifs
  · exact h
  · exact h.setAside
  · exact h.discard
  · cases success with
    | true => exact hupdated.settle
    | false => exact hupdated.setAside

theorem Confined.automaticOne (h : Confined start links host) (id : String) (attempt : Attempt) :
    Confined start links (automaticOne host id attempt).2 := by
  unfold Updater.automaticOne
  have hupdated := h.updateModule id false attempt
  revert hupdated
  generalize Updater.updateModule host id false attempt = result
  obtain ⟨success, next⟩ := result
  intro hupdated
  split_ifs
  · exact h
  · cases success with
    | true => exact hupdated
    | false => exact hupdated
  · exact h

theorem begin_eq (host : ModuleHost) (found : RequestPath) : ∃ requests requestOwner,
    (begin host found).getD host = { host with requests, requestOwner } := by
  cases hbegin : begin host found with
  | none => exact ⟨host.requests, host.requestOwner, rfl⟩
  | some next =>
    obtain ⟨prepared, hprepared, hnext⟩ := Option.bind_eq_some_iff.mp hbegin
    split_ifs at hnext
    obtain rfl := Option.some.inj hnext
    cases found with
    | missing =>
      obtain rfl := Option.some.inj hprepared
      exact ⟨_, _, rfl⟩
    | directory owner mode =>
      rw [prepareRequestDir] at hprepared
      split_ifs at hprepared
      obtain rfl := Option.some.inj hprepared
      exact ⟨_, _, rfl⟩
    | other => cases hprepared

theorem begin_same (host : ModuleHost) (found : RequestPath) :
    ((begin host found).getD host).active = host.active ∧
      ((begin host found).getD host).places = host.places ∧
        ((begin host found).getD host).applied = host.applied := by
  obtain ⟨requests, requestOwner, hbegin⟩ := begin_eq host found
  rw [hbegin]
  exact ⟨rfl, rfl, rfl⟩

theorem begin_acts (host : ModuleHost) (found : RequestPath) :
    ((begin host found).getD host).acts = host.acts := by
  obtain ⟨requests, requestOwner, hbegin⟩ := begin_eq host found
  rw [hbegin]

theorem Confined.begin (h : Confined start links host) (found : RequestPath) :
    Confined start links ((begin host found).getD host) := by
  obtain ⟨requests, requestOwner, hbegin⟩ := begin_eq host found
  rw [hbegin]
  exact h.same rfl rfl rfl rfl

theorem Confined.step (h : Confined start links host) (step : Step)
    (hlinks : ∀ files, step = .panel files → ∀ stem action target,
      Leads files.aside stem action target → links stem action target) :
    ∃ host', host.step step = some host' ∧ Confined start links host' := by
  cases step with
  | panel files => exact ⟨_, rfl, { h with left := hlinks files rfl }⟩
  | reconciled applied => exact ⟨_, rfl, h.same rfl rfl rfl rfl⟩
  | begin found => exact ⟨_, rfl, h.begin found⟩
  | due now => exact ⟨_, rfl, h⟩
  | register id attempt =>
    obtain ⟨outcome, host', hregister, hconfined⟩ := h.registerOne id attempt
    exact ⟨host', by rw [ModuleHost.step, hregister]; rfl, hconfined⟩
  | remove id => exact ⟨_, rfl, h.removeOne id⟩
  | lifecycle action id obeyed => exact ⟨_, rfl, h.lifecycleOne action id obeyed⟩
  | update id attempt => exact ⟨_, rfl, h.runOne id attempt⟩
  | automatic id attempt => exact ⟨_, rfl, h.automaticOne id attempt⟩

theorem Confined.run (h : Confined start links host) (steps : List Step)
    (hlinks : ∀ files, .panel files ∈ steps → ∀ stem action target,
      Leads files.aside stem action target → links stem action target) :
    ∃ host', host.run steps = some host' ∧ Confined start links host' := by
  induction steps generalizing host with
  | nil => exact ⟨host, rfl, h⟩
  | cons step rest ih =>
    obtain ⟨next, hstep, hnext⟩ :=
      h.step step fun files hfiles ↦ hlinks files (hfiles ▸ List.mem_cons_self)
    obtain ⟨host', hrun, hconfined⟩ :=
      ih hnext fun files hfiles ↦ hlinks files (List.mem_cons_of_mem _ hfiles)
    refine ⟨host', ?_, hconfined⟩
    rw [ModuleHost.run, List.foldlM_cons, hstep]
    exact hrun

theorem exists_run (h : Readable start.active) (steps : List Step) :
    ∃ host, start.run steps = some host ∧ Confined start (Planted start steps) host :=
  (Confined.refl h fun _ _ _ ↦ .inl).run steps
    fun files hfiles _ _ _ hlead ↦ .inr ⟨files, hfiles, hlead⟩

def oneRequest (id : String) (action : RuntimeLifecycleAction) : RequestDirectory :=
  ⟨[⟨id, action, ⟨.regular, 997, 0o640, 46⟩⟩], List.nodup_singleton _⟩

def noManifests : ModuleDirectory := ⟨[], List.nodup_nil⟩

def demoFiles (requests : RequestDirectory) : PanelFiles where
  requests
  aside := fun _ _ ↦ .free
  states := fun _ ↦ none
  policy := none

def demoHost (applied : Option String) : ModuleHost where
  toPanelFiles := demoFiles noRequests
  active := Manager.demoDirectory
  available := noManifests
  appUser := 997
  requestOwner := 997
  places := Function.update (fun _ ↦ .absent) "/opt/infiproxy/cores/demo" (.runs ⟨"1.2.0", ["demo"]⟩)
  remembered := fun _ ↦ none
  applied
  lastAuto := none
  acts := []

def demoRemoval : List Step :=
  [.panel (demoFiles (oneRequest "demo" .remove)), .begin (.directory 997 0o750), .remove "demo"]

end StealthHub.Updater

import StealthHub.Data.LexicalPath
import StealthHub.Modules.PipeProtocol

set_option autoImplicit false

namespace StealthHub.Modules

open Text LexicalPath

variable {content key value : String} {path : ManifestPath} {registration : Bool}
  {spec other : ModuleSpec}

def Gives (content key value : String) : Prop := ∃ line ∈ lines content, Assigns line key value

def IsBareDirectory (coreId configPath : String) : Prop :=
  ∃ rest, configPath = coreConfigDirectory coreId ++ "/" ++ rest ∧
    ∀ c ∈ rest.toList, c = '.' ∨ c = '/'

/-- The manifest gives a name every directory has to the binary, or the bare directory of the
module to its configuration. -/
def NamesDirectory (content : String) (path : ManifestPath) : Prop :=
  Gives content "binary" "." ∨ Gives content "binary" ".." ∨
    ∃ value, Gives content "config" value ∧ IsBareDirectory (path.fileStem.getD "") value

def ConfigContained (spec : ModuleSpec) : Prop :=
  spec.driver = "release" ∧ StrictlyBelow spec.configPath (coreConfigDirectory spec.id) ∨
    spec.driver = "mtproto-source" ∧
      StrictlyBelow spec.configPath (coreConfigDirectory "mtproto") ∨
    spec.driver = "headscale" ∧ spec.configPath = "/etc/headscale/config.yaml"

/-- Neither path is that of another module, nor is the service. -/
structure Unshared (spec other : ModuleSpec) : Prop where
  binary : normalize spec.binaryPath ≠ normalize other.binaryPath
  config : normalize spec.configPath ≠ normalize other.configPath
  service : spec.service ≠ other.service

structure StaysInTree (spec : ModuleSpec) : Prop where
  binary : StrictlyBelow spec.binaryPath (currentDirectory spec.root spec.id)
  config : ConfigContained spec
  service : spec.driver = "release" → spec.service = releaseService spec.id
  unshared (content : String) (path : ManifestPath) (registration : Bool) (other : ModuleSpec) :
    parseManifest content path registration = .ok other → spec.driver = "release" →
      other.driver = "release" → spec.id ≠ other.id → Unshared spec other

/-- A component that is a name and nothing else. -/
structure IsName (component : String) : Prop where
  moves : Moves component
  parent : component ≠ ".."
  slash : '/' ∉ component.toList

instance (component : String) : Decidable (IsName component) :=
  decidable_of_iff (Moves component ∧ component ≠ ".." ∧ '/' ∉ component.toList)
    ⟨fun h ↦ ⟨h.1, h.2.1, h.2.2⟩, fun h ↦ ⟨h.moves, h.parent, h.slash⟩⟩

theorem IsName.of_forall {component : String} (hempty : component ≠ "")
    (h : ∀ c ∈ component.toList, c ≠ '.' ∧ c ≠ '/') : IsName component where
  moves := by
    refine ⟨hempty, ?_⟩
    rintro rfl
    exact (h '.' (by decide)).1 rfl
  parent := by
    rintro rfl
    exact (h '.' (by decide)).1 rfl
  slash hmem := (h '/' hmem).2 rfl

theorem IsName.of_validId (h : validId value = true) : IsName value := by
  simp only [validId, Bool.and_eq_true, Bool.not_eq_true'] at h
  obtain ⟨⟨⟨hempty, -⟩, -⟩, hall⟩ := h
  refine .of_forall ?_ fun c hc ↦ ?_
  · rintro rfl
    cases hempty
  · have hchar := List.all_eq_true.mp hall c hc
    constructor
    · rintro rfl
      revert hchar
      decide
    · rintro rfl
      revert hchar
      decide

theorem safeFilename_ne (h : safeFilename value = true) : value ≠ "" ∧ '/' ∉ value.toList := by
  simp only [safeFilename, Bool.and_eq_true, Bool.not_eq_true'] at h
  obtain ⟨⟨hempty, -⟩, hall⟩ := h
  constructor
  · rintro rfl
    cases hempty
  · intro hmem
    have hchar := List.all_eq_true.mp hall '/' hmem
    revert hchar
    decide

theorem startsWith_appended (s t u v : String) : startsWith (s ++ t ++ u ++ v) s = true := by
  rw [startsWith, List.isPrefixOf_iff_prefix]
  simp only [String.toList_append, List.append_assoc]
  exact List.prefix_append _ _

theorem startsWith_append {s t : String} (h : startsWith s t = true) : ∃ rest, s = t ++ rest := by
  obtain ⟨rest, hrest⟩ := List.isPrefixOf_iff_prefix.mp h
  refine ⟨String.ofList rest, ?_⟩
  rw [← String.toList_inj, String.toList_append, String.toList_ofList, hrest]

theorem IsBareDirectory.begins {coreId configPath : String}
    (h : IsBareDirectory coreId configPath) :
    startsWith configPath "/etc/infiproxy-cores/" = true := by
  obtain ⟨rest, hconfig, -⟩ := h
  rw [hconfig]
  exact startsWith_appended _ _ _ _

/-- What the manifest gives to the keys the paths are made of. -/
structure Given (content : String) (path : ManifestPath) (registration : Bool)
    (spec : ModuleSpec) : Prop where
  accepted : Accepted spec registration
  stem : spec.id = path.fileStem.getD ""
  binaryPath : spec.binaryPath = currentDirectory spec.root spec.id ++ "/" ++ spec.binary
  binary : ∀ value, Gives content "binary" value ↔ spec.binary = value
  config : ∀ value, Gives content "config" value ↔ spec.configPath = value

theorem parseManifest_given (h : parseManifest content path registration = .ok spec) :
    Given content path registration spec := by
  obtain ⟨values, read, hlines, hreads, hvalid⟩ := parseManifest_ok h
  obtain ⟨haccepted, rfl⟩ := validateSpec_ok hvalid
  have hgives {key given : String} (hget : values.get? key = some given) (value : String) :
      Gives content key value ↔ given = value := by
    have hstored := parseLines_get? hlines key value
    rw [hget, Option.some_inj, OrderedMap.get?_empty] at hstored
    rw [hstored]
    simp [Gives]
  exact {
    accepted := ⟨haccepted.id, haccepted.name, haccepted.kind, haccepted.role, haccepted.repo,
      haccepted.upstream, haccepted.root, haccepted.binary, haccepted.service, haccepted.config,
      haccepted.assets, haccepted.driver, haccepted.registered⟩
    stem := hreads.stem
    binaryPath := rfl
    binary := hgives hreads.binary
    config := hgives hreads.config }

/-- What the driver of an accepted module says about its service and its configuration. -/
inductive Contract (spec : ModuleSpec) : Prop
  | release (driver : spec.driver = "release") (root : spec.root = "cores")
      (service : spec.service = releaseService spec.id)
      (config : startsWith spec.configPath (coreConfigDirectory spec.id ++ "/") = true)
  | headscale (driver : spec.driver = "headscale") (id : spec.id = "headscale")
      (config : spec.configPath = "/etc/headscale/config.yaml")
  | mtproto (driver : spec.driver = "mtproto-source") (id : spec.id = "mtproto")
      (config : startsWith spec.configPath "/etc/infiproxy-cores/mtproto/" = true)

theorem validateDriver_ok (h : validateDriver spec = .ok ()) : Contract spec := by
  rw [validateDriver] at h
  split_ifs at h with hrelease hbad hheadscale hbad hmtproto hbad
  · simp only [Bool.or_eq_true, decide_eq_true_eq, Bool.not_eq_true', not_or, ne_eq, not_not,
      Bool.not_eq_false] at hbad
    exact .release hrelease hbad.1.1 hbad.1.2 hbad.2
  · simp only [Bool.or_eq_true, decide_eq_true_eq, not_or, ne_eq, not_not] at hbad
    exact .headscale hheadscale hbad.1.1.1 hbad.2
  · simp only [Bool.or_eq_true, decide_eq_true_eq, Bool.not_eq_true', not_or, ne_eq, not_not,
      Bool.not_eq_false] at hbad
    exact .mtproto hmtproto hbad.1.1.1 hbad.2

namespace Given

variable (hgiven : Given content path registration spec)
include hgiven

theorem binary_strictlyBelow_iff :
    StrictlyBelow spec.binaryPath (currentDirectory spec.root spec.id) ↔
      ¬Gives content "binary" "." ∧ ¬Gives content "binary" ".." := by
  obtain ⟨hempty, hslash⟩ := safeFilename_ne hgiven.accepted.binary
  rw [hgiven.binaryPath, strictlyBelow_child_iff hempty hslash, hgiven.binary, hgiven.binary]

theorem noParent {before rest : String} (h : spec.configPath = before ++ rest) :
    ¬['.', '.'] <:+: rest.toList := by
  have hdots : containsList "..".toList spec.configPath.toList = false := hgiven.accepted.config.2.1
  intro hwithin
  have hcontains : containsList "..".toList spec.configPath.toList = true := by
    rw [containsList_iff, h, String.toList_append]
    exact hwithin.trans (List.suffix_append _ _).isInfix
  rw [hdots] at hcontains
  cases hcontains

theorem config_strictlyBelow_iff
    (h : startsWith spec.configPath (coreConfigDirectory spec.id ++ "/") = true) :
    StrictlyBelow spec.configPath (coreConfigDirectory spec.id) ↔
      ¬∃ value, Gives content "config" value ∧
        IsBareDirectory (path.fileStem.getD "") value := by
  obtain ⟨rest, hconfig⟩ := startsWith_append h
  rw [← hgiven.stem]
  simp only [hgiven.config, exists_eq_left', IsBareDirectory]
  rw [hconfig, strictlyBelow_iff (hgiven.noParent hconfig)]
  constructor
  · rintro ⟨c, hc, hdot, hslash⟩ ⟨rest', heq, hbare⟩
    obtain rfl : rest = rest' := String.append_right_inj _ |>.mp heq
    rcases hbare c hc with h | h
    · exact hdot h
    · exact hslash h
  · intro hnone
    by_contra hall
    push Not at hall
    refine hnone ⟨rest, rfl, fun c hc ↦ ?_⟩
    by_cases hdot : c = '.'
    · exact .inl hdot
    · exact .inr (hall c hc hdot)

theorem configContained_iff : ConfigContained spec ↔
    ¬∃ value, Gives content "config" value ∧ IsBareDirectory (path.fileStem.getD "") value := by
  rw [ConfigContained]
  rcases validateDriver_ok hgiven.accepted.driver with
    ⟨hdriver, -, -, hconfig⟩ | ⟨hdriver, hid, hconfig⟩ | ⟨hdriver, hid, hconfig⟩
  · rw [hgiven.config_strictlyBelow_iff hconfig]
    simp [hdriver]
  · have hbare : ¬IsBareDirectory (path.fileStem.getD "") spec.configPath := by
      intro hbare
      have hother : startsWith "/etc/headscale/config.yaml" "/etc/infiproxy-cores/" = false := by
        decide
      rw [← hconfig, hbare.begins] at hother
      cases hother
    simp only [hgiven.config, exists_eq_left', hbare, not_false_eq_true, iff_true]
    exact .inr (.inr ⟨hdriver, hconfig⟩)
  · have hdirectory : startsWith spec.configPath (coreConfigDirectory spec.id ++ "/") = true := by
      rw [hid]
      exact hconfig
    rw [← hgiven.config_strictlyBelow_iff hdirectory, hid]
    simp [hdriver]

theorem service_own (hdriver : spec.driver = "release") :
    spec.service = releaseService spec.id := by
  have hcontract := validateDriver_ok hgiven.accepted.driver
  cases hcontract with
  | release _ _ hservice _ => exact hservice
  | headscale hother _ _ => exact absurd (hdriver.symm.trans hother) (by decide)
  | mtproto hother _ _ => exact absurd (hdriver.symm.trans hother) (by decide)

end Given

theorem IsName.child {name : String} (hname : IsName name) (directory : String) :
    normalize (directory ++ "/" ++ name) = normalize directory ++ [name] :=
  normalize_name hname.moves hname.parent hname.slash

theorem append_regroup {before base slash after last : String} (hbefore : before = base ++ slash)
    (hlast : last = slash ++ after) (first second : String) :
    before ++ first ++ slash ++ second ++ last =
      base ++ slash ++ first ++ slash ++ second ++ slash ++ after := by
  rw [hbefore, hlast]
  simp only [String.append_assoc]

theorem normalize_currentDirectory {root id : String} (hroot : IsName root) (hid : IsName id) :
    normalize (currentDirectory root id) = ["opt", "infiproxy", root, id, "current"] := by
  have hopt : "/opt/infiproxy/" = "/opt/infiproxy" ++ "/" := by decide
  have hcurrent : "/current" = "/" ++ "current" := by decide
  have hbase : normalize "/opt/infiproxy" = ["opt", "infiproxy"] := by decide
  have hlast : IsName "current" := by decide
  calc
    _ = normalize ("/opt/infiproxy" ++ "/" ++ root ++ "/" ++ id ++ "/" ++ "current") :=
      congrArg normalize (append_regroup hopt hcurrent root id)
    _ = normalize ("/opt/infiproxy" ++ "/" ++ root ++ "/" ++ id) ++ ["current"] :=
      hlast.child _
    _ = normalize ("/opt/infiproxy" ++ "/" ++ root) ++ [id] ++ ["current"] :=
      congrArg (· ++ ["current"]) (hid.child _)
    _ = normalize "/opt/infiproxy" ++ [root] ++ [id] ++ ["current"] :=
      congrArg (· ++ [id] ++ ["current"]) (hroot.child _)
    _ = ["opt", "infiproxy", root, id, "current"] := by
      rw [hbase]
      rfl

theorem normalize_coreConfigDirectory {id : String} (hid : IsName id) :
    normalize (coreConfigDirectory id) = ["etc", "infiproxy-cores", id] := by
  have hetc : "/etc/infiproxy-cores/" = "/etc/infiproxy-cores" ++ "/" := by decide
  have hbase : normalize "/etc/infiproxy-cores" = ["etc", "infiproxy-cores"] := by decide
  calc
    _ = normalize ("/etc/infiproxy-cores" ++ "/" ++ id) :=
      congrArg (fun before ↦ normalize (before ++ id)) hetc
    _ = normalize "/etc/infiproxy-cores" ++ [id] := hid.child _
    _ = ["etc", "infiproxy-cores", id] := by
      rw [hbase]
      rfl

theorem cores_isName : IsName "cores" := by decide

theorem Given.unshared {content' : String} {path' : ManifestPath} {registration' : Bool}
    (hgiven : Given content path registration spec)
    (hother : Given content' path' registration' other) (hdriver : spec.driver = "release")
    (hdriver' : other.driver = "release") (hne : spec.id ≠ other.id) : Unshared spec other := by
  have hrelease {content : String} {path : ManifestPath} {registration : Bool} {spec : ModuleSpec}
      (hgiven : Given content path registration spec) (hdriver : spec.driver = "release") :
      (normalize spec.binaryPath).take 4 = ["opt", "infiproxy", "cores", spec.id] ∧
        (normalize spec.configPath).take 3 = ["etc", "infiproxy-cores", spec.id] := by
    have hid := IsName.of_validId hgiven.accepted.id
    cases validateDriver_ok hgiven.accepted.driver with
    | release _ hroot _ hconfig =>
      constructor
      · have hdirectory := normalize_currentDirectory cores_isName hid
        rw [hgiven.binaryPath, hroot, normalize_child (safeFilename_ne hgiven.accepted.binary).2,
          hdirectory, take_push (by simp)]
        rfl
      · obtain ⟨rest, hrest⟩ := startsWith_append hconfig
        rw [hrest, normalize_below (parent_not_mem_split (hgiven.noParent hrest)),
          normalize_coreConfigDirectory hid]
        rfl
    | headscale hother _ _ => exact absurd (hdriver.symm.trans hother) (by decide)
    | mtproto hother _ _ => exact absurd (hdriver.symm.trans hother) (by decide)
  obtain ⟨hbinary, hconfig⟩ := hrelease hgiven hdriver
  obtain ⟨hbinary', hconfig'⟩ := hrelease hother hdriver'
  constructor
  · intro heq
    rw [heq, hbinary'] at hbinary
    exact hne (by simpa using hbinary.symm)
  · intro heq
    rw [heq, hconfig'] at hconfig
    exact hne (by simpa using hconfig.symm)
  · intro heq
    rw [hgiven.service_own hdriver, hother.service_own hdriver', releaseService, releaseService,
      String.append_left_inj, String.append_right_inj] at heq
    exact hne heq

/-- An accepted module stays in its own tree unless its manifest names a directory where a file
is expected. -/
theorem staysInTree_iff (content : String) (path : ManifestPath) (registration : Bool)
    (spec : ModuleSpec) (h : parseManifest content path registration = .ok spec) :
    StaysInTree spec ↔ ¬NamesDirectory content path := by
  have hgiven := parseManifest_given h
  have hnames : ¬NamesDirectory content path ↔
      StrictlyBelow spec.binaryPath (currentDirectory spec.root spec.id) ∧
        ConfigContained spec := by
    rw [hgiven.binary_strictlyBelow_iff, hgiven.configContained_iff, NamesDirectory, not_or,
      not_or, and_assoc]
  rw [hnames]
  constructor
  · intro hstays
    exact ⟨hstays.binary, hstays.config⟩
  · rintro ⟨hbinary, hconfig⟩
    exact {
      binary := hbinary
      config := hconfig
      service := hgiven.service_own
      unshared := fun _ _ _ other hother hdriver hdriver' hne ↦
        hgiven.unshared (parseManifest_given hother) hdriver hdriver' hne }

theorem parent_as_binary_accepted :
    ¬∀ (content : String) (path : ManifestPath) (registration : Bool) (spec : ModuleSpec),
      parseManifest content path registration = .ok spec → StaysInTree spec := by
  intro h
  have hstays := h (demoManifest "..") demoPath false _
    (demoManifest_accepted (List.mem_cons_of_mem _ List.mem_cons_self))
  have hbelow : ¬StrictlyBelow (currentDirectory "cores" "demo" ++ "/" ++ "..")
      (currentDirectory "cores" "demo") := by decide
  exact hbelow hstays.binary

theorem staysInTree_iff_demo : StaysInTree (acceptedDemo "demo") := by
  have haccepted : parseManifest (demoManifest "demo") demoPath false = .ok (acceptedDemo "demo") :=
    demoManifest_accepted List.mem_cons_self
  have hgiven := parseManifest_given haccepted
  have hnames : ¬NamesDirectory (demoManifest "demo") demoPath := by
    rw [NamesDirectory, not_or, not_or, ← and_assoc, ← hgiven.binary_strictlyBelow_iff,
      ← hgiven.configContained_iff]
    exact ⟨by decide, .inl ⟨rfl, by decide⟩⟩
  exact (staysInTree_iff (demoManifest "demo") demoPath false _ haccepted).mpr hnames

end StealthHub.Modules

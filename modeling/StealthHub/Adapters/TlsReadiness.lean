import Mathlib.Data.List.Infix
import Mathlib.Data.Nat.Bitwise
import StealthHub.Data.FileTree

set_option autoImplicit false

namespace StealthHub.Adapters

structure Metadata where
  uid : ℕ
  gid : ℕ
  mode : ℕ

structure RuntimeIdentity where
  uid : ℕ
  gid : ℕ

inductive RuntimeAccess
  | read
  | traverse

abbrev TlsTree := FileTree String Metadata

abbrev TlsPath := FilePath String

namespace TlsPath

/-- `Path::components`, which has no place for `.` in an absolute path. -/
def names (path : TlsPath) : List (Component String) := path.components.filter (· ≠ .current)

def parent (path : TlsPath) : Option TlsPath :=
  match path.names with
  | [] => none
  | names => some { path with components := names.dropLast }

def ancestors (path : TlsPath) : List TlsPath :=
  path.names.inits.reverse.map fun names ↦ { path with components := names }

end TlsPath

def canonical (names : List String) : TlsPath := ⟨true, names.map .name⟩

def metadataAllows (metadata : Metadata) (identity : RuntimeIdentity)
    (ownerPermission groupPermission otherPermission : ℕ) : Bool :=
  if metadata.uid = identity.uid then metadata.mode &&& ownerPermission ≠ 0
  else if metadata.gid = identity.gid then metadata.mode &&& groupPermission ≠ 0
  else metadata.mode &&& otherPermission ≠ 0

/-- `panel` says which directories the process that checks can search itself. -/
structure Inspection where
  tree : TlsTree
  panel : Metadata → Bool
  maxLinks : ℕ

namespace Inspection

variable (host : Inspection)

/-- `fs::canonicalize` of an absolute path. -/
def canonicalize (path : TlsPath) : Option TlsPath :=
  (host.tree.resolve host.panel host.maxLinks [] path.components).map canonical

/-- `fs::metadata` of an absolute path. -/
def metadata (path : TlsPath) : Option (FileNode String Metadata) :=
  (host.tree.resolve host.panel host.maxLinks [] path.components).bind host.tree.entry

def ancestorsAllowTraversal (path : TlsPath) (identity : RuntimeIdentity) : Bool :=
  path.absolute && path.ancestors.all fun ancestor ↦ (host.metadata ancestor).any fun node ↦
    node.isDirectory && metadataAllows node.attributes identity 0o100 0o010 0o001

def pathModesAllowRuntime (path : TlsPath) (identity : RuntimeIdentity) (access : RuntimeAccess) :
    Bool :=
  match path.parent with
  | none => false
  | some linkParent =>
    if !host.ancestorsAllowTraversal linkParent identity then false
    else
      match host.canonicalize path with
      | none => false
      | some resolved =>
        match resolved.parent with
        | none => false
        | some targetParent =>
          if !host.ancestorsAllowTraversal targetParent identity then false
          else (host.metadata resolved).any fun node ↦
            match access with
            | .read => metadataAllows node.attributes identity 0o400 0o040 0o004
            | .traverse => metadataAllows node.attributes identity 0o100 0o010 0o001

end Inspection

def RuntimeIdentity.bits (identity : RuntimeIdentity) (metadata : Metadata) : ℕ :=
  if metadata.uid = identity.uid then metadata.mode >>> 6
  else if metadata.gid = identity.gid then metadata.mode >>> 3
  else metadata.mode

def RuntimeIdentity.may (identity : RuntimeIdentity) (access : RuntimeAccess)
    (metadata : Metadata) : Bool :=
  match access with
  | .read => (identity.bits metadata).testBit 2
  | .traverse => (identity.bits metadata).testBit 0

/-- The kernel lets the runtime have the file that an absolute path leads to. -/
def Granted (host : Inspection) (path : TlsPath) (identity : RuntimeIdentity)
    (access : RuntimeAccess) : Prop :=
  ∃ target node, host.tree.resolve (identity.may .traverse) host.maxLinks [] path.components =
    some target ∧ host.tree.entry target = some node ∧ identity.may access node.attributes

/-- A directory that lies on the given path or on the canonical one. -/
inductive Inspected (host : Inspection) (path : TlsPath) (directory : List String) : Prop
  | given (parent ancestor : TlsPath) (hparent : path.parent = some parent)
      (hancestor : ancestor ∈ parent.ancestors)
      (hleads : host.tree.leads host.maxLinks [] ancestor.components = some directory)
  | canonical (target : List String)
      (hleads : host.tree.leads host.maxLinks [] path.components = some target)
      (hbegins : directory <+: target.dropLast)

variable {host : Inspection} {path : TlsPath} {identity : RuntimeIdentity}
variable {access : RuntimeAccess} {metadata : Metadata}

theorem and_two_pow_ne_zero {n k : ℕ} : n &&& 2 ^ k ≠ 0 ↔ n.testBit k = true := by
  rw [Nat.and_two_pow]
  cases n.testBit k <;> simp

theorem metadataAllows_traverse :
    metadataAllows metadata identity 0o100 0o010 0o001 = identity.may .traverse metadata := by
  rw [metadataAllows, RuntimeIdentity.may, RuntimeIdentity.bits, Bool.eq_iff_iff]
  split_ifs
  · rw [decide_eq_true_iff, Nat.testBit_shiftRight]
    exact and_two_pow_ne_zero (k := 6)
  · rw [decide_eq_true_iff, Nat.testBit_shiftRight]
    exact and_two_pow_ne_zero (k := 3)
  · rw [decide_eq_true_iff]
    exact and_two_pow_ne_zero (k := 0)

theorem metadataAllows_read :
    metadataAllows metadata identity 0o400 0o040 0o004 = identity.may .read metadata := by
  rw [metadataAllows, RuntimeIdentity.may, RuntimeIdentity.bits, Bool.eq_iff_iff]
  split_ifs
  · rw [decide_eq_true_iff, Nat.testBit_shiftRight]
    exact and_two_pow_ne_zero (k := 8)
  · rw [decide_eq_true_iff, Nat.testBit_shiftRight]
    exact and_two_pow_ne_zero (k := 5)
  · rw [decide_eq_true_iff]
    exact and_two_pow_ne_zero (k := 2)

theorem canonical_names {names : List String} :
    TlsPath.names (canonical names) = names.map .name := by
  change (names.map Component.name).filter _ = _
  rw [List.filter_eq_self]
  simp

theorem canonical_ancestors {names ancestor : List String} (h : ancestor <+: names) :
    canonical ancestor ∈ TlsPath.ancestors (canonical names) := by
  rw [TlsPath.ancestors, canonical_names]
  refine List.mem_map.mpr ⟨ancestor.map .name, ?_, rfl⟩
  rw [List.mem_reverse, List.mem_inits]
  exact h.map _

theorem canonical_parent {names : List String} {parent : TlsPath}
    (h : TlsPath.parent (canonical names) = some parent) :
    parent = canonical names.dropLast := by
  rw [TlsPath.parent, canonical_names] at h
  split at h
  · cases h
  · cases h
    rw [canonical, canonical, List.map_dropLast]

theorem canonical_metadata {names : List String} {node : FileNode String Metadata}
    (hnames : host.tree.Settled names) (h : host.metadata (canonical names) = some node) :
    host.tree.entry names = some node := by
  obtain ⟨target, htarget, hnode⟩ := Option.bind_eq_some_iff.mp h
  rwa [← FileTree.resolve_names hnames htarget]

theorem enters_of_ancestor {ancestor parent : TlsPath}
    (h : host.ancestorsAllowTraversal parent identity = true) (hancestor : ancestor ∈ parent.ancestors)
    {directory : List String}
    (hleads : host.tree.leads host.maxLinks [] ancestor.components = some directory) :
    host.tree.enters (identity.may .traverse) directory = true := by
  rw [Inspection.ancestorsAllowTraversal, Bool.and_eq_true, List.all_eq_true] at h
  obtain ⟨node, hnode, hallowed⟩ := Option.any_eq_true .. |>.mp (h.2 ancestor hancestor)
  obtain ⟨target, htarget, hentry⟩ := Option.bind_eq_some_iff.mp hnode
  have hsame := (FileTree.resolve_eq_some.mp htarget).1
  rw [hleads] at hsame
  cases hsame
  rw [FileTree.enters, hentry, Option.any_some, ← metadataAllows_traverse]
  exact hallowed

theorem enters_of_canonical {names directory : List String}
    (h : host.ancestorsAllowTraversal (canonical names) identity = true)
    (hbegins : directory <+: names) (hsettled : host.tree.Settled directory) :
    host.tree.enters (identity.may .traverse) directory = true := by
  rw [Inspection.ancestorsAllowTraversal, Bool.and_eq_true, List.all_eq_true] at h
  obtain ⟨node, hnode, hallowed⟩ :=
    Option.any_eq_true .. |>.mp (h.2 _ (canonical_ancestors hbegins))
  rw [FileTree.enters, canonical_metadata hsettled hnode, Option.any_some, ← metadataAllows_traverse]
  exact hallowed

theorem pathModesAllowRuntime_target
    (h : host.pathModesAllowRuntime path identity access = true) : ∃ target node,
      host.tree.leads host.maxLinks [] path.components = some target ∧
        host.tree.entry target = some node ∧ identity.may access node.attributes ∧
          ∀ directory, Inspected host path directory →
            host.tree.enters (identity.may .traverse) directory = true := by
  rw [Inspection.pathModesAllowRuntime] at h
  cases hparent : path.parent with
  | none => simp [hparent] at h
  | some linkParent =>
    cases hgiven : host.ancestorsAllowTraversal linkParent identity with
    | false => simp [hparent, hgiven] at h
    | true =>
      cases hresolved : host.canonicalize path with
      | none => simp [hparent, hgiven, hresolved] at h
      | some resolved =>
        obtain ⟨target, htarget, rfl⟩ := Option.map_eq_some_iff.mp hresolved
        have hleads := (FileTree.resolve_eq_some.mp htarget).1
        have hsettled : host.tree.Settled target :=
          FileTree.resolve_settled (FileTree.settled_of_directory host.tree.root) htarget
        cases htargetParent : (canonical target).parent with
        | none => simp [hparent, hgiven, hresolved, htargetParent] at h
        | some targetParent =>
          cases hcanonical : host.ancestorsAllowTraversal targetParent identity with
          | false => simp [hparent, hgiven, hresolved, htargetParent, hcanonical] at h
          | true =>
            simp only [hparent, hgiven, hresolved, htargetParent, hcanonical, Bool.not_true,
              Bool.false_eq_true, if_false, Option.any_eq_true] at h
            obtain ⟨node, hnode, hallowed⟩ := h
            refine ⟨target, node, hleads, canonical_metadata hsettled hnode, ?_, ?_⟩
            · cases access with
              | read => rwa [← metadataAllows_read]
              | traverse => rwa [← metadataAllows_traverse]
            · rintro directory
                (⟨parent, ancestor, hparent', hancestor, hfound⟩ | ⟨again, hagain, hbegins⟩)
              · cases hparent.symm.trans hparent'
                exact enters_of_ancestor hgiven hancestor hfound
              · cases hleads.symm.trans hagain
                rw [canonical_parent htargetParent] at hcanonical
                exact enters_of_canonical hcanonical hbegins
                  (hsettled.initial (hbegins.trans (List.dropLast_prefix _)))

/-- A check that says yes is right, if and only if the runtime can search all directories on the
way that the check has not looked at. -/
theorem readiness_sound_iff (h : host.pathModesAllowRuntime path identity access = true) :
    Granted host path identity access ↔
      ∀ directory ∈ host.tree.visited host.maxLinks [] path.components,
        ¬Inspected host path directory →
          host.tree.enters (identity.may .traverse) directory = true := by
  obtain ⟨target, node, hleads, hnode, hmay, hinspected⟩ := pathModesAllowRuntime_target h
  constructor
  · rintro ⟨found, -, hfound, -, -⟩ directory hdirectory -
    exact (FileTree.resolve_eq_some.mp hfound).2 directory hdirectory
  · intro hopen
    refine ⟨target, node, FileTree.resolve_eq_some.mpr ⟨hleads, fun directory hdirectory ↦ ?_⟩,
      hnode, hmay⟩
    by_cases hlooked : Inspected host path directory
    · exact hinspected directory hlooked
    · exact hopen directory hdirectory hlooked

def tlsDirectory (mode : ℕ) : FileNode String Metadata := ⟨⟨0, 0, mode⟩, .directory⟩

def tlsLink (names : List String) : FileNode String Metadata :=
  ⟨⟨0, 0, 0o777⟩, .link (canonical names)⟩

def relayedTree (mode : ℕ) : TlsTree :=
  .ofList
    [([], tlsDirectory 0o755), (["tls"], tlsDirectory 0o755),
      (["tls", "fullchain.pem"], tlsLink ["relay", "current.pem"]), (["relay"], tlsDirectory mode),
      (["relay", "current.pem"], tlsLink ["live", "certificate.pem"]),
      (["live"], tlsDirectory 0o755),
      (["live", "certificate.pem"], ⟨⟨0, 0, 0o644⟩, .file⟩)]
    rfl rfl

def relayed (mode : ℕ) : Inspection := ⟨relayedTree mode, fun _ ↦ true, 40⟩

def relayedPath : TlsPath := canonical ["tls", "fullchain.pem"]

theorem readiness_sound_iff_relayed : Granted (relayed 0o755) relayedPath ⟨998, 998⟩ .read := by
  refine (readiness_sound_iff (by decide)).mpr fun directory hdirectory _ ↦ ?_
  have hopen : ∀ directory ∈ (relayed 0o755).tree.visited 40 [] relayedPath.components,
      (relayed 0o755).tree.enters ((⟨998, 998⟩ : RuntimeIdentity).may .traverse) directory := by
    decide
  exact hopen directory hdirectory

theorem closed_relay_accepted :
    ¬∀ (host : Inspection) (path : TlsPath) (identity : RuntimeIdentity) (access : RuntimeAccess),
      host.pathModesAllowRuntime path identity access = true →
        Granted host path identity access := by
  intro hall
  obtain ⟨target, node, htarget, -⟩ := hall (relayed 0o700) relayedPath ⟨998, 998⟩ .read
    (by decide)
  have hclosed : (relayed 0o700).tree.resolve ((⟨998, 998⟩ : RuntimeIdentity).may .traverse) 40 []
      relayedPath.components = none := by
    decide
  rw [show (relayed 0o700).maxLinks = 40 from rfl, hclosed] at htarget
  cases htarget

end StealthHub.Adapters

import Mathlib.Data.List.Induction

set_option autoImplicit false

/-- A trailing slash reads as a last `current`. -/
inductive Component (ν : Type)
  | current
  | parent
  | name (name : ν)
  deriving DecidableEq

structure FilePath (ν : Type) where
  absolute : Bool
  components : List (Component ν)

inductive FileKind (ν : Type)
  | directory
  | file
  | link (target : FilePath ν)

structure FileNode (ν α : Type) where
  attributes : α
  kind : FileKind ν

namespace FileNode

variable {ν α : Type}

def isDirectory (node : FileNode ν α) : Bool :=
  match node.kind with
  | .directory => true
  | _ => false

def target (node : FileNode ν α) : Option (FilePath ν) :=
  match node.kind with
  | .link target => some target
  | _ => none

theorem target_of_isDirectory {node : FileNode ν α} (h : node.isDirectory = true) :
    node.target = none := by
  rw [isDirectory] at h
  rw [target]
  split at h
  · simp [*]
  · cases h

end FileNode

/-- Every node is under the names that lead to it from the root. -/
structure FileTree (ν α : Type) where
  entry : List ν → Option (FileNode ν α)
  root : (entry []).any FileNode.isDirectory = true
  parent : ∀ place name, (entry (place ++ [name])).isSome →
    (entry place).any FileNode.isDirectory = true

/-- Where a component leads. -/
inductive Move (ν : Type)
  | missing
  | moved (place : List ν)
  | link (target : FilePath ν)

/-- Where components lead up to the first link. -/
inductive Stage (ν : Type)
  | missing
  | arrived (place : List ν)
  | link (directory : List ν) (target : FilePath ν) (rest : List (Component ν))

namespace FileTree

variable {ν α : Type} (tree : FileTree ν α) (search : α → Bool)

/-- Names can be looked up in the directory. -/
def enters (directory : List ν) : Bool :=
  (tree.entry directory).any fun node ↦ node.isDirectory && search node.attributes

def move (place : List ν) : Component ν → Move ν
  | .current => .moved place
  | .parent => .moved place.dropLast
  | .name name =>
    match tree.entry (place ++ [name]) with
    | none => .missing
    | some node =>
      match node.target with
      | some target => .link target
      | none => .moved (place ++ [name])

def follow (place : List ν) : List (Component ν) → Stage ν
  | [] => .arrived place
  | component :: rest =>
    if tree.enters search place then
      match tree.move place component with
      | .missing => .missing
      | .moved place => follow place rest
      | .link target => .link place target rest
    else .missing

/-- Where components lead with at most `limit` links on the way. The last one is followed too. -/
def resolve : ℕ → List ν → List (Component ν) → Option (List ν)
  | 0, place, components =>
    match tree.follow search place components with
    | .arrived place => some place
    | _ => none
  | limit + 1, place, components =>
    match tree.follow search place components with
    | .missing => none
    | .arrived place => some place
    | .link directory target rest =>
      resolve limit (if target.absolute then [] else directory) (target.components ++ rest)

def looked (place : List ν) : List (Component ν) → List (List ν)
  | [] => []
  | component :: rest =>
    place :: match tree.move place component with
      | .missing => []
      | .moved place => looked place rest
      | .link _ => []

abbrev leads : ℕ → List ν → List (Component ν) → Option (List ν) := tree.resolve fun _ ↦ true

/-- The directories that names are looked up in, on all links. -/
def visited : ℕ → List ν → List (Component ν) → List (List ν)
  | 0, place, components => tree.looked place components
  | limit + 1, place, components =>
    tree.looked place components ++
      match tree.follow (fun _ ↦ true) place components with
      | .link directory target rest =>
        visited limit (if target.absolute then [] else directory) (target.components ++ rest)
      | _ => []

variable {tree search} {place target : List ν} {components : List (Component ν)} {limit : ℕ}

theorem enters_all (h : tree.enters search place = true) :
    tree.enters (fun _ ↦ true) place = true := by
  rw [enters, Option.any_eq_true] at h ⊢
  obtain ⟨node, hnode, hsearch⟩ := h
  rw [Bool.and_eq_true] at hsearch
  refine ⟨node, hnode, ?_⟩
  rw [hsearch.1]
  rfl

theorem follow_eq : tree.follow search place components =
    if (tree.looked place components).all (tree.enters search) then
      tree.follow (fun _ ↦ true) place components
    else .missing := by
  induction components generalizing place with
  | nil => rfl
  | cons component rest ih =>
    rw [follow, follow, looked, List.all_cons]
    by_cases hopen : tree.enters search place
    · rw [if_pos hopen, if_pos (enters_all hopen), hopen, Bool.true_and]
      cases tree.move place component with
      | missing => rfl
      | moved place => exact ih
      | link target => rfl
    · rw [if_neg hopen, Bool.of_not_eq_true hopen]
      rfl

theorem resolve_eq_some : tree.resolve search limit place components = some target ↔
    tree.leads limit place components = some target ∧
      ∀ directory ∈ tree.visited limit place components, tree.enters search directory := by
  induction limit generalizing place components with
  | zero =>
    rw [leads, resolve, resolve, visited, follow_eq, ← List.all_eq_true]
    split_ifs with hall
    · simp [hall]
    · simp [hall]
  | succ limit ih =>
    rw [leads, resolve, resolve, visited, follow_eq]
    by_cases hall : (tree.looked place components).all (tree.enters search)
    · rw [if_pos hall]
      have hlooked := List.all_eq_true.mp hall
      cases hfollow : tree.follow (fun _ ↦ true) place components with
      | missing => simp
      | arrived place => simpa using fun _ ↦ hlooked
      | link directory target rest =>
        simp only [List.forall_mem_append]
        rw [ih]
        exact and_congr_right fun _ ↦ (and_iff_right hlooked).symm
    · rw [if_neg hall]
      refine ⟨nofun, fun h ↦ absurd ?_ hall⟩
      exact List.all_eq_true.mpr (List.forall_mem_append.mp h.2).1

/-- A place with a node of its own. -/
def Settled (tree : FileTree ν α) (place : List ν) : Prop :=
  ∃ node, tree.entry place = some node ∧ node.target = none

def SettledStage (tree : FileTree ν α) : Stage ν → Prop
  | .missing => True
  | .arrived place => tree.Settled place
  | .link directory _ _ => tree.Settled directory

theorem settled_of_directory (h : (tree.entry place).any FileNode.isDirectory = true) :
    tree.Settled place := by
  rw [Option.any_eq_true] at h
  obtain ⟨node, hnode, hdirectory⟩ := h
  exact ⟨node, hnode, FileNode.target_of_isDirectory hdirectory⟩

theorem directory_of_append {rest : List ν} (hrest : rest ≠ [])
    (h : (tree.entry (place ++ rest)).isSome) :
    (tree.entry place).any FileNode.isDirectory = true := by
  induction rest using List.reverseRecOn with
  | nil => exact absurd rfl hrest
  | append_singleton before name ih =>
    rw [← List.append_assoc] at h
    have hparent := tree.parent _ _ h
    rcases eq_or_ne before [] with rfl | hbefore
    · rwa [List.append_nil] at hparent
    · refine ih hbefore ?_
      obtain ⟨node, hnode, -⟩ := settled_of_directory hparent
      rw [hnode]
      rfl

theorem Settled.dropLast (h : tree.Settled place) : tree.Settled place.dropLast := by
  induction place using List.reverseRecOn with
  | nil => exact h
  | append_singleton before name ih =>
    rw [List.dropLast_concat]
    obtain ⟨node, hnode, -⟩ := h
    refine settled_of_directory (tree.parent before name ?_)
    rw [hnode]
    rfl

theorem Settled.initial {before : List ν} (h : tree.Settled place) (hbegins : before <+: place) :
    tree.Settled before := by
  obtain ⟨rest, rfl⟩ := hbegins
  rcases eq_or_ne rest [] with rfl | hrest
  · rwa [List.append_nil] at h
  · obtain ⟨node, hnode, -⟩ := h
    refine settled_of_directory (directory_of_append hrest ?_)
    rw [hnode]
    rfl

theorem move_settled {component : Component ν} (h : tree.Settled place)
    (hmove : tree.move place component = .moved target) : tree.Settled target := by
  cases component with
  | current =>
    cases hmove
    exact h
  | parent =>
    cases hmove
    exact h.dropLast
  | name name =>
    rw [move] at hmove
    split at hmove
    · cases hmove
    · next node hentry =>
      split at hmove
      · cases hmove
      · next htarget =>
        cases hmove
        exact ⟨node, hentry, htarget⟩

theorem follow_settled {stage : Stage ν} (h : tree.Settled place)
    (hstage : tree.follow search place components = stage) : tree.SettledStage stage := by
  induction components generalizing place with
  | nil =>
    cases hstage
    exact h
  | cons component rest ih =>
    rw [follow] at hstage
    split_ifs at hstage
    · cases hmove : tree.move place component with
      | missing =>
        rw [hmove] at hstage
        cases hstage
        trivial
      | moved place =>
        rw [hmove] at hstage
        exact ih (move_settled h hmove) hstage
      | link target =>
        rw [hmove] at hstage
        cases hstage
        exact h
    · cases hstage
      trivial

theorem resolve_settled (h : tree.Settled place)
    (hresolve : tree.resolve search limit place components = some target) :
    tree.Settled target := by
  induction limit generalizing place components with
  | zero =>
    rw [resolve] at hresolve
    cases hstage : tree.follow search place components with
    | arrived place =>
      rw [hstage] at hresolve
      cases hresolve
      exact follow_settled h hstage
    | missing => simp [hstage] at hresolve
    | link => simp [hstage] at hresolve
  | succ limit ih =>
    rw [resolve] at hresolve
    cases hstage : tree.follow search place components with
    | arrived place =>
      rw [hstage] at hresolve
      cases hresolve
      exact follow_settled h hstage
    | missing => simp [hstage] at hresolve
    | link directory linked rest =>
      rw [hstage] at hresolve
      refine ih ?_ hresolve
      split_ifs
      · exact settled_of_directory tree.root
      · exact follow_settled h hstage

theorem follow_names {names : List ν} (h : tree.Settled (place ++ names)) :
    tree.follow search place (names.map .name) = .arrived (place ++ names) ∨
      tree.follow search place (names.map .name) = .missing := by
  induction names generalizing place with
  | nil =>
    left
    rw [List.map_nil, follow, List.append_nil]
  | cons name names ih =>
    rw [List.append_cons] at h
    rw [List.map_cons, follow, List.append_cons]
    by_cases hopen : tree.enters search place
    · rw [if_pos hopen]
      obtain ⟨node, hnode, htarget⟩ := h.initial (List.prefix_append _ _)
      have hmove : tree.move place (.name name) = .moved (place ++ [name]) := by
        simp only [move, hnode, htarget]
      rw [hmove]
      exact ih h
    · rw [if_neg hopen]
      exact .inr rfl

theorem resolve_names {names : List ν} (h : tree.Settled names)
    (hresolve : tree.resolve search limit [] (names.map .name) = some target) :
    target = names := by
  have hfollow : tree.follow search [] (names.map .name) = .arrived names ∨
      tree.follow search [] (names.map .name) = .missing := follow_names h
  cases limit with
  | zero =>
    rw [resolve] at hresolve
    rcases hfollow with hfollow | hfollow
    · rw [hfollow] at hresolve
      exact (Option.some.inj hresolve).symm
    · simp [hfollow] at hresolve
  | succ limit =>
    rw [resolve] at hresolve
    rcases hfollow with hfollow | hfollow
    · rw [hfollow] at hresolve
      exact (Option.some.inj hresolve).symm
    · simp [hfollow] at hresolve

def ofList [DecidableEq ν] (nodes : List (List ν × FileNode ν α))
    (hroot : ((nodes.find? (·.1 = [])).map Prod.snd).any FileNode.isDirectory = true)
    (hparent : (nodes.all fun node ↦ node.1 = [] ||
      ((nodes.find? (·.1 = node.1.dropLast)).map Prod.snd).any FileNode.isDirectory) = true) :
    FileTree ν α where
  entry place := (nodes.find? (·.1 = place)).map Prod.snd
  root := hroot
  parent place name h := by
    rw [Option.isSome_map] at h
    obtain ⟨node, hnode⟩ := Option.isSome_iff_exists.mp h
    have hname : node.1 = place ++ [name] := by simpa using List.find?_some hnode
    have hplace := List.all_eq_true.mp hparent node (List.mem_of_find?_eq_some hnode)
    rcases Bool.or_eq_true_iff.mp hplace with hnil | hdirectory
    · rw [decide_eq_true_iff, hname] at hnil
      simp at hnil
    · rwa [hname, List.dropLast_concat] at hdirectory

end FileTree

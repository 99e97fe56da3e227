import StealthHub.Updater.Pinned

set_option autoImplicit false

namespace StealthHub.Updater

open Text EnvFile Modules
open Manager (ManifestFile ModuleDirectory readManifest loadRegistry readManifest_ok)

section panel

def visibleProductModules (specs : List ModuleSpec) : List ModuleSpec :=
  specs.filter fun spec ↦ !moduleIsRetired spec.id

def ModuleHost.registry (host : ModuleHost) : Except String (List ModuleSpec) := do
  let specs ← loadRegistry host.active
  return visibleProductModules specs

def ModuleHost.catalog (host : ModuleHost) : Except String (List ModuleSpec) := do
  let active ← host.registry
  let specs ← loadRegistry host.available
  return specs.filter fun spec ↦ !active.any (·.id = spec.id) && !moduleIsRetired spec.id

def ModuleHost.find (host : ModuleHost) (id : String) : Except String (Option ModuleSpec) :=
  if !validId id then .ok none
  else do
    let specs ← host.registry
    return specs.find? (·.id = id)

def RequestDirectory.write (directory : RequestDirectory) (request : Request) : RequestDirectory where
  files := directory.files.filter (fun other ↦ !other.named request.stem request.action) ++ [request]
  distinct := by
    rw [List.map_append, List.map_singleton]
    refine List.Nodup.append (directory.kept _) (List.nodup_singleton _) fun name hmem hsingle ↦ ?_
    obtain ⟨other, hother, hname⟩ := List.mem_map.mp hmem
    rw [← hname] at hsingle
    have hsame := Prod.mk.inj (List.mem_singleton.mp hsingle)
    have hnamed : other.named request.stem request.action = true := by
      rw [Request.named, hsame.1, hsame.2]
      simp
    rw [List.mem_filter, hnamed] at hother
    exact Bool.false_ne_true hother.2

def ModuleHost.writeRequest (host : ModuleHost) (id : String) (action : RuntimeLifecycleAction)
    (requestedAt : String) : ModuleHost :=
  { host with requests := host.requests.write ⟨id, action,
      ⟨.regular, host.requestOwner, 0o640, len ("requested_at=" ++ requestedAt ++ "\n")⟩⟩ }

/-- `request`, of the lifecycle of one module. -/
def ModuleHost.request (host : ModuleHost) (spec : ModuleSpec) (activeManifest : Bool)
    (action : RuntimeLifecycleAction) (requestedAt : String) : Except String ModuleHost :=
  if action = .install ∧ activeManifest then .error "runtime already exists"
  else if action ≠ .install ∧ !activeManifest then .error "runtime is not active in the registry"
  else .ok (host.writeRequest spec.id action requestedAt)

def requestLifecycle (host : ModuleHost) (id : String) (action : RuntimeLifecycleAction)
    (requestedAt : String) : Except String ModuleHost :=
  if !validId id then .error "invalid runtime ID"
  else do
    match ← host.find id with
    | some spec => host.request spec true action requestedAt
    | none =>
      match (← host.catalog).find? (·.id = id) with
      | some spec => host.request spec false action requestedAt
      | none => .error "runtime is not present in the root-owned catalog"

end panel

section pass

/-- How the surroundings answer in one pass. -/
structure Surroundings where
  registers : String → Attempt
  updates : String → Attempt
  automatics : String → Attempt
  obeyed : RuntimeLifecycleAction → String → Bool
  /-- The minute of the day. -/
  now : ℕ
  today : String

/-- The pattern `*` leaves out the names that begin with a dot. -/
def hidden (stem : String) : Bool := stem.toList.head?.all (· = '.')

def ModuleHost.stems (host : ModuleHost) (action : RuntimeLifecycleAction) : List String :=
  (host.requests.files.filter fun request ↦ request.action = action && !hidden request.stem).map
    (·.stem)

def registerRequested (around : Surroundings) (host : ModuleHost) : Option ModuleHost :=
  (host.stems .install).foldlM
    (fun host id ↦ (registerOne host id (around.registers id)).map Prod.snd) host

def removeRequested (host : ModuleHost) : ModuleHost :=
  (host.stems .remove).foldl (fun host id ↦ (removeOne host id).2) host

def lifecycleOf (around : Surroundings) (action : RuntimeLifecycleAction) (host : ModuleHost) :
    ModuleHost :=
  (host.stems action).foldl
    (fun host id ↦ (lifecycleOne host action id (around.obeyed action id)).2) host

def lifecycleRequested (around : Surroundings) (host : ModuleHost) : ModuleHost :=
  [.start, .stop, .restart].foldl (fun host action ↦ lifecycleOf around action host) host

def runRequested (around : Surroundings) (host : ModuleHost) : ModuleHost :=
  (moduleIds host).foldl (fun host id ↦ (runOne host id (around.updates id)).2) host

def automaticTurn (around : Surroundings) (state : Bool × ModuleHost) (id : String) :
    Bool × ModuleHost :=
  let turn := automaticOne state.2 id (around.automatics id)
  (state.1 || turn.1 = .failed, turn.2)

def runAutomatic (around : Surroundings) (host : ModuleHost) : ModuleHost :=
  match automaticDue host.policy around.now with
  | .error _ => host
  | .ok false => host
  | .ok true =>
    if host.lastAuto = some around.today then host
    else
      let state := (moduleIds host).foldl (automaticTurn around) (false, host)
      if state.1 then state.2 else { state.2 with lastAuto := some around.today }

def runDue (around : Surroundings) (host : ModuleHost) : Option ModuleHost :=
  (registerRequested around host).map fun host ↦
    runAutomatic around (runRequested around (lifecycleRequested around (removeRequested host)))

end pass

variable {start host host' next : ModuleHost} {id : String} {action : RuntimeLifecycleAction}
  {request : Request} {attempt : Attempt}
  {links : String → RuntimeLifecycleAction → String → Prop}

theorem named_iff : request.named id action = true ↔ request.name = (id, action) := by
  rw [Request.named, Request.name, Bool.and_eq_true, decide_eq_true_eq, decide_eq_true_eq,
    Prod.mk.injEq]

theorem mem_without : request ∈ (host.without id action).requests.files ↔
    request ∈ host.requests.files ∧ request.name ≠ (id, action) := by
  rw [ModuleHost.without, RequestDirectory.keep, List.mem_filter, Bool.not_eq_true', ne_eq,
    ← named_iff, Bool.not_eq_true]

theorem mem_discard : request ∈ (host.discard id action).requests.files ↔
    request ∈ host.requests.files ∧
      (request.name = (id, action) → request.file.kind = .directory) := by
  rw [ModuleHost.discard, RequestDirectory.keep, List.mem_filter, Bool.not_eq_true', ← named_iff,
    Bool.and_eq_false_imp, decide_eq_false_iff_not, not_not]

theorem requestFile_of_mem (hmem : request ∈ host.requests.files) (hname : request.name = (id, action)) :
    host.requestFile id action = some request.file := by
  rw [ModuleHost.requestFile]
  cases hfound : host.requests.files.find? (Request.named id action) with
  | none => exact absurd (named_iff.mpr hname) (List.find?_eq_none.mp hfound request hmem)
  | some other =>
    have hother : other.name = (id, action) := named_iff.mp (List.find?_some hfound)
    rw [List.inj_on_of_nodup_map host.requests.distinct (List.mem_of_find?_eq_some hfound) hmem
      (hother.trans hname.symm)]
    rfl

/-- A directory keeps the request from being set aside. -/
def Held (host : ModuleHost) (request : Request) : Prop :=
  ∃ link, host.aside request.stem request.action = .directory link true

/-- What no turn of the worker takes away: `rm -f` leaves directories, `mv -f` fails at some, and an
update is asked for by a file alone. -/
def Stuck (host : ModuleHost) (request : Request) : Prop :=
  request.file.kind = .directory ∨ Held host request ∨
    request.action = .update ∧ request.file.isFile = false

/-- No request comes up, and none comes to be held. -/
structure Fewer (host host' : ModuleHost) : Prop where
  requests : ∀ request ∈ host'.requests.files, request ∈ host.requests.files
  held : ∀ request, Held host' request → Held host request

theorem Fewer.refl (host : ModuleHost) : Fewer host host := ⟨fun _ h ↦ h, fun _ h ↦ h⟩

theorem Fewer.trans (h : Fewer host next) (h' : Fewer next host') : Fewer host host' where
  requests := fun request hmem ↦ h.requests request (h'.requests request hmem)
  held := fun request hheld ↦ h.held request (h'.held request hheld)

theorem Fewer.of_files (h : host'.toPanelFiles = host.toPanelFiles) : Fewer host host' where
  requests := fun request hmem ↦ by
    rw [PanelFiles.requests, h] at hmem
    exact hmem
  held := fun request hheld ↦ by
    rw [Held, PanelFiles.aside, h] at hheld
    exact hheld

theorem Stuck.mono (h : Fewer host next) (hstuck : Stuck next request) : Stuck host request :=
  hstuck.imp_right (Or.imp_left (h.held request))

theorem held_clearAside {other : Request} (h : Held (host.clearAside id action) other) :
    Held host other := by
  unfold ModuleHost.clearAside at h
  split at h
  · exact h
  · obtain ⟨link, hlink⟩ := h
    dsimp only at hlink
    by_cases hstem : other.stem = id
    · rw [hstem, Function.update_self] at hlink
      by_cases haction : other.action = action
      · rw [haction, Function.update_self] at hlink
        cases hlink
      · rw [Function.update_of_ne haction] at hlink
        exact ⟨link, hstem ▸ hlink⟩
    · rw [Function.update_of_ne hstem] at hlink
      exact ⟨link, hlink⟩

theorem fewer_clearAside (host : ModuleHost) (id : String) (action : RuntimeLifecycleAction) :
    Fewer host (host.clearAside id action) where
  requests := fun request hmem ↦ by
    obtain ⟨aside, hclear⟩ := clearAside_eq host id action
    rwa [hclear] at hmem
  held := fun _ ↦ held_clearAside

theorem fewer_without : Fewer host (host.without id action) where
  requests := fun _ hmem ↦ (mem_without.mp hmem).1
  held := fun _ h ↦ h

/-- A turn on a request brings up no new one, and settles that one. -/
structure Takes (id : String) (action : RuntimeLifecycleAction) (host host' : ModuleHost) : Prop where
  fewer : Fewer host host'
  settled : ∀ request ∈ host'.requests.files, request.name = (id, action) → Stuck host request

theorem takes_without (h : Fewer host next) : Takes id action host (next.without id action) where
  fewer := h.trans fewer_without
  settled := fun _ hmem hname ↦ absurd hname (mem_without.mp hmem).2

theorem takes_settle (h : Fewer host next) : Takes id action host (next.settle id action) where
  fewer := (h.trans fewer_without).trans (fewer_clearAside _ id action)
  settled := fun _ hmem hname ↦ absurd hname (mem_without.mp ((fewer_clearAside _ id action).requests _ hmem)).2

theorem takes_setAside (h : Fewer host next) : Takes id action host (next.setAside id action) := by
  rcases setAside_cases next id action with ⟨link, hlink, hstays⟩ | hmoved | ⟨target, -, hmoved⟩
  · rw [hstays]
    refine ⟨h, fun request hmem hname ↦ .inr (.inl (h.held request ⟨link, ?_⟩))⟩
    obtain ⟨hstem, haction⟩ := Prod.mk.inj hname
    rwa [hstem, haction]
  · rw [hmoved]
    exact takes_without h
  · rw [hmoved]
    obtain ⟨hfewer, hsettled⟩ : Takes id action host (next.without id action) := takes_without h
    exact ⟨⟨hfewer.requests, hfewer.held⟩, hsettled⟩

theorem takes_discard : Takes id action host (host.discard id action) where
  fewer := ⟨fun _ hmem ↦ (mem_discard.mp hmem).1, fun _ h ↦ h⟩
  settled := fun _ hmem hname ↦ .inl ((mem_discard.mp hmem).2 hname)

theorem fewer_updateModule (host : ModuleHost) (id : String) (allowDowngrade : Bool)
    (attempt : Attempt) : Fewer host (updateModule host id allowDowngrade attempt).2 := by
  rcases within_updateModule host id allowDowngrade attempt with hsame | ⟨record, -, hwithin⟩
  · rw [hsame]
    exact Fewer.refl host
  · exact .of_files hwithin.files

theorem takes_registerOne {outcome : Outcome}
    (h : registerOne host id attempt = some (outcome, host')) : Takes id .install host host' := by
  unfold registerOne at h
  by_cases hsafe : (!host.safeRequest id .install) = true
  · rw [if_pos hsafe] at h
    obtain ⟨-, rfl⟩ := Prod.mk.inj (Option.some.inj h)
    exact takes_discard
  rw [if_neg hsafe] at h
  cases hsource : host.registrable id with
  | none =>
    rw [hsource] at h
    obtain ⟨-, rfl⟩ := Prod.mk.inj (Option.some.inj h)
    exact takes_setAside (Fewer.refl host)
  | some source =>
    rw [hsource] at h
    have hplaced : Fewer host { host with active := place host.active source } := .of_files rfl
    dsimp only at h
    split_ifs at h
    have hfewer := (hplaced.trans (fewer_clearAside _ id .install)).trans
      (fewer_updateModule _ id true attempt)
    revert hfewer h
    generalize updateModule (ModuleHost.clearAside _ _ _) id true attempt = result
    obtain ⟨success, next⟩ := result
    intro h hfewer
    cases success with
    | true =>
      obtain ⟨-, rfl⟩ := Prod.mk.inj (Option.some.inj h)
      exact takes_without hfewer
    | false =>
      obtain ⟨-, rfl⟩ := Prod.mk.inj (Option.some.inj h)
      exact takes_setAside ⟨hfewer.requests, hfewer.held⟩

theorem takes_removeOne (host : ModuleHost) (id : String) :
    Takes id .remove host (removeOne host id).2 := by
  unfold removeOne
  by_cases hsafe : (!host.safeRequest id .remove) = true
  · rw [if_pos hsafe]
    exact takes_discard
  rw [if_neg hsafe]
  cases loadModule host.active id with
  | none => exact takes_setAside (Fewer.refl host)
  | some record =>
    cases lookup host.active id with
    | none => exact takes_setAside (Fewer.refl host)
    | some file =>
      dsimp only
      split_ifs
      · exact takes_setAside (Fewer.refl host)
      · exact takes_settle ⟨fun _ hmem ↦ hmem, fun _ hheld ↦ hheld⟩

theorem takes_lifecycleOne (host : ModuleHost) (action : RuntimeLifecycleAction) (id : String)
    (obeyed : Bool) : Takes id action host (lifecycleOne host action id obeyed).2 := by
  unfold lifecycleOne
  cases loadModule host.active id with
  | none =>
    dsimp only
    split_ifs
    · exact takes_discard
    · exact takes_setAside (Fewer.refl host)
    · exact takes_setAside (Fewer.refl host)
  | some record =>
    have hact : Fewer host (host.act [.service action.requestSuffix record.service]) := .of_files rfl
    dsimp only
    split_ifs
    · exact takes_discard
    · exact takes_setAside (Fewer.refl host)
    · exact takes_setAside (Fewer.refl host)
    · exact takes_settle hact
    · exact takes_setAside hact

theorem takes_runOne (host : ModuleHost) (id : String) (attempt : Attempt) :
    Takes id .update host (runOne host id attempt).2 := by
  unfold runOne
  have hfewer := fewer_updateModule host id true attempt
  revert hfewer
  generalize updateModule host id true attempt = result
  obtain ⟨success, next⟩ := result
  intro hfewer
  split_ifs with hfile
  · refine ⟨Fewer.refl host, fun request hmem hname ↦ .inr (.inr ⟨(Prod.mk.inj hname).2, ?_⟩)⟩
    rw [requestFile_of_mem hmem hname, Option.any_some, Bool.not_eq_true'] at hfile
    exact hfile
  · exact takes_setAside (Fewer.refl host)
  · exact takes_discard
  · cases success with
    | true => exact takes_settle hfewer
    | false => exact takes_setAside hfewer

/-- What a loop over names leaves. -/
structure Clears (action : RuntimeLifecycleAction) (names : List String) (host host' : ModuleHost) :
    Prop where
  fewer : Fewer host host'
  settled : ∀ request ∈ host'.requests.files, request.action = action → request.stem ∈ names →
    Stuck host request

theorem Clears.nil : Clears action [] host host :=
  ⟨Fewer.refl host, fun _ _ _ hnone ↦ absurd hnone List.not_mem_nil⟩

theorem Clears.cons {names : List String} (hfirst : Takes id action host next)
    (hrest : Clears action names next host') : Clears action (id :: names) host host' := by
  refine ⟨hfirst.fewer.trans hrest.fewer, fun request hmem haction hstem ↦ ?_⟩
  rcases List.mem_cons.mp hstem with hid | hstem
  · exact hfirst.settled request (hrest.fewer.requests request hmem) (Prod.ext hid haction)
  · exact (hrest.settled request hmem haction hstem).mono hfirst.fewer

theorem clears_foldl {turn : ModuleHost → String → ModuleHost}
    (hturn : ∀ host id, Takes id action host (turn host id)) (names : List String)
    (host : ModuleHost) : Clears action names host (names.foldl turn host) := by
  induction names generalizing host with
  | nil => exact Clears.nil
  | cons id rest ih => exact .cons (hturn host id) (ih (turn host id))

theorem Confined.foldl {turn : ModuleHost → String → ModuleHost}
    (hturn : ∀ host id, Confined start links host → Confined start links (turn host id))
    (names : List String) (h : Confined start links host) :
    Confined start links (names.foldl turn host) := by
  induction names generalizing host with
  | nil => exact h
  | cons id rest ih => exact ih (hturn host id h)

theorem stem_mem_stems (hmem : request ∈ host.requests.files) (haction : request.action = action)
    (hseen : hidden request.stem = false) : request.stem ∈ host.stems action :=
  List.mem_map_of_mem (List.mem_filter.mpr ⟨hmem, by simp [haction, hseen]⟩)

/-- A loop over all the requests for one action that have no hidden name. -/
structure ClearsAll (action : RuntimeLifecycleAction) (host host' : ModuleHost) : Prop where
  fewer : Fewer host host'
  settled : ∀ request ∈ host'.requests.files, request.action = action →
    hidden request.stem = true ∨ Stuck host request

theorem Clears.all (h : Clears action (host.stems action) host host') :
    ClearsAll action host host' := by
  refine ⟨h.fewer, fun request hmem haction ↦ ?_⟩
  cases hseen : hidden request.stem with
  | true => exact .inl rfl
  | false =>
    have hstem := stem_mem_stems (h.fewer.requests request hmem) haction hseen
    exact .inr (h.settled request hmem haction hstem)

theorem registers_all (around : Surroundings) {names : List String} (h : Confined start links host) :
    ∃ host', names.foldlM
        (fun host id ↦ (registerOne host id (around.registers id)).map Prod.snd) host = some host' ∧
      Confined start links host' ∧ Clears .install names host host' := by
  induction names generalizing host with
  | nil => exact ⟨host, rfl, h, .nil⟩
  | cons id rest ih =>
    obtain ⟨outcome, next, hregister, hnext⟩ := h.registerOne id (around.registers id)
    obtain ⟨host', hrun, hconfined, hclears⟩ := ih hnext
    refine ⟨host', ?_, hconfined, .cons (takes_registerOne hregister) hclears⟩
    rw [List.foldlM_cons, hregister]
    exact hrun

theorem removes_all (h : Confined start links host) :
    Confined start links (removeRequested host) ∧ ClearsAll .remove host (removeRequested host) :=
  ⟨.foldl (fun _ id hturn ↦ hturn.removeOne id) _ h, (clears_foldl takes_removeOne _ host).all⟩

theorem lifecycle_all (around : Surroundings) (action : RuntimeLifecycleAction)
    (h : Confined start links host) :
    Confined start links (lifecycleOf around action host) ∧
      ClearsAll action host (lifecycleOf around action host) :=
  ⟨.foldl (fun _ id hturn ↦ hturn.lifecycleOne action id _) _ h,
    (clears_foldl (fun host id ↦ takes_lifecycleOne host action id _) _ host).all⟩

theorem active_runOne (host : ModuleHost) (id : String) (attempt : Attempt) :
    (runOne host id attempt).2.active = host.active := by
  unfold runOne
  have hactive := active_updateModule host id true attempt
  revert hactive
  generalize updateModule host id true attempt = result
  obtain ⟨success, next⟩ := result
  intro hactive
  split_ifs
  · rfl
  · exact (setAside_same host id .update).1
  · rfl
  · cases success with
    | true => exact (settle_same next id .update).1.trans hactive
    | false => exact (setAside_same next id .update).1.trans hactive

theorem active_foldl {turn : ModuleHost → String → ModuleHost}
    (hturn : ∀ host id, (turn host id).active = host.active) (names : List String)
    (host : ModuleHost) : (names.foldl turn host).active = host.active := by
  induction names generalizing host with
  | nil => rfl
  | cons id rest ih => exact (ih (turn host id)).trans (hturn host id)

theorem mem_moduleIds (h : Readable host.active) :
    id ∈ moduleIds host ↔ lookup host.active id ≠ none := by
  obtain ⟨specs, hload, hspecs⟩ := loadRegistry_of_readable h
  rw [moduleIds, hload, List.mem_map]
  constructor
  · rintro ⟨spec, hspec, rfl⟩
    obtain ⟨file, hfile, hread⟩ := (hspecs spec).mp hspec
    rw [lookup_eq_some.mpr ⟨hfile, (readManifest_ok hread).1.symm⟩]
    exact Option.some_ne_none file
  · intro hfound
    obtain ⟨file, hfile⟩ := Option.ne_none_iff_exists'.mp hfound
    obtain ⟨hmem, rfl⟩ := lookup_eq_some.mp hfile
    obtain ⟨spec, hspec⟩ := h file hmem
    exact ⟨spec, (hspecs spec).mpr ⟨file, hmem, hspec⟩, (readManifest_ok hspec).1⟩

theorem automaticTurn_same (around : Surroundings) (state : Bool × ModuleHost) (id : String) :
    Fewer state.2 (automaticTurn around state id).2 ∧
      (automaticTurn around state id).2.active = state.2.active := by
  rw [automaticTurn]
  dsimp only
  rcases automaticOne_eq state.2 id (around.automatics id) with hsame | hupdated
  · rw [hsame]
    exact ⟨Fewer.refl _, rfl⟩
  · rw [hupdated]
    exact ⟨fewer_updateModule _ _ _ _, active_updateModule _ _ _ _⟩

theorem runAutomatic_same (around : Surroundings) (host : ModuleHost) :
    Fewer host (runAutomatic around host) ∧ (runAutomatic around host).active = host.active := by
  have hfold : ∀ (names : List String) (state : Bool × ModuleHost),
      Fewer state.2 (names.foldl (automaticTurn around) state).2 ∧
        (names.foldl (automaticTurn around) state).2.active = state.2.active := by
    intro names
    induction names with
    | nil => exact fun state ↦ ⟨Fewer.refl _, rfl⟩
    | cons id rest ih =>
      intro state
      obtain ⟨hfewer, hactive⟩ := ih (automaticTurn around state id)
      obtain ⟨hfewer', hactive'⟩ := automaticTurn_same around state id
      exact ⟨hfewer'.trans hfewer, hactive.trans hactive'⟩
  unfold runAutomatic
  rcases automaticDue host.policy around.now with message | _ | _
  · exact ⟨Fewer.refl _, rfl⟩
  · exact ⟨Fewer.refl _, rfl⟩
  · obtain ⟨hfewer, hactive⟩ := hfold (moduleIds host) (false, host)
    dsimp only
    split_ifs
    · exact ⟨Fewer.refl _, rfl⟩
    · exact ⟨hfewer, hactive⟩
    · exact ⟨⟨hfewer.requests, hfewer.held⟩, hactive⟩

theorem services_all (around : Surroundings) (h : Confined start links host) :
    Confined start links (lifecycleRequested around host) ∧
      Fewer host (lifecycleRequested around host) ∧
      ∀ request ∈ (lifecycleRequested around host).requests.files,
        request.action = .start ∨ request.action = .stop ∨ request.action = .restart →
          hidden request.stem = true ∨ Stuck host request := by
  obtain ⟨hstarted, hstarts⟩ := lifecycle_all around .start h
  obtain ⟨hstopped, hstops⟩ := lifecycle_all around .stop hstarted
  obtain ⟨hrestarted, hrestarts⟩ := lifecycle_all around .restart hstopped
  have hbefore := hstarts.fewer.trans hstops.fewer
  refine ⟨hrestarted, hbefore.trans hrestarts.fewer, fun request hmem haction ↦ ?_⟩
  have hmem' := hrestarts.fewer.requests request hmem
  rcases haction with haction | haction | haction
  · exact hstarts.settled request (hstops.fewer.requests request hmem') haction
  · exact (hstops.settled request hmem' haction).imp_right (.mono hstarts.fewer)
  · exact (hrestarts.settled request hmem haction).imp_right (.mono hbefore)

theorem updates_all (around : Surroundings) (h : Readable host.active) :
    (runRequested around host).active = host.active ∧ Fewer host (runRequested around host) ∧
      ∀ request ∈ (runRequested around host).requests.files, request.action = .update →
        Stuck host request ∨ lookup host.active request.stem = none := by
  have hclears : Clears .update (moduleIds host) host (runRequested around host) :=
    clears_foldl (fun host id ↦ takes_runOne host id _) _ host
  refine ⟨active_foldl (fun host id ↦ active_runOne host id _) _ host, hclears.fewer,
    fun request hmem haction ↦ ?_⟩
  by_cases hnone : lookup host.active request.stem = none
  · exact .inr hnone
  · exact .inl (hclears.settled request hmem haction ((mem_moduleIds h).mpr hnone))

/-- A pass that nobody disturbs comes to its end, and of all the requests it leaves only directories
in the place of one, those that a directory keeps from being set aside, those of a hidden name, and
updates that are no file or asked of no module. -/
theorem pass_serves (around : Surroundings) (host : ModuleHost) {specs : List ModuleSpec}
    (hregistry : loadRegistry host.active = .ok specs) :
    ∃ host', runDue around host = some host' ∧ ∀ request ∈ host'.requests.files,
      request ∈ host.requests.files ∧ (request.file.kind = .directory ∨ Held host request ∨
        request.action ≠ .update ∧ hidden request.stem = true ∨
        request.action = .update ∧
          (request.file.isFile = false ∨ lookup host'.active request.stem = none)) := by
  have hstart : Confined host (fun _ _ _ ↦ True) host :=
    Confined.refl (readable_of_loadRegistry hregistry) fun _ _ _ _ ↦ trivial
  obtain ⟨registered, hregister, hregistered, hclears⟩ := registers_all around hstart
  have hrun : runDue around host = some (runAutomatic around (runRequested around
      (lifecycleRequested around (removeRequested registered)))) :=
    congrArg (Option.map _) hregister
  obtain ⟨hremoved, hremoves⟩ := removes_all hregistered
  obtain ⟨hserved, hfewer, hservices⟩ := services_all around hremoved
  obtain ⟨hactive, hasked, hupdates⟩ := updates_all around hserved.readable
  obtain ⟨hautomatic, hsame⟩ := runAutomatic_same around (runRequested around
    (lifecycleRequested around (removeRequested registered)))
  refine ⟨_, hrun, fun request hmem ↦ ?_⟩
  rw [hsame, hactive]
  -- the request was there after every loop
  have hafterUpdates := hautomatic.requests request hmem
  have hafterServices := hasked.requests request hafterUpdates
  have hafterRemovals := hfewer.requests request hafterServices
  have hafterRegisters := hremoves.fewer.requests request hafterRemovals
  refine ⟨hclears.fewer.requests request hafterRegisters, ?_⟩
  have hremovals := hclears.fewer.trans hremoves.fewer
  have hleft (hnot : request.action ≠ .update)
      (h : hidden request.stem = true ∨ Stuck host request) :
      request.file.kind = .directory ∨ Held host request ∨
        request.action ≠ .update ∧ hidden request.stem = true ∨
        request.action = .update ∧ (request.file.isFile = false ∨ lookup (lifecycleRequested around
          (removeRequested registered)).active request.stem = none) := by
    rcases h with hhidden | hdirectory | hheld | ⟨hupdate, -⟩
    · exact .inr (.inr (.inl ⟨hnot, hhidden⟩))
    · exact .inl hdirectory
    · exact .inr (.inl hheld)
    · exact absurd hupdate hnot
  have hservice (haction : request.action = .start ∨ request.action = .stop ∨
      request.action = .restart) : hidden request.stem = true ∨ Stuck host request :=
    (hservices request hafterServices haction).imp_right (.mono hremovals)
  cases haction : request.action with
  | install =>
    rw [← haction]
    exact hleft (by simp [haction]) (hclears.all.settled request hafterRegisters haction)
  | remove =>
    rw [← haction]
    exact hleft (by simp [haction])
      ((hremoves.settled request hafterRemovals haction).imp_right (.mono hclears.fewer))
  | start =>
    rw [← haction]
    exact hleft (by simp [haction]) (hservice (.inl haction))
  | stop =>
    rw [← haction]
    exact hleft (by simp [haction]) (hservice (.inr (.inl haction)))
  | restart =>
    rw [← haction]
    exact hleft (by simp [haction]) (hservice (.inr (.inr haction)))
  | update =>
    rcases hupdates request hafterUpdates haction with hstuck | hnone
    · rcases hstuck.mono (hremovals.trans hfewer) with hdirectory | hheld | ⟨-, hfile⟩
      · exact .inl hdirectory
      · exact .inr (.inl hheld)
      · exact .inr (.inr (.inr ⟨rfl, .inl hfile⟩))
    · exact .inr (.inr (.inr ⟨rfl, .inr hnone⟩))

def demoSurroundings : Surroundings where
  registers := fun _ ↦ pinnedAttempt
  updates := fun _ ↦ pinnedAttempt
  automatics := fun _ ↦ pinnedAttempt
  obeyed := fun _ _ ↦ true
  now := 0
  today := "2026-01-01"

theorem pass_serves_demo : ∃ host',
    runDue demoSurroundings { demoHost none with requests := oneRequest "demo" .restart } = some host' ∧
      host'.requests.files = [] := by
  obtain ⟨host', hrun, hleft⟩ := pass_serves demoSurroundings
    { demoHost none with requests := oneRequest "demo" .restart } Manager.demoDirectory_loads
  refine ⟨host', hrun, List.eq_nil_iff_forall_not_mem.mpr fun request hmem ↦ ?_⟩
  obtain ⟨hrequest, hreason⟩ := hleft request hmem
  obtain rfl := List.mem_singleton.mp hrequest
  rcases hreason with hdirectory | ⟨link, hheld⟩ | ⟨-, hhidden⟩ | ⟨hupdate, -⟩
  · cases hdirectory
  · cases hheld
  · exact absurd hhidden (by decide)
  · cases hupdate

/-- The turn of the worker on one request. -/
def takeUp (host : ModuleHost) (action : RuntimeLifecycleAction) (id : String) (attempt : Attempt)
    (obeyed : Bool) : Option (Outcome × ModuleHost) :=
  match action with
  | .install => registerOne host id attempt
  | .update => some (runOne host id attempt)
  | .remove => some (removeOne host id)
  | action => some (lifecycleOne host action id obeyed)

/-- What the panel has checked of a request that it leaves. -/
structure Asked (host : ModuleHost) (id : String) (action : RuntimeLifecycleAction) : Prop where
  valid : validId id = true
  kept : moduleIsRetired id = false
  readable : Readable host.active
  catalog : action = .install → lookup host.active id = none ∧
    ∃ file, lookup host.available id = some file ∧ (readManifest file).isOk = true
  active : action ≠ .install → ∃ file ∈ host.active.files, file.stem = id

theorem registry_eq_ok {specs : List ModuleSpec} (h : host.registry = .ok specs) :
    Readable host.active ∧ ∀ spec, spec ∈ specs ↔
      (∃ file ∈ host.active.files, readManifest file = .ok spec) ∧ moduleIsRetired spec.id = false := by
  obtain ⟨all, hload, hvisible⟩ := Except.bind_eq_ok.mp h
  have hreadable := readable_of_loadRegistry hload
  obtain ⟨all', hload', hall⟩ := loadRegistry_of_readable hreadable
  obtain rfl := Except.ok.inj (hload.symm.trans hload')
  refine ⟨hreadable, fun spec ↦ ?_⟩
  rw [← Except.pure_eq_ok.mp hvisible, visibleProductModules, List.mem_filter, hall,
    Bool.not_eq_true']

theorem request_eq_ok {spec : ModuleSpec} {activeManifest : Bool} {requestedAt : String}
    (h : host.request spec activeManifest action requestedAt = .ok host') :
    (action = .install ↔ activeManifest = false) ∧
      host' = host.writeRequest spec.id action requestedAt := by
  unfold ModuleHost.request at h
  split_ifs at h with hactive hinactive
  refine ⟨⟨fun haction ↦ ?_, fun hfalse ↦ ?_⟩, (Except.ok.inj h).symm⟩
  · exact Bool.eq_false_iff.mpr fun htrue ↦ hactive ⟨haction, htrue⟩
  · by_contra hne
    exact hinactive ⟨hne, by rw [hfalse]; rfl⟩

theorem requestLifecycle_ok {requestedAt : String}
    (h : requestLifecycle host id action requestedAt = .ok host') :
    Asked host id action ∧ host' = host.writeRequest id action requestedAt := by
  unfold requestLifecycle at h
  split_ifs at h with hinvalid
  have hvalid : validId id = true := by simpa using hinvalid
  obtain ⟨found, hfind, h⟩ := Except.bind_eq_ok.mp h
  rw [ModuleHost.find, if_neg hinvalid] at hfind
  obtain ⟨specs, hspecs, hfound⟩ := Except.bind_eq_ok.mp hfind
  obtain ⟨hreadable, hregistry⟩ := registry_eq_ok hspecs
  have hfound := Except.pure_eq_ok.mp hfound
  cases found with
  | some spec =>
    obtain ⟨haction, rfl⟩ := request_eq_ok h
    have hid : spec.id = id := by simpa using List.find?_some hfound
    obtain ⟨⟨file, hfile, hread⟩, hkept⟩ := (hregistry spec).mp (List.mem_of_find?_eq_some hfound)
    refine ⟨⟨hvalid, hid ▸ hkept, hreadable, fun hinstall ↦ ?_, fun _ ↦ ⟨file, hfile, ?_⟩⟩, by rw [hid]⟩
    · exact absurd (haction.mp hinstall) (by decide)
    · exact (readManifest_ok hread).1.symm.trans hid
  | none =>
    obtain ⟨listed, hcatalog, h⟩ := Except.bind_eq_ok.mp h
    obtain ⟨active, hactive, hcatalog⟩ := Except.bind_eq_ok.mp hcatalog
    obtain ⟨all, hall, hlisted⟩ := Except.bind_eq_ok.mp hcatalog
    cases hchosen : listed.find? (·.id = id) with
    | none =>
      rw [hchosen] at h
      cases h
    | some spec =>
      rw [hchosen] at h
      obtain ⟨haction, rfl⟩ := request_eq_ok h
      have hid : spec.id = id := by simpa using List.find?_some hchosen
      have hmem := List.mem_of_find?_eq_some hchosen
      rw [← Except.pure_eq_ok.mp hlisted, List.mem_filter, Bool.and_eq_true, Bool.not_eq_true',
        Bool.not_eq_true'] at hmem
      obtain ⟨hspec, -, hkept⟩ := hmem
      obtain ⟨file, hfile, hread⟩ := Manager.loadRegistry_mem hall hspec
      have hstem : file.stem = id := (readManifest_ok hread).1.symm.trans hid
      have hfree : lookup host.active id = none := by
        refine lookup_eq_none.mpr fun other hother hsame ↦ ?_
        obtain ⟨spec', hread'⟩ := hreadable other hother
        have hid' : spec'.id = id := (readManifest_ok hread').1.trans hsame
        have hvisible : spec' ∈ specs :=
          (hregistry spec').mpr ⟨⟨other, hother, hread'⟩, by rw [hid', ← hid, hkept]⟩
        exact absurd hid' (by simpa using List.find?_eq_none.mp hfound spec' hvisible)
      have hinstall : action = .install := haction.mpr rfl
      exact ⟨⟨hvalid, hid ▸ hkept, hreadable,
        fun _ ↦ ⟨hfree, file, lookup_eq_some.mpr ⟨hfile, hstem⟩, by rw [hread]; rfl⟩,
        fun hne ↦ absurd hinstall hne⟩, by rw [hid]⟩

theorem safeRequest_writeRequest {requestedAt : String} (htime : len requestedAt ≤ 64) :
    (host.writeRequest id action requestedAt).safeRequest id action = true := by
  have hmem : ⟨id, action, ⟨.regular, host.requestOwner, 0o640,
      len ("requested_at=" ++ requestedAt ++ "\n")⟩⟩ ∈
        (host.writeRequest id action requestedAt).requests.files :=
    List.mem_append_right _ (List.mem_singleton_self _)
  have hfile := requestFile_of_mem hmem rfl
  have hsize : len ("requested_at=" ++ requestedAt ++ "\n") ≤ 4096 := by
    have hkey : len "requested_at=" = 13 := by decide
    have hend : len "\n" = 1 := by decide
    simp only [len, String.utf8ByteSize_append] at hkey hend htime ⊢
    omega
  rw [ModuleHost.safeRequest, hfile, Option.any_some, safeRequestFile]
  simp only [decide_true, Bool.true_and, Bool.and_eq_true, decide_eq_true_eq]
  exact ⟨⟨rfl, hsize⟩, rfl⟩

variable {record : Record} {source : ManifestFile}

theorem registerOne_taken (hsafe : host.safeRequest id .install = true)
    (hsource : host.registrable id = some source) (hreadable : Readable host.active)
    (attempt : Attempt) :
    ∃ outcome host', registerOne host id attempt = some (outcome, host') ∧
      (outcome = .done ∨ outcome = .failed) := by
  have hstart : Confined host (fun _ _ _ ↦ True) host :=
    Confined.refl hreadable fun _ _ _ _ ↦ trivial
  obtain ⟨hmem, hstem⟩ := lookup_eq_some.mp (registrable_eq_some.mp hsource).2.2.2.1
  obtain ⟨record, hrecord⟩ :=
    exists_loadModule (hstart.place hsource).readable (mem_place.mpr (.inr rfl))
  rw [hstem] at hrecord
  obtain ⟨aside, hclear⟩ := clearAside_eq { host with active := place host.active source } id .install
  unfold registerOne
  rw [if_neg (by simp [hsafe]), hsource]
  dsimp only
  rw [hclear, hrecord, if_neg (by simp)]
  generalize updateModule { host with active := place host.active source, aside } id true attempt =
    result
  obtain ⟨success, next⟩ := result
  cases success with
  | true => exact ⟨_, _, rfl, .inl rfl⟩
  | false => exact ⟨_, _, rfl, .inr rfl⟩

theorem isFile_of_safeRequest (h : host.safeRequest id action = true) :
    (host.requestFile id action).any (·.isFile) = true := by
  rw [ModuleHost.safeRequest] at h
  cases hfile : host.requestFile id action with
  | none =>
    rw [hfile] at h
    cases h
  | some file =>
    rw [hfile, Option.any_some] at h
    simp only [safeRequestFile, Bool.and_eq_true, decide_eq_true_eq] at h
    rw [Option.any_some, RequestFile.isFile, h.1.1.1]
    rfl

theorem runOne_taken (hsafe : host.safeRequest id .update = true)
    (hretired : ¬moduleIsRetired id = true) (attempt : Attempt) :
    (runOne host id attempt).1 = .done ∨ (runOne host id attempt).1 = .failed := by
  unfold runOne
  rw [if_neg (by simp [isFile_of_safeRequest hsafe]), if_neg hretired, if_neg (by simp [hsafe])]
  generalize updateModule host id true attempt = result
  obtain ⟨success, next⟩ := result
  cases success with
  | true => exact .inl rfl
  | false => exact .inr rfl

theorem removeOne_taken (hsafe : host.safeRequest id .remove = true)
    (hload : loadModule host.active id = some record) :
    (removeOne host id).1 = .done ∨ (removeOne host id).1 = .blocked ∧ host.inUse id = true := by
  obtain ⟨file, hfile, -, hstem, -, -⟩ := loadModule_eq_some.mp hload
  unfold removeOne
  rw [if_neg (by simp [hsafe]), hload, lookup_eq_some.mpr ⟨hfile, hstem⟩]
  dsimp only
  split_ifs with huse
  · exact .inr ⟨rfl, huse⟩
  · exact .inl rfl

theorem lifecycleOne_taken (hsafe : host.safeRequest id action = true)
    (hretired : ¬moduleIsRetired id = true) (hload : loadModule host.active id = some record)
    (obeyed : Bool) :
    (lifecycleOne host action id obeyed).1 = .done ∨ (lifecycleOne host action id obeyed).1 = .failed ∨
      (lifecycleOne host action id obeyed).1 = .rejected ∧ host.executable record = false := by
  unfold lifecycleOne
  rw [if_neg (by simp [hsafe]), if_neg hretired, hload]
  dsimp only
  split_ifs with hmissing hobeyed
  · exact .inr (.inr ⟨rfl, by simpa using hmissing⟩)
  · exact .inl rfl
  · exact .inr (.inl rfl)

/-- What the panel accepts the worker takes up, as long as the manifests stay: no request of the
panel is ever thrown away or turned down, but for a core in use and a program that is not there. -/
theorem accepted_taken_up (host : ModuleHost) (id : String) (action : RuntimeLifecycleAction)
    (requestedAt : String) (attempt : Attempt) (obeyed : Bool) {host' : ModuleHost}
    (htime : len requestedAt ≤ 64)
    (haccepted : requestLifecycle host id action requestedAt = .ok host') :
    (action = .update → id ∈ moduleIds host') ∧
    ∃ outcome host'', takeUp host' action id attempt obeyed = some (outcome, host'') ∧
      (outcome = .done ∨ outcome = .failed ∨
        outcome = .blocked ∧ action = .remove ∧ host.inUse id = true ∨
        outcome = .rejected ∧ (action = .start ∨ action = .stop ∨ action = .restart) ∧
          ∃ record, loadModule host.active id = some record ∧ host.executable record = false) := by
  obtain ⟨hasked, rfl⟩ := requestLifecycle_ok haccepted
  have hsafe : (host.writeRequest id action requestedAt).safeRequest id action = true :=
    safeRequest_writeRequest htime
  have hretired : ¬moduleIsRetired id = true := by rw [hasked.kept]; decide
  have hloads : action ≠ .install → ∃ record, loadModule host.active id = some record := by
    intro hne
    obtain ⟨file, hfile, rfl⟩ := hasked.active hne
    exact exists_loadModule hasked.readable hfile
  refine ⟨fun hupdate ↦ ?_, ?_⟩
  · obtain ⟨file, hfile, rfl⟩ := hasked.active (by rw [hupdate]; decide)
    have hreadable : Readable (host.writeRequest file.stem action requestedAt).active := hasked.readable
    have hfound : lookup host.active file.stem = some file := lookup_eq_some.mpr ⟨hfile, rfl⟩
    refine (mem_moduleIds hreadable).mpr ?_
    exact fun hnone ↦ Option.some_ne_none file (hfound.symm.trans hnone)
  · have hservice : action ≠ .install → action = .start ∨ action = .stop ∨ action = .restart →
        ∃ outcome host'', some (lifecycleOne (host.writeRequest id action requestedAt) action id obeyed) =
          some (outcome, host'') ∧ (outcome = .done ∨ outcome = .failed ∨
            outcome = .blocked ∧ action = .remove ∧ host.inUse id = true ∨
            outcome = .rejected ∧ (action = .start ∨ action = .stop ∨ action = .restart) ∧
              ∃ record, loadModule host.active id = some record ∧ host.executable record = false) := by
      intro hne haction
      obtain ⟨record, hload⟩ := hloads hne
      refine ⟨_, _, rfl, ?_⟩
      rcases lifecycleOne_taken hsafe hretired hload obeyed with hdone | hfailed | hrejected
      · exact .inl hdone
      · exact .inr (.inl hfailed)
      · exact .inr (.inr (.inr ⟨hrejected.1, haction, record, hload, hrejected.2⟩))
    cases action with
    | install =>
      obtain ⟨hfree, file, hsource, hread⟩ := hasked.catalog rfl
      have hregistrable : (host.writeRequest id .install requestedAt).registrable id = some file :=
        registrable_eq_some.mpr ⟨hasked.kept, Manager.matchesModuleId_of_validId hasked.valid, hfree,
          hsource, hread⟩
      obtain ⟨outcome, next, hturn, houtcome⟩ :=
        registerOne_taken hsafe hregistrable hasked.readable attempt
      exact ⟨outcome, next, hturn, houtcome.imp_right .inl⟩
    | update => exact ⟨_, _, rfl, (runOne_taken hsafe hretired attempt).imp_right .inl⟩
    | remove =>
      obtain ⟨record, hload⟩ := hloads (by decide)
      refine ⟨_, _, rfl, (removeOne_taken hsafe hload).imp_right fun hblocked ↦ ?_⟩
      exact .inr (.inl ⟨hblocked.1, rfl, hblocked.2⟩)
    | start => exact hservice (by decide) (.inl rfl)
    | stop => exact hservice (by decide) (.inr (.inl rfl))
    | restart => exact hservice (by decide) (.inr (.inr rfl))

def demoTime : String := "2026-01-01T00:00:00+00:00"

theorem demo_accepted : requestLifecycle (demoHost none) "demo" .remove demoTime =
    .ok ((demoHost none).writeRequest "demo" .remove demoTime) := by
  have hregistry : (demoHost none).registry = .ok [acceptedDemo "demo"] := by
    rw [ModuleHost.registry, demoHost, Manager.demoDirectory_loads]
    rfl
  have hfind : (demoHost none).find "demo" = .ok (some (acceptedDemo "demo")) := by
    rw [ModuleHost.find, hregistry]
    rfl
  rw [requestLifecycle, hfind]
  rfl

theorem accepted_taken_up_demo :
    ∃ outcome host'', takeUp ((demoHost none).writeRequest "demo" .remove demoTime) .remove "demo"
        pinnedAttempt true = some (outcome, host'') ∧
      (outcome = .done ∨ outcome = .failed ∨
        outcome = .blocked ∧ RuntimeLifecycleAction.remove = .remove ∧
          (demoHost none).inUse "demo" = true ∨
        outcome = .rejected ∧ (RuntimeLifecycleAction.remove = .start ∨
          RuntimeLifecycleAction.remove = .stop ∨ RuntimeLifecycleAction.remove = .restart) ∧
          ∃ record, loadModule (demoHost none).active "demo" = some record ∧
            (demoHost none).executable record = false) :=
  (accepted_taken_up (demoHost none) "demo" .remove demoTime pinnedAttempt true (by decide)
    demo_accepted).2

end StealthHub.Updater

import StealthHub.Adapters
import StealthHub.Data.IpAddr
import StealthHub.Updater.Confined

set_option autoImplicit false

namespace StealthHub.Updater

open Text EnvFile Modules
open Manager (ManifestFile ModuleDirectory loadRegistry)

def quotedId (id : String) : String := "\"" ++ id ++ "\""

/-- What `compare_and_set_applied` writes. -/
def appliedText (state : AppliedState) : String :=
  "\x7b\"generation\":" ++ toString state.generation ++ ",\"active_core_ids\":[" ++
    ",".intercalate (state.activeCoreIds.map quotedId) ++ "]\x7d"

/-- The record of a generation that uses a core; every core has the identifier of an adapter. -/
def Uses (applied : Option String) (id : String) : Prop :=
  ∃ state : AppliedState, applied = some (appliedText state) ∧ id ∈ state.activeCoreIds ∧
    ∀ coreId ∈ state.activeCoreIds, validAdapterId coreId = true

variable {host host' start : ModuleHost} {record : Record} {id other : String} {attempt : Attempt}
  {directory : ModuleDirectory} {file source : ManifestFile} {action : RuntimeLifecycleAction}

theorem quotedId_toList (id : String) : (quotedId id).toList = '"' :: id.toList ++ ['"'] := by
  rw [quotedId, String.toList_append, String.toList_append]
  rfl

theorem quotedIds_plain {ids : List String} (h : ∀ id ∈ ids, validAdapterId id = true) :
    ∀ c ∈ (",".intercalate (ids.map quotedId)).toList, c ≠ ']' ∧ c ≠ '\n' := by
  have hcomma : ∀ c ∈ ",".toList, c ≠ ']' ∧ c ≠ '\n' := by
    intro c hc
    rw [List.mem_singleton.mp hc]
    decide
  refine forall_mem_intercalate hcomma fun piece hpiece ↦ ?_
  obtain ⟨id, hid, rfl⟩ := List.mem_map.mp hpiece
  have hvalid := h id hid
  simp only [validAdapterId, Bool.and_eq_true, List.all_eq_true] at hvalid
  rw [quotedId_toList]
  refine List.forall_mem_append.mpr ⟨List.forall_mem_cons.mpr ⟨by decide, fun c hc ↦ ?_⟩,
    List.forall_mem_singleton.mpr (by decide)⟩
  have hchar := hvalid.1.2 c hc
  constructor
  · rintro rfl
    revert hchar
    decide
  · rintro rfl
    revert hchar
    decide

theorem infix_intercalate {α : Type} {separator piece : List α} {pieces : List (List α)}
    (h : piece ∈ pieces) : piece <:+: separator.intercalate pieces := by
  induction pieces with
  | nil => exact absurd h List.not_mem_nil
  | cons first rest ih =>
    cases rest with
    | nil =>
      rw [List.mem_singleton.mp h, List.intercalate_singleton]
    | cons next rest =>
      rw [List.intercalate_cons_cons]
      rcases List.mem_cons.mp h with rfl | h
      · exact ⟨[], separator ++ separator.intercalate (next :: rest), by
          rw [List.nil_append, List.append_assoc]⟩
      · exact (ih h).trans (List.suffix_append _ _).isInfix

theorem dropPrefix?_mark {mark : Char} {l : List Char} (h : isSpace mark = false) :
    ((mark :: l).dropWhile isSpace).dropPrefix? [mark] = some l := by
  rw [List.dropWhile_cons_of_neg (by simp [h])]
  exact List.dropPrefix?_append_of_beq l (beq_self_eq_true [mark])

theorem coreListOf_append {listed behind : List Char} (h : ']' ∉ listed) :
    coreListOf (activeCoreIdsKey ++ ':' :: '[' :: (listed ++ ']' :: behind)) = some listed := by
  have hkey : (activeCoreIdsKey ++ ':' :: '[' :: (listed ++ ']' :: behind)).dropPrefix?
      activeCoreIdsKey = some (':' :: '[' :: (listed ++ ']' :: behind)) :=
    List.dropPrefix?_append_of_beq _ (beq_self_eq_true _)
  have htake : (listed ++ ']' :: behind).takeWhile (· ≠ ']') = listed := by
    have hall : ∀ c ∈ listed, decide (c ≠ ']') = true := by
      intro c hc
      refine decide_eq_true fun hsame ↦ h ?_
      rwa [← hsame]
    rw [List.takeWhile_append_of_pos hall]
    simp
  rw [coreListOf, hkey, Option.bind_eq_bind, Option.bind_some, dropPrefix?_mark (by decide),
    Option.bind_some, dropPrefix?_mark (by decide), Option.bind_some, htake]
  rfl

theorem toList_listed {opening generation middle ids closing : String} {key : List Char}
    (hmiddle : middle.toList = ',' :: (key ++ [':', '['])) (hclosing : closing.toList = [']', '}']) :
    (opening ++ generation ++ middle ++ ids ++ closing).toList =
      opening.toList ++ generation.toList ++ [','] ++
        (key ++ ':' :: '[' :: (ids.toList ++ ']' :: ['}'])) := by
  simp only [String.toList_append, hmiddle, hclosing, List.append_assoc, List.cons_append,
    List.nil_append]

theorem appliedText_toList (state : AppliedState) : (appliedText state).toList =
    "\x7b\"generation\":".toList ++ (toString state.generation).toList ++ [','] ++
      (activeCoreIdsKey ++ ':' :: '[' ::
        ((",".intercalate (state.activeCoreIds.map quotedId)).toList ++ ']' :: ['}'])) :=
  toList_listed (by decide) (by decide)

theorem newline_notMem_toString (n : ℕ) : '\n' ∉ (toString n).toList := by
  have hdigits : (toString n).toList = Nat.toDigits 10 n := by simp [toString, Nat.repr]
  rw [hdigits]
  intro hmem
  obtain ⟨digit, hdigit, hchar⟩ := mem_toDigits (by decide) hmem
  have haddress := (digitChar_address digit (by omega)).1
  rw [← hchar] at haddress
  exact absurd haddress (by decide)

theorem appliedText_oneLine {state : AppliedState}
    (h : ∀ coreId ∈ state.activeCoreIds, validAdapterId coreId = true) :
    '\n' ∉ (appliedText state).toList := by
  have hkey : '\n' ∉ activeCoreIdsKey := by decide
  have hopen : '\n' ∉ "\x7b\"generation\":".toList := by decide
  have hids := fun hmem ↦ (quotedIds_plain h '\n' hmem).2 rfl
  rw [appliedText_toList]
  simp only [List.mem_append, List.mem_cons, not_or, List.not_mem_nil, not_false_eq_true, and_true]
  exact ⟨⟨⟨hopen, newline_notMem_toString _⟩, by decide⟩, hkey, by decide, by decide, hids,
    by decide, by decide⟩

theorem namesActiveCore_of_mem {state : AppliedState} (hmem : id ∈ state.activeCoreIds)
    (h : ∀ coreId ∈ state.activeCoreIds, validAdapterId coreId = true) :
    namesActiveCore id (appliedText state) = true := by
  rw [namesActiveCore, fileLines, split_eq_singleton (appliedText_oneLine h), List.any_cons,
    Bool.or_eq_true]
  refine .inl (List.any_eq_true.mpr ⟨_, (List.mem_tails _ _).mpr ⟨_, (appliedText_toList state).symm⟩, ?_⟩)
  rw [coreListOf_append fun hend ↦ (quotedIds_plain h _ hend).1 rfl]
  rw [Option.any_some, containsList_iff, String.toList_intercalate]
  exact infix_intercalate (List.mem_map_of_mem (List.mem_map_of_mem hmem))

theorem Uses.inUse (h : Uses host.applied id) : host.inUse id = true := by
  obtain ⟨state, happlied, hmem, hvalid⟩ := h
  rw [ModuleHost.inUse, happlied, Option.any_some, namesActiveCore_of_mem hmem hvalid]

theorem Uses.of_same (h : Uses host.applied id) (hsame : host'.applied = host.applied) :
    Uses host'.applied id := by
  rwa [hsame]

/-- A reconciliation that still uses the core. -/
def Step.Keeps (id : String) : Step → Prop
  | .reconciled applied => Uses applied id
  | _ => True

theorem lookup_place_of_ne (h : source.stem ≠ id) (hlookup : lookup directory id = some file) :
    lookup (place directory source) id = some file := by
  obtain ⟨hmem, rfl⟩ := lookup_eq_some.mp hlookup
  exact lookup_eq_some.mpr ⟨mem_place.mpr (.inl ⟨hmem, Ne.symm h⟩), rfl⟩

theorem lookup_drop_of_ne (h : other ≠ id) (hlookup : lookup directory id = some file) :
    lookup (drop directory other) id = some file := by
  obtain ⟨hmem, rfl⟩ := lookup_eq_some.mp hlookup
  exact lookup_eq_some.mpr ⟨mem_drop.mpr ⟨hmem, Ne.symm h⟩, rfl⟩

/-- What a core that is in use keeps: its manifest, and the runtime of a module of its name. -/
structure Kept (id : String) (host host' : ModuleHost) : Prop where
  manifest : ∀ file, lookup host.active id = some file → lookup host'.active id = some file
  runtime : ∀ record : Record, record.id = id → (host.runtime record).isSome = true →
    (host'.runtime record).isSome = true

theorem Kept.refl (id : String) (host : ModuleHost) : Kept id host host :=
  ⟨fun _ h ↦ h, fun _ _ h ↦ h⟩

theorem Kept.of_same (hactive : host'.active = host.active) (hplaces : host'.places = host.places) :
    Kept id host host' where
  manifest := fun _ hfile ↦ hactive ▸ hfile
  runtime := fun _ _ h ↦ by rwa [ModuleHost.runtime, ModuleHost.placeOf, hplaces]

theorem Kept.trans {next : ModuleHost} (h : Kept id host next) (h' : Kept id next host') :
    Kept id host host' where
  manifest := fun file hfile ↦ h'.manifest file (h.manifest file hfile)
  runtime := fun record hid hruntime ↦ h'.runtime record hid (h.runtime record hid hruntime)

theorem Kept.settle (h : Kept id host host' ∧ host'.applied = host.applied) :
    Kept id host (host'.settle other action) ∧
      (host'.settle other action).applied = host.applied := by
  obtain ⟨hactive, hplaces, happlied⟩ := settle_same host' other action
  exact ⟨h.1.trans (.of_same hactive hplaces), happlied.trans h.2⟩

theorem Kept.setAside (h : Kept id host host' ∧ host'.applied = host.applied) :
    Kept id host (host'.setAside other action) ∧
      (host'.setAside other action).applied = host.applied := by
  obtain ⟨hactive, hplaces, happlied⟩ := setAside_same host' other action
  exact ⟨h.1.trans (.of_same hactive hplaces), happlied.trans h.2⟩

theorem Within.kept (h : Within record host host') (id : String) : Kept id host host' where
  manifest := fun _ hfile ↦ h.active ▸ hfile
  runtime := fun _ _ hruntime ↦ h.present _ hruntime

theorem kept_updateModule (host : ModuleHost) (id other : String) (allowDowngrade : Bool)
    (attempt : Attempt) : Kept id host (updateModule host other allowDowngrade attempt).2 := by
  rcases within_updateModule host other allowDowngrade attempt with hsame | ⟨record, -, hwithin⟩
  · rw [hsame]
    exact Kept.refl id host
  · exact hwithin.kept id

theorem applied_updateModule (host : ModuleHost) (id : String) (allowDowngrade : Bool)
    (attempt : Attempt) : (updateModule host id allowDowngrade attempt).2.applied = host.applied := by
  rcases within_updateModule host id allowDowngrade attempt with hsame | ⟨record, -, hwithin⟩
  · rw [hsame]
  · exact hwithin.applied

theorem kept_place (hsource : host.registrable other = some source)
    (aside : String → RuntimeLifecycleAction → Aside) :
    Kept id host { host with active := place host.active source, aside } where
  manifest := fun file hfile ↦ by
    obtain ⟨-, -, hfree, hlookup, -⟩ := registrable_eq_some.mp hsource
    obtain ⟨-, hstem⟩ := lookup_eq_some.mp hlookup
    refine lookup_place_of_ne (fun hsame ↦ ?_) hfile
    rw [← hsame, hstem, hfree] at hfile
    cases hfile
  runtime := fun _ _ h ↦ h

theorem kept_registerOne (id : String) {outcome : Outcome}
    (h : registerOne host other attempt = some (outcome, host')) :
    Kept id host host' ∧ host'.applied = host.applied := by
  unfold registerOne at h
  split_ifs at h with hsafe
  · obtain ⟨-, rfl⟩ := Prod.mk.inj (Option.some.inj h)
    exact ⟨Kept.of_same rfl rfl, rfl⟩
  cases hsource : host.registrable other with
  | none =>
    rw [hsource] at h
    obtain ⟨-, rfl⟩ := Prod.mk.inj (Option.some.inj h)
    exact Kept.setAside ⟨Kept.refl id host, rfl⟩
  | some source =>
    rw [hsource] at h
    obtain ⟨aside, hclear⟩ := clearAside_eq { host with active := place host.active source } other
      .install
    dsimp only at h
    rw [hclear] at h
    split_ifs at h
    obtain ⟨-, -, hfree, -, -⟩ := registrable_eq_some.mp hsource
    have hkept := (kept_place hsource aside).trans
      (kept_updateModule { host with active := place host.active source, aside } id other true attempt)
    have happlied := applied_updateModule { host with active := place host.active source, aside } other
      true attempt
    revert hkept happlied h
    generalize updateModule { host with active := place host.active source, aside } other true
      attempt = result
    obtain ⟨success, next⟩ := result
    intro h hkept happlied
    cases success with
    | true =>
      obtain ⟨-, rfl⟩ := Prod.mk.inj (Option.some.inj h)
      exact ⟨hkept.trans (.of_same rfl rfl), happlied⟩
    | false =>
      obtain ⟨-, rfl⟩ := Prod.mk.inj (Option.some.inj h)
      refine Kept.setAside ⟨⟨fun file hfile ↦ lookup_drop_of_ne (fun hsame ↦ ?_)
        (hkept.manifest file hfile), hkept.runtime⟩, happlied⟩
      rw [← hsame, hfree] at hfile
      cases hfile

theorem kept_removeOne (h : host.inUse id = true) (other : String) :
    Kept id host (removeOne host other).2 ∧ (removeOne host other).2.applied = host.applied := by
  have hsame : Kept id host host ∧ host.applied = host.applied := ⟨Kept.refl id host, rfl⟩
  unfold removeOne
  by_cases hsafe : (!host.safeRequest other .remove) = true
  · rw [if_pos hsafe]
    exact ⟨Kept.of_same rfl rfl, rfl⟩
  rw [if_neg hsafe]
  cases hload : loadModule host.active other with
  | none => exact Kept.setAside hsame
  | some record =>
    cases hfile : lookup host.active other with
    | none => exact Kept.setAside hsame
    | some file =>
      dsimp only
      split_ifs with huse
      · exact Kept.setAside hsame
      · have hne : other ≠ id := by
          rintro rfl
          exact huse h
        obtain ⟨found, -, spec, hstem, hread, hrecord⟩ := loadModule_eq_some.mp hload
        have hid : record.id = other := by
          rw [hrecord, ← hstem]
          exact (Manager.readManifest_ok hread).1
        refine Kept.settle ⟨⟨fun kept hkept ↦ lookup_drop_of_ne (hid ▸ hne) hkept,
          fun record' hid' hruntime ↦ ?_⟩, rfl⟩
        have hroot : runtimeRoot record' ≠ runtimeRoot record :=
          runtimeRoot_ne (by rw [hid', hid]; exact Ne.symm hne)
        have hplace : (host.removed record file).placeOf record' = host.placeOf record' :=
          Function.update_of_ne hroot _ _
        rwa [ModuleHost.runtime, hplace]

theorem kept_lifecycleOne (id other : String) (obeyed : Bool) :
    Kept id host (lifecycleOne host action other obeyed).2 ∧
      (lifecycleOne host action other obeyed).2.applied = host.applied := by
  have hsame : Kept id host host ∧ host.applied = host.applied := ⟨Kept.refl id host, rfl⟩
  unfold lifecycleOne
  cases hload : loadModule host.active other with
  | none =>
    dsimp only
    split_ifs
    · exact ⟨Kept.of_same rfl rfl, rfl⟩
    · exact Kept.setAside hsame
    · exact Kept.setAside hsame
  | some record =>
    have hact : Kept id host (host.act [.service action.requestSuffix record.service]) ∧
        (host.act [.service action.requestSuffix record.service]).applied = host.applied :=
      ⟨Kept.of_same rfl rfl, rfl⟩
    dsimp only
    split_ifs
    · exact ⟨Kept.of_same rfl rfl, rfl⟩
    · exact Kept.setAside hsame
    · exact Kept.setAside hsame
    · exact Kept.settle hact
    · exact Kept.setAside hact

theorem kept_runOne (id other : String) : Kept id host (runOne host other attempt).2 ∧
    (runOne host other attempt).2.applied = host.applied := by
  have hsame : Kept id host host ∧ host.applied = host.applied := ⟨Kept.refl id host, rfl⟩
  unfold runOne
  have hkept := kept_updateModule host id other true attempt
  have happlied := applied_updateModule host other true attempt
  revert hkept happlied
  generalize updateModule host other true attempt = result
  obtain ⟨success, next⟩ := result
  intro hkept happlied
  split_ifs
  · exact hsame
  · exact Kept.setAside hsame
  · exact ⟨Kept.of_same rfl rfl, rfl⟩
  · cases success with
    | true => exact Kept.settle ⟨hkept, happlied⟩
    | false => exact Kept.setAside ⟨hkept, happlied⟩

theorem kept_automaticOne (id other : String) : Kept id host (automaticOne host other attempt).2 ∧
    (automaticOne host other attempt).2.applied = host.applied := by
  unfold automaticOne
  have hkept := kept_updateModule host id other false attempt
  have happlied := applied_updateModule host other false attempt
  revert hkept happlied
  generalize updateModule host other false attempt = result
  obtain ⟨success, next⟩ := result
  intro hkept happlied
  split_ifs
  · exact ⟨Kept.refl id host, rfl⟩
  · cases success with
    | true => exact ⟨hkept, happlied⟩
    | false => exact ⟨hkept, happlied⟩
  · exact ⟨Kept.refl id host, rfl⟩

theorem kept_step (h : Uses host.applied id) {step : Step} (hkeeps : step.Keeps id)
    (hstep : host.step step = some host') : Kept id host host' ∧ Uses host'.applied id := by
  cases step with
  | panel files =>
    obtain rfl := Option.some.inj hstep
    exact ⟨Kept.of_same rfl rfl, h⟩
  | begin found =>
    obtain rfl := Option.some.inj hstep
    obtain ⟨hactive, hplaces, happlied⟩ := begin_same host found
    exact ⟨Kept.of_same hactive hplaces, h.of_same happlied⟩
  | due now =>
    obtain rfl := Option.some.inj hstep
    exact ⟨Kept.refl id host, h⟩
  | reconciled applied =>
    obtain rfl := Option.some.inj hstep
    exact ⟨Kept.of_same rfl rfl, hkeeps⟩
  | register other attempt =>
    obtain ⟨⟨outcome, next⟩, hregister, rfl⟩ := Option.map_eq_some_iff.mp hstep
    exact (kept_registerOne id hregister).imp_right h.of_same
  | remove other =>
    obtain rfl := Option.some.inj hstep
    exact (kept_removeOne h.inUse other).imp_right h.of_same
  | lifecycle action other obeyed =>
    obtain rfl := Option.some.inj hstep
    exact (kept_lifecycleOne id other obeyed).imp_right h.of_same
  | update other attempt =>
    obtain rfl := Option.some.inj hstep
    exact (kept_runOne id other).imp_right h.of_same
  | automatic other attempt =>
    obtain rfl := Option.some.inj hstep
    exact (kept_automaticOne id other).imp_right h.of_same

theorem kept_run (h : Uses host.applied id) {steps : List Step} (hkeeps : ∀ step ∈ steps, step.Keeps id)
    (hrun : host.run steps = some host') : Kept id host host' := by
  induction steps generalizing host with
  | nil =>
    obtain rfl := Option.some.inj hrun
    exact Kept.refl id host
  | cons step rest ih =>
    obtain ⟨hstep, hrest⟩ := List.forall_mem_cons.mp hkeeps
    rw [ModuleHost.run, List.foldlM_cons] at hrun
    obtain ⟨next, hnext, hrun⟩ := Option.bind_eq_some_iff.mp hrun
    obtain ⟨hkept, huses⟩ := kept_step h hstep hnext
    exact hkept.trans (ih huses hrest hrun)

/-- As long as every generation that is applied uses a core, no order of requests makes the worker
take its manifest or its runtime away. -/
theorem in_use_kept (start : ModuleHost) (steps : List Step) (id : String) {specs : List ModuleSpec}
    (hregistry : loadRegistry start.active = .ok specs) (huses : Uses start.applied id)
    (hkeeps : ∀ step ∈ steps, step.Keeps id) :
    ∃ host, start.run steps = some host ∧
      (∀ file, lookup start.active id = some file → lookup host.active id = some file) ∧
      ∀ record : Record, record.id = id → (start.runtime record).isSome = true →
        (host.runtime record).isSome = true := by
  obtain ⟨host, hrun, -⟩ := exists_run (readable_of_loadRegistry hregistry) steps
  have hkept := kept_run huses hkeeps hrun
  exact ⟨host, hrun, hkept.manifest, hkept.runtime⟩

theorem in_use_kept_demo :
    ∃ host, (demoHost (some (appliedText ⟨7, ["demo"]⟩))).run demoRemoval = some host ∧
      lookup host.active "demo" = some Manager.demoFile ∧
      (host.runtime (recordOf (acceptedDemo "demo"))).isSome = true := by
  have huses : Uses (some (appliedText ⟨7, ["demo"]⟩)) "demo" :=
    ⟨⟨7, ["demo"]⟩, rfl, List.mem_singleton_self _, by decide⟩
  have hkeeps : ∀ step ∈ demoRemoval, step.Keeps "demo" :=
    List.forall_mem_cons.mpr
      ⟨trivial, List.forall_mem_cons.mpr ⟨trivial, List.forall_mem_singleton.mpr trivial⟩⟩
  obtain ⟨host, hrun, hmanifest, hruntime⟩ :=
    in_use_kept (demoHost (some (appliedText ⟨7, ["demo"]⟩))) demoRemoval "demo"
      Manager.demoDirectory_loads huses hkeeps
  have hactive : lookup Manager.demoDirectory "demo" = some Manager.demoFile :=
    lookup_eq_some.mpr ⟨List.mem_singleton_self _, rfl⟩
  have hinstalled : (demoHost (some (appliedText ⟨7, ["demo"]⟩))).runtime
      (recordOf (acceptedDemo "demo")) = some ⟨"1.2.0", ["demo"]⟩ := by decide
  exact ⟨host, hrun, hmanifest _ hactive, hruntime _ rfl (by rw [hinstalled]; rfl)⟩

end StealthHub.Updater

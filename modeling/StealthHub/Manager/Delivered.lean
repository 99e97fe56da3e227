import Mathlib.Data.List.Nodup
import StealthHub.Manager.Flight
import StealthHub.Manager.Helper
import StealthHub.Modules.Containment

set_option autoImplicit false

namespace StealthHub.Manager

open Text Modules

variable {action : Action} {values : List String} {snapshot : Snapshot}
  {directory : ModuleDirectory} {value : String} {field : Field} {spec : ModuleSpec}

def httpsAccepted (zone host email ip token : String) : Bool :=
  validDomain zone && validDomain host && validIpv4 ip &&
    (host = zone || endsWith host ("." ++ zone)) && matchesEmail email && validCloudflareToken token

/-- What an operation asks for, whatever it takes to have it carried out. -/
def requested (directory : ModuleDirectory) (verb : String) (values : List String) :
    Option Effect :=
  match values with
  | [] => some (.run verb)
  | [value] =>
    if verb = "logs" then
      if managerKnownService directory value then some (.journal value) else none
    else if startsWith verb "module-" then
      (managerModuleService directory value).map (.onModule verb value)
    else if startsWith verb "secret-" then some (.onSecret verb value)
    else some (.removal verb value)
  | [reference, secret] => some (.storeSecret reference secret)
  | [zone, host, email, ip, token] =>
    if httpsAccepted zone host email ip token then some (.https token zone host email ip) else none
  | _ => none

def Delivered (directory : ModuleDirectory) (action : Action) (values : List String) : Prop :=
  managerMain directory (action.invocation values) = requested directory action.verb values

/-- What the value of a field has passed. -/
structure Passes (value : String) (field : Field) : Prop where
  filled : value ≠ ""
  bounded : len value ≤ field.bound
  plain : ∀ c ∈ value.toList, isControl c = false
  chosen : field.choices ≠ [] → value ∈ field.choices

theorem checkValue_eq_ok : checkValue value field = .ok () ↔ Passes value field := by
  unfold checkValue
  constructor
  · intro h
    split_ifs at h with hbound hplain hchoice
    simp only [Bool.or_eq_true, Text.isEmpty_iff, decide_eq_true_eq, not_or, not_lt] at hbound
    refine ⟨hbound.1, hbound.2, fun c hc ↦ ?_, fun hne ↦ ?_⟩
    · simp only [Bool.not_eq_true', Bool.not_eq_false] at hplain
      simpa using List.all_eq_true.mp hplain c hc
    · simpa [hne] using hchoice
  · intro h
    rw [if_neg, if_neg, if_neg]
    · simpa using h.chosen
    · simpa using h.plain
    · simpa using ⟨h.filled, h.bounded⟩

theorem Validated.passes (h : Validated action values) {entry : String × Field}
    (hmem : entry ∈ values.zip action.fields) : Passes entry.1 entry.2 :=
  checkValue_eq_ok.mp (h.value entry hmem)

theorem length_le_len (s : String) : s.toList.length ≤ len s := by
  rw [← String.ofList_toList (s := s), len_ofList, String.toList_ofList]
  induction s.toList with
  | nil => exact Nat.zero_le _
  | cons c l ih =>
    rw [List.length_cons, List.map_cons, List.sum_cons]
    have hpos := Char.utf8Size_pos c
    omega

theorem validSecretReference_of (hne : value ≠ "") (h : isSecretReference value = true) :
    validSecretReference value = true := by
  simp only [isSecretReference, Bool.and_eq_true, decide_eq_true_eq] at h
  obtain ⟨⟨⟨hlen, hdot⟩, hdots⟩, hall⟩ := h
  have hpos : 1 ≤ value.toList.length := by
    rw [Nat.one_le_iff_ne_zero, ne_eq, List.length_eq_zero_iff, String.toList_eq_nil_iff]
    exact hne
  simp only [validSecretReference, Bool.and_eq_true, decide_eq_true_eq]
  exact ⟨⟨⟨⟨hpos, (length_le_len value).trans hlen⟩, hall⟩, hdot⟩, hdots⟩

theorem Passes.oneLine (h : Passes value field) : '\n' ∉ value.toList := by
  intro hmem
  have hplain := h.plain _ hmem
  revert hplain
  decide

theorem Passes.readLine (h : Passes value field) : readLine (some (value ++ "\n")) = some value := by
  have hsplit := @splitOnce_append value "" '\n' "\n" rfl h.oneLine
  rw [String.append_empty] at hsplit
  rw [Manager.readLine, Option.bind_some, hsplit]
  rfl

theorem Validated.one (h : Validated action values) (hfields : action.fields = [field]) :
    ∃ value, values = [value] ∧ Passes value field := by
  have hcount := h.count
  rw [hfields] at hcount
  obtain ⟨value, rfl⟩ := List.length_eq_one_iff.mp hcount
  exact ⟨value, rfl, h.passes (by rw [hfields]; exact List.mem_cons_self)⟩

theorem Validated.five (h : Validated action values) (hfields : action.fields = httpsFields) :
    ∃ zone host email ip token, values = [zone, host, email, ip, token] := by
  have hcount : values.length = 5 := by rw [h.count, hfields]; rfl
  obtain ⟨zone, rest, rfl⟩ := List.exists_cons_of_length_eq_add_one hcount
  have hrest : rest.length = 4 := Nat.succ.inj hcount
  obtain ⟨host, rest, rfl⟩ := List.exists_cons_of_length_eq_add_one hrest
  obtain ⟨email, ip, token, rfl⟩ := List.length_eq_three.mp (Nat.succ.inj hrest)
  exact ⟨zone, host, email, ip, token, rfl⟩

/-- An operation is delivered whatever the values that its form accepts. -/
def Delivers (directory : ModuleDirectory) (action : Action) : Prop :=
  ∀ values, Validated action values → Delivered directory action values

theorem delivers_bare (hfields : action.fields = [])
    (h : Delivered directory action []) : Delivers directory action := by
  intro values hvalid
  have hcount := hvalid.count
  rw [hfields, List.length_nil, List.length_eq_zero_iff] at hcount
  rwa [hcount]

theorem delivers_one (hfields : action.fields = [field])
    (h : ∀ value, Passes value field → checkSecret action [value] = .ok () →
      Delivered directory action [value]) : Delivers directory action := by
  intro values hvalid
  obtain ⟨value, rfl, hpasses⟩ := hvalid.one hfields
  exact h value hpasses hvalid.secret

theorem removalMode_of (h : Passes value (choice "Mode" removalModes)) : removalMode value = true := by
  have hmem : value ∈ removalModes := h.chosen (List.cons_ne_nil _ _)
  simp only [removalModes, List.mem_cons, List.not_mem_nil, or_false] at hmem
  rcases hmem with rfl | rfl | rfl <;> decide

theorem checkSecret_ok {rest : List String} (hverb : startsWith action.verb "secret-" = true)
    (h : checkSecret action (value :: rest) = .ok ()) : isSecretReference value = true := by
  unfold checkSecret at h
  rw [if_pos hverb] at h
  dsimp only at h
  split_ifs at h with hreference
  exact hreference

theorem requested_module {verb : String} (hlogs : verb ≠ "logs")
    (hverb : startsWith verb "module-" = true) :
    requested directory verb [value] =
      (managerModuleService directory value).map (.onModule verb value) := by
  simp only [requested]
  rw [if_neg hlogs, if_pos hverb]

theorem requested_secret {verb : String} (hlogs : verb ≠ "logs")
    (hmodule : startsWith verb "module-" = false) (hverb : startsWith verb "secret-" = true) :
    requested directory verb [value] = some (.onSecret verb value) := by
  simp only [requested]
  rw [if_neg hlogs, if_neg (Bool.eq_false_iff.mp hmodule), if_pos hverb]

theorem requested_removal {verb : String} (hlogs : verb ≠ "logs")
    (hmodule : startsWith verb "module-" = false) (hverb : startsWith verb "secret-" = false) :
    requested directory verb [value] = some (.removal verb value) := by
  simp only [requested]
  rw [if_neg hlogs, if_neg (Bool.eq_false_iff.mp hmodule), if_neg (Bool.eq_false_iff.mp hverb)]

section

variable {label verb : String} {confirmation : Option String} {sensitive : Bool}

theorem delivers_module (hlogs : verb ≠ "logs") (hverb : startsWith verb "module-" = true)
    (hmain : ∀ id, managerMain directory
      (Action.invocation ⟨label, verb, [moduleField snapshot], confirmation, sensitive⟩ [id]) =
        (managerModuleService directory id).map (.onModule verb id)) :
    Delivers directory ⟨label, verb, [moduleField snapshot], confirmation, sensitive⟩ :=
  delivers_one rfl fun id _ _ ↦ (hmain id).trans (requested_module hlogs hverb).symm

theorem delivers_reference (hlogs : verb ≠ "logs") (hmodule : startsWith verb "module-" = false)
    (hverb : startsWith verb "secret-" = true)
    (hmain : ∀ reference, managerMain directory (Action.invocation
      ⟨label, verb, [Manager.field "Reference name"], confirmation, sensitive⟩ [reference]) =
        if validSecretReference reference then some (.onSecret verb reference) else none) :
    Delivers directory ⟨label, verb, [Manager.field "Reference name"], confirmation, sensitive⟩ := by
  refine delivers_one rfl fun reference hpasses hsecret ↦ ?_
  have hreference := validSecretReference_of hpasses.filled (checkSecret_ok hverb hsecret)
  rw [Delivered, hmain, if_pos hreference]
  exact (requested_secret hlogs hmodule hverb).symm

theorem delivers_removal (hlogs : verb ≠ "logs") (hmodule : startsWith verb "module-" = false)
    (hverb : startsWith verb "secret-" = false)
    (hmain : ∀ mode, managerMain directory (Action.invocation
      ⟨label, verb, [choice "Mode" removalModes], confirmation, sensitive⟩ [mode]) =
        if removalMode mode then some (.removal verb mode) else none) :
    Delivers directory ⟨label, verb, [choice "Mode" removalModes], confirmation, sensitive⟩ := by
  refine delivers_one rfl fun mode hpasses _ ↦ ?_
  rw [Delivered, hmain, if_pos (removalMode_of hpasses)]
  exact (requested_removal hlogs hmodule hverb).symm

theorem delivers_store : Delivers directory ⟨label, "secret-store",
    [Manager.field "Reference name", secretField "Secret value"], some "STORE", sensitive⟩ := by
  intro values hvalid
  obtain ⟨reference, secret, rfl⟩ := List.length_eq_two.mp hvalid.count
  have hfirst := @Validated.passes _ _ hvalid (reference, Manager.field "Reference name")
    List.mem_cons_self
  have hsecond := @Validated.passes _ _ hvalid (secret, secretField "Secret value")
    (List.mem_cons_of_mem _ List.mem_cons_self)
  have hverb : startsWith "secret-store" "secret-" = true := by decide
  have hreference := validSecretReference_of hfirst.filled (checkSecret_ok hverb hvalid.secret)
  have hmain : managerMain directory (Action.invocation ⟨label, "secret-store",
      [Manager.field "Reference name", secretField "Secret value"], some "STORE", sensitive⟩
        [reference, secret]) =
    if validSecretReference reference then
      storePrivilegedSecret (some (secret ++ "\n")) reference else none := rfl
  have hbound : ¬(isEmpty secret || 8192 < len secret) = true := by
    simpa using ⟨hsecond.filled, hsecond.bounded⟩
  rw [Delivered, hmain, if_pos hreference, storePrivilegedSecret, hsecond.readLine,
    Option.bind_some, if_neg hbound]
  rfl

theorem delivers_https :
    Delivers directory ⟨label, "https-setup", httpsFields, some "HTTPS", sensitive⟩ := by
  intro values hvalid
  obtain ⟨zone, host, email, ip, token, rfl⟩ := hvalid.five rfl
  have htoken := @Validated.passes _ _ hvalid (token, secretField "Cloudflare API credential")
    (by simp [httpsFields])
  have hmain : managerMain directory (Action.invocation
      ⟨label, "https-setup", httpsFields, some "HTTPS", sensitive⟩
        [zone, host, email, ip, token]) =
    httpsSetup (some (token ++ "\n")) [zone, host, email, ip, "HTTPS"] := rfl
  rw [Delivered, hmain, httpsSetup]
  simp only [htoken.readLine, Option.bind_some, requested, httpsAccepted, decide_true,
    Bool.true_and, Bool.and_eq_true]
  split_ifs with hchecks htoken' haccepted haccepted haccepted
  · rfl
  · exact absurd ⟨hchecks, htoken'⟩ haccepted
  · exact absurd haccepted.2 htoken'
  · rfl
  · exact absurd haccepted.1 hchecks
  · rfl

end

theorem actions_users : actions "Users" snapshot = [] := rfl

theorem actions_profiles : actions "Profiles" snapshot = [] := rfl

theorem actions_routing : actions "Routing" snapshot = [] := rfl

theorem delivers_logs {label : String} {confirmation : List String} {sensitive : Bool} :
    Delivers directory ⟨label, "logs", [choice "Service" confirmation], none, sensitive⟩ :=
  delivers_one rfl fun _ _ _ ↦ rfl

theorem Offered.delivers (h : Offered snapshot action) : Delivers directory action := by
  obtain ⟨screen, hscreen, haction⟩ := h
  suffices h : ∀ screen ∈ SCREENS, ∀ action ∈ actions screen snapshot, Delivers directory action from
    h screen hscreen action haction
  simp only [SCREENS, List.forall_mem_cons, actions_users, actions_profiles, actions_routing]
  simp only [actions, List.forall_mem_cons, List.not_mem_nil, false_implies, implies_true, and_true,
    true_and]
  and_intros
  all_goals first
    | exact delivers_bare rfl rfl
    | exact delivers_module (by decide) (by decide) fun _ ↦ rfl
    | exact delivers_reference (by decide) (by decide) (by decide) fun _ ↦ rfl
    | exact delivers_removal (by decide) (by decide) (by decide) fun _ ↦ rfl
    | exact delivers_logs
    | exact delivers_store
    | exact delivers_https

theorem readManifest_ok {file : ManifestFile} (h : readManifest file = .ok spec) :
    spec.id = file.stem ∧ validId spec.id = true ∧
      recordService (pipeRecord spec) = some spec.service := by
  unfold readManifest at h
  split_ifs at h
  have hgiven := parseManifest_given h
  obtain ⟨values, read, hlines, hreads, hvalid⟩ := parseManifest_ok h
  have hclean : ∀ value ∈ recordFields read, Clean value :=
    hreads.clean (parseLines_clean hlines (by simp))
  have hrecord : recordFields spec = recordFields read := by
    rw [← (validateSpec_ok hvalid).2]
    rfl
  refine ⟨hgiven.stem, hgiven.accepted.id, ?_⟩
  rw [recordService, split_pipeRecord (by rwa [hrecord])]
  rfl

theorem matchesModuleId_of_validId {id : String} (h : validId id = true) :
    matchesModuleId id = true := by
  simp only [validId, Bool.and_eq_true, decide_eq_true_eq] at h
  obtain ⟨⟨⟨-, hlen⟩, hhead⟩, hall⟩ := h
  have hlength := (length_le_len id).trans hlen
  unfold matchesModuleId
  cases hid : id.toList with
  | nil =>
    rw [hid] at hhead
    cases hhead
  | cons first rest =>
    rw [hid] at hhead hall hlength
    simp only [Bool.and_eq_true, decide_eq_true_eq]
    exact ⟨⟨hhead, Nat.le_of_succ_le_succ hlength⟩, (Bool.and_eq_true _ _ ▸ hall).2⟩

theorem find?_stem {file : ManifestFile} (hmem : file ∈ directory.files) :
    directory.files.find? (·.stem = file.stem) = some file := by
  cases hfound : directory.files.find? (·.stem = file.stem) with
  | none => exact absurd (by simp) (List.find?_eq_none.mp hfound file hmem)
  | some other =>
    have hstem : other.stem = file.stem := by simpa using List.find?_some hfound
    have hother : other ∈ directory.files := List.mem_of_find?_eq_some hfound
    rw [List.inj_on_of_nodup_map directory.distinct hother hmem hstem]

theorem managerModuleService_of {file : ManifestFile} (hmem : file ∈ directory.files)
    (h : readManifest file = .ok spec) :
    managerModuleService directory spec.id = some spec.service ∧
      (manifestRecord directory spec.id).bind recordService = some spec.service := by
  obtain ⟨hstem, hid, hservice⟩ := readManifest_ok h
  have hrecord : manifestRecord directory spec.id = some (pipeRecord spec) := by
    rw [manifestRecord, hstem, find?_stem hmem, Option.bind_some, h]
    rfl
  rw [managerModuleService, if_pos (matchesModuleId_of_validId hid), hrecord, Option.bind_some]
  exact ⟨hservice, hservice⟩

theorem foldlM_addSpec {files : List ManifestFile} {specs specs' : List ModuleSpec}
    (h : files.foldlM addSpec specs = .ok specs') :
    ∀ spec ∈ specs', spec ∈ specs ∨ ∃ file ∈ files, readManifest file = .ok spec := by
  induction files generalizing specs with
  | nil =>
    intro spec hmem
    rw [List.foldlM_nil, Except.pure_eq_ok] at h
    exact .inl (h ▸ hmem)
  | cons file files ih =>
    rw [List.foldlM_cons] at h
    obtain ⟨next, hnext, hrest⟩ := Except.bind_eq_ok.mp h
    obtain ⟨read, hread, hadd⟩ := Except.bind_eq_ok.mp hnext
    obtain ⟨-, hadd⟩ := Except.guard_eq_ok.mp hadd
    intro spec hmem
    rcases ih hrest spec hmem with hmem | ⟨other, hother, hspec⟩
    · rw [← Except.pure_eq_ok.mp hadd] at hmem
      rcases List.mem_append.mp hmem with hmem | hmem
      · exact .inl hmem
      · rw [List.mem_singleton.mp hmem]
        exact .inr ⟨file, List.mem_cons_self, hread⟩
    · exact .inr ⟨other, List.mem_cons_of_mem _ hother, hspec⟩

theorem loadRegistry_mem {specs : List ModuleSpec} (h : loadRegistry directory = .ok specs)
    (hmem : spec ∈ specs) : ∃ file ∈ directory.files, readManifest file = .ok spec := by
  unfold loadRegistry at h
  obtain ⟨read, hread, hsorted⟩ := Except.bind_eq_ok.mp h
  rw [← Except.pure_eq_ok.mp hsorted, List.mem_mergeSort] at hmem
  rcases foldlM_addSpec hread spec hmem with hnone | ⟨file, hfile, hspec⟩
  · cases hnone
  · exact ⟨file, List.mem_mergeSort.mp hfile, hspec⟩

theorem registered_of_collected {id : String} (h : id ∈ (collectModules directory).1) :
    (managerModuleService directory id).isSome = true := by
  unfold collectModules at h
  cases hload : loadRegistry directory with
  | error message =>
    rw [hload] at h
    cases h
  | ok specs =>
    rw [hload] at h
    obtain ⟨spec, hmem, rfl⟩ := List.mem_map.mp h
    obtain ⟨file, hfile, hread⟩ := loadRegistry_mem hload (List.mem_of_mem_take hmem)
    rw [(managerModuleService_of hfile hread).1]
    rfl

theorem known_of_collected {service : String} (h : service ∈ (collectModules directory).2) :
    managerKnownService directory service = true := by
  rw [managerKnownService, Bool.or_eq_true, decide_eq_true_eq, decide_eq_true_eq]
  unfold collectModules at h
  cases hload : loadRegistry directory with
  | error message =>
    rw [hload] at h
    exact .inl h
  | ok specs =>
    rw [hload] at h
    refine (List.mem_append.mp h).imp_right fun hmem ↦ ?_
    obtain ⟨spec, hspec, rfl⟩ := List.mem_map.mp hmem
    have hlisted := List.mem_of_mem_take hspec
    obtain ⟨file, hfile, hread⟩ := loadRegistry_mem hload hlisted
    rw [registeredServices, hload]
    exact List.mem_filterMap.mpr ⟨spec, hlisted, (managerModuleService_of hfile hread).2⟩

/-- In every run, what the helper does when it is started for an operation is what the operation
asks for: neither a confirmation nor a count of arguments is ever amiss. -/
theorem running_delivered (guided : Bool) (theme : ThemeKind) (steps : List Step)
    (directory : ModuleDirectory) :
    ∃ node, (Node.start guided theme).run steps = some node ∧
      ∀ id action values, (id, Task.operation action values) ∈ node.running →
        managerMain directory (action.invocation values) =
          requested directory action.verb values := by
  obtain ⟨node, hrun, hsound⟩ := (Node.start_sound guided theme).run steps
  refine ⟨node, hrun, fun id action values hmem ↦ ?_⟩
  obtain ⟨hoffered, hvalid⟩ := hsound.shown _ hmem
  exact hoffered.delivers values hvalid

/-- The parts of a request for a certificate that the helper accepts. -/
def HttpsAccepted (values : List String) : Prop :=
  ∃ zone host email ip token, values = [zone, host, email, ip, token] ∧
    httpsAccepted zone host email ip token = true

/-- What the forms of the catalog ask for. -/
inductive Shape (snapshot : Snapshot) (action : Action) : Prop
  | bare (hfields : action.fields = []) (hverb : action.verb ≠ "https-setup")
  | onModule (hfields : action.fields = [moduleField snapshot]) (hlogs : action.verb ≠ "logs")
      (hverb : startsWith action.verb "module-" = true)
  | logs (hfields : action.fields = [choice "Service" snapshot.services])
      (hverb : action.verb = "logs")
  | one (field : Field) (hfields : action.fields = [field]) (hlogs : action.verb ≠ "logs")
      (hmodule : startsWith action.verb "module-" = false) (hverb : action.verb ≠ "https-setup")
  | store (first second : Field) (hfields : action.fields = [first, second])
      (hmodule : startsWith action.verb "module-" = false) (hverb : action.verb ≠ "https-setup")
  | https (hfields : action.fields = httpsFields) (hverb : action.verb = "https-setup")

theorem Offered.shape (h : Offered snapshot action) : Shape snapshot action := by
  obtain ⟨screen, hscreen, haction⟩ := h
  suffices h : ∀ screen ∈ SCREENS, ∀ action ∈ actions screen snapshot, Shape snapshot action from
    h screen hscreen action haction
  simp only [SCREENS, List.forall_mem_cons, actions_users, actions_profiles, actions_routing]
  simp only [actions, List.forall_mem_cons, List.not_mem_nil, false_implies, implies_true, and_true,
    true_and]
  and_intros
  all_goals first
    | exact .bare rfl (by simp)
    | exact .onModule rfl (by simp) (by dsimp only; decide)
    | exact .logs rfl rfl
    | exact .one _ rfl (by simp) (by dsimp only; decide) (by simp)
    | exact .store _ _ rfl (by dsimp only; decide) (by simp)
    | exact .https rfl rfl

theorem httpsAccepted_iff {zone host email ip token : String} :
    HttpsAccepted [zone, host, email, ip, token] ↔ httpsAccepted zone host email ip token = true := by
  constructor
  · rintro ⟨_, _, _, _, _, heq, haccepted⟩
    cases heq
    exact haccepted
  · exact fun haccepted ↦ ⟨_, _, _, _, _, rfl, haccepted⟩

theorem collectedServices_ne_nil (directory : ModuleDirectory) :
    (collectModules directory).2 ≠ [] := by
  rw [collectModules]
  split
  · exact List.cons_ne_nil _ _
  · exact List.append_ne_nil_of_left_ne_nil (List.cons_ne_nil _ _) _

/-- What a form asks for while the registry is as it was listed is refused for two reasons only:
the parts of a certificate request, and, where no module was listed, a typed id of none. -/
theorem collected_accepted (directory : ModuleDirectory) (snapshot : Snapshot) (action : Action)
    (values : List String)
    (hcollected : (snapshot.modules, snapshot.services) = collectModules directory)
    (hoffered : Offered snapshot action) (hvalid : validate action values = .ok ()) :
    (managerMain directory (action.invocation values)).isSome = true ↔
      (action.verb = "https-setup" → HttpsAccepted values) ∧
        (startsWith action.verb "module-" = true → snapshot.modules = [] →
          ∀ id ∈ values, (managerModuleService directory id).isSome = true) := by
  have hpassed := validate_eq_ok.mp hvalid
  rw [hoffered.delivers values hpassed]
  cases hoffered.shape with
  | bare hfields hverb =>
    have hcount := hpassed.count
    rw [hfields, List.length_nil, List.length_eq_zero_iff] at hcount
    rw [hcount]
    exact iff_of_true rfl ⟨fun hhttps ↦ absurd hhttps hverb, fun _ _ ↦ List.forall_mem_nil _⟩
  | onModule hfields hlogs hverb =>
    obtain ⟨id, rfl, hpasses⟩ := hpassed.one hfields
    have hhttps : action.verb = "https-setup" → HttpsAccepted [id] := by
      intro hhttps
      rw [hhttps] at hverb
      exact absurd hverb (by decide)
    rw [requested_module hlogs hverb, Option.isSome_map]
    constructor
    · exact fun hnamed ↦ ⟨hhttps, fun _ _ ↦ List.forall_mem_singleton.mpr hnamed⟩
    · rintro ⟨-, hnamed⟩
      by_cases hnone : snapshot.modules = []
      · exact hnamed hverb hnone id (List.mem_singleton_self id)
      · have hmem : id ∈ snapshot.modules := hpasses.chosen hnone
        have hlisted : id ∈ (collectModules directory).1 := by rwa [← hcollected]
        exact registered_of_collected hlisted
  | logs hfields hverb =>
    obtain ⟨service, rfl, hpasses⟩ := hpassed.one hfields
    have hservices : snapshot.services = (collectModules directory).2 := by rw [← hcollected]
    have hmem : service ∈ snapshot.services :=
      hpasses.chosen (hservices ▸ collectedServices_ne_nil directory)
    have hknown : managerKnownService directory service = true := by
      rw [hservices] at hmem
      exact known_of_collected hmem
    simp only [requested, hverb, if_true, hknown]
    exact iff_of_true rfl
      ⟨fun hhttps ↦ absurd hhttps (by decide), fun hmodule ↦ absurd hmodule (by decide)⟩
  | one field hfields hlogs hmodule hverb =>
    obtain ⟨value, rfl, -⟩ := hpassed.one hfields
    have hreaches : (requested directory action.verb [value]).isSome = true := by
      simp only [requested]
      rw [if_neg hlogs, if_neg (Bool.eq_false_iff.mp hmodule)]
      split_ifs <;> rfl
    exact iff_of_true hreaches ⟨fun hhttps ↦ absurd hhttps hverb,
      fun htrue ↦ absurd htrue (Bool.eq_false_iff.mp hmodule)⟩
  | store first second hfields hmodule hverb =>
    have hcount := hpassed.count
    rw [hfields] at hcount
    obtain ⟨reference, secret, rfl⟩ := List.length_eq_two.mp hcount
    exact iff_of_true rfl ⟨fun hhttps ↦ absurd hhttps hverb,
      fun htrue ↦ absurd htrue (Bool.eq_false_iff.mp hmodule)⟩
  | https hfields hverb =>
    obtain ⟨zone, host, email, ip, token, rfl⟩ := hpassed.five hfields
    have hmodule : startsWith action.verb "module-" = true → snapshot.modules = [] →
        ∀ id ∈ [zone, host, email, ip, token],
          (managerModuleService directory id).isSome = true := by
      intro hmodule
      rw [hverb] at hmodule
      exact absurd hmodule (by decide)
    rw [httpsAccepted_iff, and_iff_left hmodule]
    simp only [requested]
    split_ifs with haccepted
    · exact iff_of_true rfl fun _ ↦ haccepted
    · exact iff_of_false Bool.false_ne_true fun hall ↦ haccepted (hall hverb)

def demoFile : ManifestFile := ⟨"demo", true, demoManifest "demo"⟩

def demoDirectory : ModuleDirectory := ⟨[demoFile], List.nodup_singleton _⟩

theorem demoFile_read : readManifest demoFile = .ok (acceptedDemo "demo") := by
  have hsafe : ∀ value ∈ recordFields (demoModule "demo"), safeText value = true ∧
      trim value = value := by
    decide
  have hvalid : (validateSpec (demoModule "demo") false).toOption = some (acceptedDemo "demo") := by
    decide
  exact parseManifest_writeFields (fun value hmem ↦ ⟨(hsafe value hmem).1, (hsafe value hmem).2⟩) rfl
    rfl (Except.toOption_eq_some.mp hvalid)

theorem demoDirectory_loads : loadRegistry demoDirectory = .ok [acceptedDemo "demo"] := by
  simp only [loadRegistry, demoDirectory, List.mergeSort_singleton, List.foldlM_cons,
    List.foldlM_nil, addSpec, demoFile_read, Except.ok_bind, List.any_nil, Bool.false_eq_true,
    if_false, List.nil_append, pure_bind]
  rfl

theorem collect_demo : collectModules demoDirectory =
    (["demo"], fixedServices ++ ["infiproxy-demo.service"]) := by
  rw [collectModules, demoDirectory_loads]
  rfl

def demoSnapshot : Snapshot :=
  ⟨.empty, ["demo"], fixedServices ++ ["infiproxy-demo.service"], [], []⟩

def startAction : Action :=
  ⟨"Start runtime", "module-start", [moduleField demoSnapshot], some "APPLY", false⟩

theorem collected_accepted_demo :
    (managerMain demoDirectory (startAction.invocation ["demo"])).isSome = true :=
  (collected_accepted demoDirectory demoSnapshot startAction ["demo"] collect_demo.symm
    ⟨"Runtimes", by decide, by decide⟩ rfl).mpr
      ⟨fun hhttps ↦ absurd hhttps (by decide), fun _ hnone ↦ absurd hnone (List.cons_ne_nil _ _)⟩

end StealthHub.Manager

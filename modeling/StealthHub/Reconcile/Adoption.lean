import Mathlib.Logic.Relation
import StealthHub.Effect.Crash
import StealthHub.Panel.Operations

set_option autoImplicit false

namespace StealthHub.Reconcile

open Effect Effect.Program Storage Adapters Text

/-- The steps of an adoption. A path is a name of the root-only directory. -/
inductive AdoptionOp
  | loadDesiredState
  | getSecret (name : String)
  | pathExists (reference : SecretRef)
  | read (reference : SecretRef)
  | checkDirectory
  | newUuid
  | create (path : String)
  | writeAll (path text : String)
  | syncAll (path : String)
  | hardLink (original link : String)
  | removeFile (path : String)
  | syncDirectory
  | deleteSecret (name : String)

abbrev AdoptionReply : AdoptionOp → Type
  | .loadDesiredState => Except String (List ProtocolProfile)
  | .getSecret _ => Except String (Option String)
  | .pathExists _ => Bool
  | .read _ => Except String String
  | .newUuid => String
  | _ => Except String Unit

abbrev AdoptionProgram (α : Type) := Program AdoptionReply String α

def classify (registry : ProtocolRegistry) (reference : SecretRef)
    (profiles : List ProtocolProfile) : Except String Bool :=
  profiles.foldlM (fun classified profile ↦ match registry.get profile.protocolId with
    | none => .ok classified
    | some adapter => do
      let serverOnly ← adapter.serverOnlySecretReferences profile.config
      return classified || serverOnly.contains reference) false

/-- `PrivilegedSecretStore::write`, which removes its temporary file where it fails. -/
def writeSecret (reference : SecretRef) (value : String) : AdoptionProgram Unit := do
  lift (← request .checkDirectory)
  let uuid ← request .newUuid
  let temporary := ".adopt-" ++ uuid
  let result ← (do
    lift (← request (.create temporary))
    lift (← request (.writeAll temporary value))
    lift (← request (.writeAll temporary "\n"))
    lift (← request (.syncAll temporary))
    lift (← request (.hardLink temporary reference.name))
    lift (← request (.removeFile temporary))
    lift (← request .syncDirectory) : AdoptionProgram Unit).attempt
  match result with
  | .ok () => pure ()
  | .error message => do
    let _ ← request (.removeFile temporary)
    fail message

def compareFile (reference : SecretRef) (legacy : Option String) : AdoptionProgram Unit := do
  let privileged ← lift (← request (.read reference))
  match legacy with
  | none => pure ()
  | some stored =>
    let value ← lift (secretValue stored)
    if privileged ≠ value then fail "privileged and legacy secret values do not match"
    else pure ()

def createFile (reference : SecretRef) (legacy : Option String) : AdoptionProgram Unit :=
  match legacy with
  | none => fail "legacy server-only secret is unavailable"
  | some stored => do
    let value ← lift (secretValue stored)
    writeSecret reference value
    let written ← lift (← request (.read reference))
    if written ≠ value then fail "privileged secret verification failed" else pure ()

def secureFile (reference : SecretRef) (legacy : Option String) : AdoptionProgram Unit := do
  if ← request (.pathExists reference) then compareFile reference legacy
  else createFile reference legacy

def adoptServerOnlySecret (registry : ProtocolRegistry) (reference : SecretRef) :
    AdoptionProgram Unit := do
  let profiles ← lift (← request .loadDesiredState)
  let classified ← lift (classify registry reference profiles)
  if !classified then fail "reference is not classified as a server-only secret"
  else
    let legacy ← lift (← request (.getSecret reference.name))
    secureFile reference legacy
    if legacy.isSome then lift (← request (.deleteSecret reference.name)) else pure ()

/-- The database and the root-only directory, with the user that the worker runs as. -/
structure AdoptionHost where
  db : Database
  store : PrivilegedSecretStore
  directorySafe : Bool
  uid : ℕ

namespace AdoptionHost

def entry (s : AdoptionHost) (path : String) : Option SecretFile := s.store.directory.get? path

def put (s : AdoptionHost) (path : String) (file : SecretFile) : AdoptionHost :=
  { s with store.directory := s.store.directory.insert path file }

def remove (s : AdoptionHost) (path : String) : AdoptionHost :=
  { s with store.directory := s.store.directory.erase path }

def regular (s : AdoptionHost) (text : Except String String) (length : ℕ) : SecretFile where
  isFile := true
  leads := true
  length := length
  uid := s.uid
  mode := 0o600
  text := text
  file_leads := fun _ ↦ rfl

def storedProfiles (json : Json) (s : AdoptionHost) : Except String (List ProtocolProfile) :=
  (s.db.profiles.rows.insertionSort fun a b ↦ roleName a.role < roleName b.role ∨
    roleName a.role = roleName b.role ∧ a.name ≤ b.name).mapM (decodeProtocolProfile json)

/-- Every step may fail. A failed write leaves any part of the text behind; other failed steps
leave everything as it was. A new identifier is not that of a file. -/
def step (json : Json) (s : AdoptionHost) :
    (op : AdoptionOp) → AdoptionReply op → AdoptionHost → Prop
  | .loadDesiredState, reply, t =>
    t = s ∧ ∀ profiles, reply = .ok profiles → s.storedProfiles json = .ok profiles
  | .getSecret name, reply, t => t = s ∧ ∀ found, reply = .ok found → getSecret s.db name = found
  | .pathExists reference, reply, t => t = s ∧ (reply = true → s.store.pathExists reference)
  | .read reference, reply, t =>
    t = s ∧ ∀ value, reply = .ok value → s.store.read reference = .ok value
  | .checkDirectory, reply, t => t = s ∧ (reply = .ok () → s.directorySafe = true)
  | .newUuid, uuid, t => t = s ∧ s.entry (".adopt-" ++ uuid) = none
  | .create path, .ok (), t => s.entry path = none ∧ t = s.put path (s.regular (.ok "") 0)
  | .writeAll path text, .ok (), t => ∃ file before, s.entry path = some file ∧
    file.text = .ok before ∧
      t = s.put path (s.regular (.ok (before ++ text)) (file.length + text.utf8ByteSize))
  | .writeAll path _, .error _, t => t = s ∨ ∃ file text length, s.entry path = some file ∧
    t = s.put path (s.regular text length)
  | .hardLink original link, .ok (), t => ∃ file, s.entry original = some file ∧
    s.entry link = none ∧ t = s.put link file
  | .removeFile path, .ok (), t => t = s.remove path
  | .deleteSecret name, .ok (), t =>
    Storage.deleteSecret name s.db = (.ok (), t.db) ∧ t = { s with db := t.db }
  | .create _, .error _, t | .hardLink _ _, .error _, t | .removeFile _, .error _, t
  | .deleteSecret _, .error _, t | .syncAll _, _, t | .syncDirectory, _, t => t = s

theorem entry_put {s : AdoptionHost} {path other : String} {file : SecretFile} :
    (s.put path file).entry other = if path = other then some file else s.entry other :=
  OrderedMap.get?_insert _ _ _ _

theorem entry_remove {s : AdoptionHost} {path other : String} (h : path ≠ other) :
    (s.remove path).entry other = s.entry other := by
  rw [entry, remove, OrderedMap.get?_erase, if_neg h]
  rfl

end AdoptionHost

variable {json : Json} {registry : ProtocolRegistry} {reference : SecretRef}
variable {s t u : AdoptionHost} {temporary value : String}

/-- An entry under the name of the reference was not touched. -/
structure FileKept (reference : SecretRef) (s t : AdoptionHost) : Prop where
  uid : t.store.requiredUid = s.store.requiredUid
  file : ∀ file, s.entry reference.name = some file → t.entry reference.name = some file

/-- Neither the database nor an entry under the name of the reference was touched. -/
structure Harmless (reference : SecretRef) (s t : AdoptionHost) : Prop
    extends FileKept reference s t where
  db : t.db = s.db

theorem Harmless.refl (s : AdoptionHost) : Harmless reference s s := ⟨⟨rfl, fun _ ↦ id⟩, rfl⟩

theorem FileKept.trans (h : FileKept reference s t) (h' : FileKept reference t u) :
    FileKept reference s u :=
  ⟨h'.uid.trans h.uid, fun file hfile ↦ h'.file file (h.file file hfile)⟩

theorem FileKept.read (h : FileKept reference s t) (hread : s.store.read reference = .ok value) :
    t.store.read reference = .ok value := by
  cases hentry : s.store.directory.get? reference.name with
  | none =>
    rw [PrivilegedSecretStore.read, hentry] at hread
    cases hread
  | some file =>
    rw [← hread, PrivilegedSecretStore.read, PrivilegedSecretStore.read, hentry, h.uid]
    rw [show t.store.directory.get? reference.name = some file from h.file file hentry]

def WriteStep (reference : SecretRef) (temporary : String) : AdoptionOp → Prop
  | .create path | .writeAll path _ | .syncAll path | .removeFile path => path = temporary
  | .hardLink original link => original = temporary ∧ link = reference.name
  | .syncDirectory => True
  | _ => False

theorem Harmless.put (h : Harmless reference s t) {path : String} {file : SecretFile}
    (hpath : ∀ file, s.entry reference.name = some file → path ≠ reference.name) :
    Harmless reference s (t.put path file) where
  db := h.db
  uid := h.uid
  file found hfound := by
    rw [AdoptionHost.entry_put, if_neg (hpath found hfound)]
    exact h.file found hfound

theorem Harmless.writeStep (h : Harmless reference s t)
    (htemporary : ∀ file, s.entry reference.name = some file → temporary ≠ reference.name)
    {op : AdoptionOp} {reply : AdoptionReply op} (hop : WriteStep reference temporary op)
    (hstep : AdoptionHost.step json t op reply u) : Harmless reference s u := by
  cases op with
  | create path =>
    subst hop
    rcases reply with message | ⟨⟨⟩⟩
    · exact hstep ▸ h
    · rw [hstep.2]
      exact h.put htemporary
  | writeAll path text =>
    subst hop
    rcases reply with message | ⟨⟨⟩⟩
    · rcases hstep with rfl | ⟨file, partly, length, -, rfl⟩
      · exact h
      · exact h.put htemporary
    · obtain ⟨file, before, -, -, rfl⟩ := hstep
      exact h.put htemporary
  | hardLink original link =>
    obtain ⟨rfl, rfl⟩ := hop
    rcases reply with message | ⟨⟨⟩⟩
    · exact hstep ▸ h
    · obtain ⟨file, -, hnone, rfl⟩ := hstep
      refine h.put fun found hfound ↦ ?_
      rw [h.file found hfound] at hnone
      cases hnone
  | removeFile path =>
    subst hop
    rcases reply with message | ⟨⟨⟩⟩
    · exact hstep ▸ h
    · rw [hstep]
      refine ⟨⟨h.uid, fun file hfile ↦ ?_⟩, h.db⟩
      rw [AdoptionHost.entry_remove (htemporary file hfile)]
      exact h.file file hfile
  | syncAll path => exact hstep ▸ h
  | syncDirectory => exact hstep ▸ h
  | _ => exact hop.elim

theorem writeSecret_safe (h : Harmless reference s t) :
    Safe (AdoptionHost.step json) (Harmless reference s) (fun _ ↦ Harmless reference s)
      (fun _ ↦ Harmless reference s) (writeSecret reference value) t := by
  refine ⟨h, ?_⟩
  rintro (message | ⟨⟨⟩⟩) _ ⟨rfl, -⟩
  · exact ⟨h, h⟩
  refine ⟨h, ?_⟩
  rintro uuid _ ⟨rfl, hfresh⟩
  have htemporary : ∀ file, s.entry reference.name = some file →
      ".adopt-" ++ uuid ≠ reference.name := by
    intro file hfile hsame
    rw [hsame, h.file file hfile] at hfresh
    cases hfresh
  have hkeeps : ∀ t op reply u, WriteStep reference (".adopt-" ++ uuid) op →
      Harmless reference s t → AdoptionHost.step json t op reply u → Harmless reference s u :=
    fun t op reply u hop ht hstep ↦ ht.writeStep htemporary hop hstep
  refine safe_of_uses ?_ hkeeps h
  simp only [bind_eq, request, call_bind, done_bind]
  refine uses_bind (uses_attempt ?_) fun result ↦ ?_
  · refine ⟨rfl, fun created ↦ uses_bind (uses_lift created) fun _ ↦ ?_⟩
    refine ⟨rfl, fun written ↦ uses_bind (uses_lift written) fun _ ↦ ?_⟩
    refine ⟨rfl, fun ended ↦ uses_bind (uses_lift ended) fun _ ↦ ?_⟩
    refine ⟨rfl, fun synced ↦ uses_bind (uses_lift synced) fun _ ↦ ?_⟩
    refine ⟨⟨rfl, rfl⟩, fun linked ↦ uses_bind (uses_lift linked) fun _ ↦ ?_⟩
    refine ⟨rfl, fun removed ↦ uses_bind (uses_lift removed) fun _ ↦ ?_⟩
    exact ⟨trivial, fun reply ↦ uses_lift reply⟩
  · rcases result with message | ⟨⟨⟩⟩
    · exact ⟨rfl, fun _ ↦ trivial⟩
    · trivial

theorem secretValue_ok {stored : String} (h : secretValue stored = .ok value) :
    value = trim stored := by
  rw [secretValue] at h
  split_ifs at h
  exact (Except.ok.inj h).symm

def InFile (reference : SecretRef) (legacy : Option String) (t : AdoptionHost) : Prop :=
  ∃ value, t.store.read reference = .ok value ∧ ∀ stored, legacy = some stored → value = trim stored

theorem inFile_of_value {stored : String} (hread : t.store.read reference = .ok value)
    (hvalue : secretValue stored = .ok value) : InFile reference (some stored) t := by
  refine ⟨value, hread, fun found hfound ↦ ?_⟩
  rw [secretValue_ok hvalue, Option.some.inj hfound]

theorem compareFile_safe {legacy : Option String} (h : Harmless reference s t) :
    Safe (AdoptionHost.step json) (Harmless reference s) (fun _ ↦ Harmless reference s)
      (fun _ u ↦ Harmless reference s u ∧ InFile reference legacy u)
      (compareFile reference legacy) t := by
  rw [compareFile]
  simp only [bind_eq, request, call_bind, done_bind]
  refine ⟨h, ?_⟩
  rintro (message | privileged) _ ⟨rfl, hread⟩
  · exact ⟨h, h⟩
  have hread := hread privileged rfl
  cases legacy with
  | none => exact ⟨h, h, privileged, hread, fun _ hnone ↦ by cases hnone⟩
  | some stored =>
    simp only [lift, done_bind]
    cases hvalue : secretValue stored with
    | error message => exact ⟨h, h⟩
    | ok value =>
      simp only [done_bind]
      split_ifs with hne
      · exact ⟨h, h⟩
      · exact ⟨h, h, inFile_of_value hread (not_not.mp hne ▸ hvalue)⟩

theorem createFile_safe {legacy : Option String} (h : Harmless reference s t) :
    Safe (AdoptionHost.step json) (Harmless reference s) (fun _ ↦ Harmless reference s)
      (fun _ u ↦ Harmless reference s u ∧ InFile reference legacy u)
      (createFile reference legacy) t := by
  cases legacy with
  | none => exact ⟨h, h⟩
  | some stored =>
    rw [createFile]
    simp only [bind_eq, request, call_bind, done_bind]
    cases hvalue : secretValue stored with
    | error message => exact ⟨h, h⟩
    | ok value =>
      simp only [lift, done_bind]
      refine (writeSecret_safe h).seq fun _ u hu ↦ ⟨hu, ?_⟩
      rintro (message | written) _ ⟨rfl, hread⟩
      · exact ⟨hu, hu⟩
      simp only [done_bind]
      split_ifs with hne
      · exact ⟨hu, hu⟩
      · exact ⟨hu, hu, inFile_of_value (hread written rfl) (not_not.mp hne ▸ hvalue)⟩

theorem deleteSecret_ok {name : String} {db db' : Database}
    (h : Storage.deleteSecret name db = (.ok (), db')) : getSecret db' name = none := by
  rw [Storage.deleteSecret, transact] at h
  split_ifs at h with hnone
  · cases h
  · cases h
    rw [getSecret, bumpWhen_secrets, OrderedMap.get?_erase, if_pos rfl]

def Moved (reference : SecretRef) (s t : AdoptionHost) : Prop :=
  ∃ stored, getSecret s.db reference.name = some stored ∧ getSecret t.db reference.name = none ∧
    t.store.read reference = .ok (trim stored)

/-- What holds at every moment of a run since it began in `s`. -/
structure SecretKept (reference : SecretRef) (s t : AdoptionHost) : Prop
    extends FileKept reference s t where
  row : getSecret t.db reference.name = getSecret s.db reference.name ∨ Moved reference s t

theorem Harmless.kept (h : Harmless reference s t) : SecretKept reference s t :=
  ⟨h.toFileKept, .inl (by rw [h.db])⟩

theorem SecretKept.trans (h : SecretKept reference s t) (h' : SecretKept reference t u) :
    SecretKept reference s u := by
  refine ⟨h.toFileKept.trans h'.toFileKept, ?_⟩
  rcases h.row with hrow | ⟨stored, hstored, hnone, hread⟩
  · rcases h'.row with hrow' | ⟨stored, hstored, hnone, hread⟩
    · exact .inl (hrow'.trans hrow)
    · exact .inr ⟨stored, hrow ▸ hstored, hnone, hread⟩
  · refine .inr ⟨stored, hstored, ?_, h'.toFileKept.read hread⟩
    rcases h'.row with hrow' | ⟨again, hagain, -⟩
    · rw [hrow', hnone]
    · rw [hnone] at hagain
      cases hagain

theorem secureFile_safe {legacy : Option String} (h : Harmless reference s t) :
    Safe (AdoptionHost.step json) (Harmless reference s) (fun _ ↦ Harmless reference s)
      (fun _ u ↦ Harmless reference s u ∧ InFile reference legacy u)
      (secureFile reference legacy) t := by
  refine ⟨h, ?_⟩
  rintro found _ ⟨rfl, -⟩
  cases found with
  | true => exact compareFile_safe h
  | false => exact createFile_safe h

theorem adopt_safe : Safe (AdoptionHost.step json) (SecretKept reference s)
    (fun _ ↦ SecretKept reference s)
    (fun _ t ↦ getSecret t.db reference.name = none ∧
      InFile reference (getSecret s.db reference.name) t)
    (adoptServerOnlySecret registry reference) s := by
  have hstart : SecretKept reference s s := (Harmless.refl s).kept
  rw [adoptServerOnlySecret]
  simp only [bind_eq, request, call_bind, done_bind]
  refine ⟨hstart, ?_⟩
  rintro (message | profiles) loaded ⟨hloaded, -⟩ <;> subst loaded
  · exact ⟨hstart, hstart⟩
  simp only [lift, done_bind]
  cases classify registry reference profiles with
  | error message => exact ⟨hstart, hstart⟩
  | ok classified =>
    simp only [done_bind]
    split_ifs
    · exact ⟨hstart, hstart⟩
    refine ⟨hstart, ?_⟩
    rintro (message | legacy) found ⟨hfound, hlegacy⟩ <;> subst found
    · exact ⟨hstart, hstart⟩
    have hlegacy := hlegacy legacy rfl
    simp only [done_bind]
    have hsecured : Safe (AdoptionHost.step json) (SecretKept reference s)
        (fun _ ↦ SecretKept reference s)
        (fun _ u ↦ Harmless reference s u ∧ InFile reference legacy u)
        (secureFile reference legacy) s :=
      (secureFile_safe (Harmless.refl s)).mono (fun _ h ↦ h.kept) (fun _ _ h _ ↦ h.kept)
        fun _ _ _ h ↦ h
    refine hsecured.seq fun _ u hu ↦ ?_
    obtain ⟨hharmless, value, hread, hvalue⟩ := hu
    cases legacy with
    | none =>
      refine ⟨hharmless.kept, ?_, value, hread, hlegacy ▸ hvalue⟩
      rw [hharmless.db, hlegacy]
    | some stored =>
      refine ⟨hharmless.kept, ?_⟩
      rintro (message | ⟨⟨⟩⟩) v hstep
      · cases hstep
        exact ⟨hharmless.kept, hharmless.kept⟩
      obtain ⟨hdelete, hv⟩ := hstep
      have hstore : v.store = u.store := by rw [hv]
      have hnone := deleteSecret_ok hdelete
      refine ⟨⟨?_, .inr ⟨stored, hlegacy, hnone, ?_⟩⟩, hnone, value, ?_, hlegacy ▸ hvalue⟩
      · exact ⟨by rw [hstore, hharmless.uid], fun file hfile ↦ by
          rw [AdoptionHost.entry, hstore]
          exact hharmless.file file hfile⟩
      · rw [hstore, hread, hvalue stored rfl]
      · rw [hstore, hread]

theorem classify_true {profiles : List ProtocolProfile}
    (h : classify registry reference profiles = .ok true) : ∃ profile ∈ profiles, ∃ adapter,
      registry.get profile.protocolId = some adapter ∧ ∃ serverOnly,
        adapter.serverOnlySecretReferences profile.config = .ok serverOnly ∧
          reference ∈ serverOnly := by
  have hfold : ∀ (profiles : List ProtocolProfile) (start : Bool), profiles.foldlM
      (fun classified profile ↦ match registry.get profile.protocolId with
        | none => .ok classified
        | some adapter => do
          let serverOnly ← adapter.serverOnlySecretReferences profile.config
          return classified || serverOnly.contains reference) start = Except.ok true →
      start = true ∨ ∃ profile ∈ profiles, ∃ adapter,
        registry.get profile.protocolId = some adapter ∧ ∃ serverOnly,
          adapter.serverOnlySecretReferences profile.config = .ok serverOnly ∧
            reference ∈ serverOnly := by
    intro profiles
    induction profiles with
    | nil =>
      intro start h
      exact .inl (Except.pure_eq_ok.mp h)
    | cons profile rest ih =>
      intro start h
      rw [List.foldlM_cons] at h
      obtain ⟨classified, hfirst, hrest⟩ := Except.bind_eq_ok.mp h
      rw [List.exists_mem_cons_iff]
      rcases ih classified hrest with rfl | hlater
      · cases hadapter : registry.get profile.protocolId with
        | none =>
          rw [hadapter] at hfirst
          exact .inl (Except.ok.inj hfirst)
        | some adapter =>
          rw [hadapter] at hfirst
          obtain ⟨serverOnly, honly, hfirst⟩ := Except.bind_eq_ok.mp hfirst
          rcases Bool.or_eq_true_iff.mp (Except.pure_eq_ok.mp hfirst) with hstart | hmem
          · exact .inl hstart
          · exact .inr (.inl ⟨adapter, rfl, serverOnly, honly, List.contains_iff_mem.mp hmem⟩)
      · exact .inr (.inr hlater)
  rcases hfold profiles false h with hfalse | hfound
  · cases hfalse
  · exact hfound

def Unclassified (json : Json) (registry : ProtocolRegistry) (reference : SecretRef)
    (s : AdoptionHost) : Prop :=
  ∀ profiles, s.storedProfiles json = .ok profiles → ∀ profile ∈ profiles, ∀ adapter,
    registry.get profile.protocolId = some adapter → ∀ serverOnly,
      adapter.serverOnlySecretReferences profile.config = .ok serverOnly → reference ∉ serverOnly

theorem adopt_unclassified (h : Unclassified json registry reference s) :
    Safe (AdoptionHost.step json) (· = s) (fun _ ↦ (· = s)) (fun _ _ ↦ False)
      (adoptServerOnlySecret registry reference) s := by
  rw [adoptServerOnlySecret]
  simp only [bind_eq, request, call_bind, done_bind]
  refine ⟨rfl, ?_⟩
  rintro (message | profiles) _ ⟨rfl, hprofiles⟩
  · exact ⟨rfl, rfl⟩
  simp only [lift, done_bind]
  cases hclassify : classify registry reference profiles with
  | error message => exact ⟨rfl, rfl⟩
  | ok classified =>
    cases classified with
    | false => exact ⟨rfl, rfl⟩
    | true =>
      obtain ⟨profile, hprofile, adapter, hadapter, serverOnly, honly, hmem⟩ :=
        classify_true hclassify
      exact absurd hmem (h profiles (hprofiles profiles rfl) profile hprofile adapter hadapter
        serverOnly honly)

/-- Any number of runs, each of which completes, fails or stops anywhere. -/
def Adopting (json : Json) (registry : ProtocolRegistry) (reference : SecretRef) :
    AdoptionHost → AdoptionHost → Prop :=
  Relation.ReflTransGen
    (Stops (AdoptionHost.step json) (adoptServerOnlySecret registry reference))

/-- What any number of runs from `s` keep of a secret, in every state `t` that they come through. -/
structure Conserves (json : Json) (registry : ProtocolRegistry) (reference : SecretRef)
    (s t : AdoptionHost) : Prop where
  /-- The original is in the database or can be read from the file. -/
  original : ∀ stored, getSecret s.db reference.name = some stored →
    getSecret t.db reference.name = some stored ∨ t.store.read reference = .ok (trim stored)
  /-- What the file had can still be read. -/
  file : ∀ value, s.store.read reference = .ok value → t.store.read reference = .ok value
  /-- The row is deleted only when the file has an equal value. -/
  deleted : getSecret t.db reference.name ≠ getSecret s.db reference.name → Moved reference s t
  /-- Another run that completes leaves the value in the file only. -/
  completed : ∀ u, Completes (AdoptionHost.step json) (adoptServerOnlySecret registry reference)
    t () u → getSecret u.db reference.name = none ∧
      InFile reference (getSecret s.db reference.name) u
  /-- A file that differs makes every run fail, and both copies stay. -/
  differing : ∀ stored file, getSecret s.db reference.name = some stored →
    s.entry reference.name = some file → s.store.read reference ≠ .ok (trim stored) →
      (∀ u, ¬Completes (AdoptionHost.step json) (adoptServerOnlySecret registry reference) t () u) ∧
        getSecret t.db reference.name = some stored ∧ t.entry reference.name = some file
  /-- What is not classified is not touched. -/
  unclassified : Unclassified json registry reference s → t = s

theorem adopting_kept (h : Adopting json registry reference s t) : SecretKept reference s t := by
  induction h with
  | refl => exact (Harmless.refl s).kept
  | tail _ hstops ih => exact ih.trans (adopt_safe.stops hstops)

theorem adopting_unclassified (hnone : Unclassified json registry reference s)
    (h : Adopting json registry reference s t) : t = s := by
  induction h with
  | refl => rfl
  | tail _ hstops ih =>
    subst ih
    exact (adopt_unclassified hnone).stops hstops

theorem FileKept.read_eq (h : FileKept reference s t) {file : SecretFile}
    (hfile : s.entry reference.name = some file) :
    t.store.read reference = s.store.read reference := by
  rw [PrivilegedSecretStore.read, PrivilegedSecretStore.read, h.uid,
    show t.store.directory.get? reference.name = some file from h.file file hfile,
    show s.store.directory.get? reference.name = some file from hfile]

/-- Adopting a secret never loses or changes it. -/
theorem adoption_conserves (h : Adopting json registry reference s t) :
    Conserves json registry reference s t := by
  have hkept := adopting_kept h
  have hcompleted : ∀ u, Completes (AdoptionHost.step json)
      (adoptServerOnlySecret registry reference) t () u → SecretKept reference s u ∧
        getSecret u.db reference.name = none ∧
          InFile reference (getSecret s.db reference.name) u := by
    intro u hcompletes
    obtain ⟨hnone, value, hread, hvalue⟩ := adopt_safe.completes hcompletes
    have hlater : SecretKept reference t u := adopt_safe.stops ⟨_, hcompletes⟩
    refine ⟨hkept.trans hlater, hnone, value, hread, fun stored hstored ↦ ?_⟩
    rcases hkept.row with hrow | ⟨again, hagain, -, hmoved⟩
    · exact hvalue stored (hrow.trans hstored)
    · cases hstored.symm.trans hagain
      exact Except.ok.inj (hread.symm.trans (hlater.toFileKept.read hmoved))
  refine ⟨?_, fun value ↦ hkept.toFileKept.read, ?_, fun u hu ↦ (hcompleted u hu).2, ?_,
    fun hnone ↦ adopting_unclassified hnone h⟩
  · intro stored hstored
    rcases hkept.row with hrow | ⟨again, hagain, -, hread⟩
    · exact .inl (hrow.trans hstored)
    · cases hstored.symm.trans hagain
      exact .inr hread
  · exact fun hchanged ↦ hkept.row.resolve_left hchanged
  · intro stored file hstored hfile hdiffers
    refine ⟨fun u hu ↦ ?_, ?_, hkept.file file hfile⟩
    · obtain ⟨hlater, -, value, hread, hvalue⟩ := hcompleted u hu
      rw [hlater.toFileKept.read_eq hfile, hvalue stored hstored] at hread
      exact hdiffers hread
    · rcases hkept.row with hrow | ⟨again, hagain, -, hread⟩
      · exact hrow.trans hstored
      · cases hstored.symm.trans hagain
        rw [hkept.toFileKept.read_eq hfile] at hread
        exact absurd hread hdiffers

theorem adopt_completes {profiles : List ProtocolProfile} {stored : String} {db' : Database}
    (hprofiles : s.storedProfiles json = .ok profiles)
    (hclassify : classify registry reference profiles = .ok true)
    (hstored : getSecret s.db reference.name = some stored)
    (hvalue : secretValue stored = .ok (trim stored))
    (hexists : s.store.pathExists reference) (hread : s.store.read reference = .ok (trim stored))
    (hdelete : Storage.deleteSecret reference.name s.db = (.ok (), db')) :
    Completes (AdoptionHost.step json) (adoptServerOnlySecret registry reference) s ()
      { s with db := db' } := by
  have hload : AdoptionHost.step json s .loadDesiredState (.ok profiles) s := by
    refine ⟨rfl, fun found hfound ↦ ?_⟩
    rw [← Except.ok.inj hfound, hprofiles]
  have hget : AdoptionHost.step json s (.getSecret reference.name) (.ok (some stored)) s := by
    refine ⟨rfl, fun found hfound ↦ ?_⟩
    rw [← Except.ok.inj hfound, hstored]
  have hfile : AdoptionHost.step json s (.read reference) (.ok (trim stored)) s := by
    refine ⟨rfl, fun found hfound ↦ ?_⟩
    rw [← Except.ok.inj hfound, hread]
  have hrow : AdoptionHost.step json s (.deleteSecret reference.name) (.ok ())
      { s with db := db' } := ⟨hdelete, rfl⟩
  rw [adoptServerOnlySecret]
  simp only [bind_eq, request, call_bind, done_bind]
  refine .call hload ?_
  simp only [lift, hclassify, done_bind, Bool.not_true, Bool.false_eq_true, if_false]
  refine .call hget ?_
  simp only [lift, done_bind, secureFile, compareFile, bind_eq, request, call_bind]
  refine .call (r := true) ⟨rfl, fun _ ↦ hexists⟩ ?_
  simp only [if_true, call_bind]
  refine .call hfile ?_
  simp only [done_bind, hvalue, ne_eq, not_true_eq_false, if_false, pure_eq, Option.isSome]
  exact .call hrow (.stop _ _)

def legacyRecord : ProtocolProfileRecord where
  id := 1
  name := "reality"
  displayName := "Reality"
  kind := "vless-reality-tcp"
  role := .autoSafe
  enabled := true
  server := "node.example.test"
  port := 8443
  configJson := "document"
  schemaVersion := 1
  preferredCoreId := none
  managedResourceId := none
  createdAt := 0
  updatedAt := 0
  port_valid := Panel.realityPort_valid
  schema_valid := Nat.zero_lt_one

def legacyProfile : ProtocolProfile :=
  { Panel.realityProfile with preferredCoreId := none, managedResourceId := none }

def interruptedAdoption : AdoptionHost where
  db :=
    { initDb with
      profiles := ⟨[legacyRecord], List.pairwise_singleton _ _⟩
      secrets := .ofList [("node.key", " value ")] }
  store := Panel.keyStore
  directorySafe := true
  uid := 0

theorem classify_single {profile : ProtocolProfile} {adapter : ProtocolAdapter}
    {serverOnly : List SecretRef} (hadapter : registry.get profile.protocolId = some adapter)
    (honly : adapter.serverOnlySecretReferences profile.config = .ok serverOnly) :
    classify registry reference [profile] = .ok (serverOnly.contains reference) := by
  rw [classify, List.foldlM_cons, hadapter]
  simp only [honly, List.foldlM_nil]
  rfl

theorem interrupted_completes :
    Completes (AdoptionHost.step (Panel.oneDocument Panel.realityConfig))
    (adoptServerOnlySecret builtInProtocols ⟨"node.key", rfl⟩) interruptedAdoption ()
      { interruptedAdoption with
        db := (Storage.deleteSecret "node.key" interruptedAdoption.db).2 } := by
  have hprofiles : interruptedAdoption.storedProfiles (Panel.oneDocument Panel.realityConfig) =
      .ok [legacyProfile] := rfl
  have hstored : getSecret interruptedAdoption.db "node.key" = some " value " := by decide
  refine adopt_completes hprofiles ?_ hstored ?_ ?_ ?_ ?_
  · have hadapter : builtInProtocols.get legacyProfile.protocolId =
        some Panel.vlessRealityTcp.toAdapter := Panel.reality_registered
    have honly : Panel.vlessRealityTcp.toAdapter.serverOnlySecretReferences legacyProfile.config =
        .ok [⟨"node.key", rfl⟩] := rfl
    exact classify_single hadapter honly
  · decide
  · decide
  · decide
  · rfl

theorem adoption_conserves_interrupted :
    Conserves (Panel.oneDocument Panel.realityConfig) builtInProtocols ⟨"node.key", rfl⟩
      interruptedAdoption { interruptedAdoption with
        db := (Storage.deleteSecret "node.key" interruptedAdoption.db).2 } :=
  adoption_conserves (.single ⟨_, interrupted_completes⟩)

end StealthHub.Reconcile

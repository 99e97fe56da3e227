import StealthHub.Adapters.FileAdapters

set_option autoImplicit false

namespace StealthHub.Adapters

open Effect Effect.Program FileAdapter

variable {α β : Type} {s t u : AdapterHost} {slot : Slot} {source : Source} {content : Bytes}
variable {answers : UnitProperty → Bool} {message : String}

/-- The program leaves the snapshot alone, and ends as described where it completes. -/
def Keeps (p : FileProgram α) (s : AdapterHost) (Q : α → AdapterHost → Prop) : Prop :=
  Safe AdapterHost.anyStep (fun t ↦ t.snapshot = s.snapshot) (fun _ t ↦ t.snapshot = s.snapshot) Q
    p s

variable {p : FileProgram α} {Q R : α → AdapterHost → Prop}

theorem keeps_done {a : α} (h : Q a s) : Keeps (.done a) s Q := ⟨rfl, h⟩

theorem keeps_fail : Keeps (.fail message) s Q := ⟨rfl, rfl⟩

theorem Keeps.from (h : Keeps p t Q) (hsnapshot : t.snapshot = s.snapshot) :
    Safe AdapterHost.anyStep (fun t ↦ t.snapshot = s.snapshot)
      (fun _ t ↦ t.snapshot = s.snapshot) Q p t :=
  Safe.mono h (fun _ ↦ (·.trans hsnapshot)) (fun _ _ _ ↦ (·.trans hsnapshot)) fun _ _ _ ↦ id

theorem keeps_call {op : FileOp} {next : FileReply op → FileProgram α}
    (hop : ¬op.WritesSnapshot)
    (h : ∀ reply t, AdapterHost.anyStep s op reply t → Keeps (next reply) t Q) :
    Keeps (.call op next) s Q :=
  ⟨rfl, fun reply t hstep ↦ (h reply t hstep).from (step_snapshot hop hstep)⟩

theorem Keeps.bind {k : α → FileProgram β} {Q : α → AdapterHost → Prop}
    {R : β → AdapterHost → Prop} (h : Keeps p s Q) (hk : ∀ a t, Q a t → Keeps (k a) t R) :
    Keeps (p.bind k) s R := by
  refine safe_bind.mpr (Safe.mono h (fun _ ↦ id) (fun _ _ _ ↦ id) fun a t ht hQ ↦ ?_)
  exact (hk a t hQ).from ht

theorem Keeps.stops (h : Keeps p s Q) (hstops : Stops AdapterHost.anyStep p s t) :
    t.snapshot = s.snapshot := by
  obtain ⟨q, hrun⟩ := hstops
  exact (Safe.run h hrun).crash

theorem Keeps.mono (h : Keeps p s Q) (hQ : ∀ a t, Q a t → R a t) : Keeps p s R :=
  Safe.mono h (fun _ ↦ id) (fun _ _ _ ↦ id) fun a t _ ↦ hQ a t

theorem Keeps.attempt (h : Keeps p s Q) :
    Keeps (p.attempt : FileProgram (Except String α)) s
      (fun result t ↦ ∀ a, result = .ok a → Q a t) := by
  refine safe_attempt.mpr (Safe.mono h (fun _ ↦ id) (fun _ _ _ _ ↦ nofun) fun a t _ hQ b hb ↦ ?_)
  cases hb
  exact hQ

/-- The slot has the file, and all else that counts is as it was. -/
def Placed (s : AdapterHost) (slot : Slot) (file : Option SlotFile) (t : AdapterHost) : Prop :=
  ∃ temporary, t = (s.put slot file).withTemporary temporary

theorem installFile_keeps {mode : ℕ} {own : FileProgram Unit}
    (hown : ∀ s, Keeps own s fun _ t ↦ t = s) :
    Keeps (installFile slot mode own source) s fun _ t ↦ ∃ content,
      (∀ name, source = .snapshot name → s.snapshot name = some content) ∧
        Placed s slot (some (.file content)) t := by
  rw [installFile]
  simp only [bind_eq, request, call_bind, done_bind]
  refine keeps_call id ?_
  rintro (message | ⟨⟨⟩⟩) t ⟨_, ht⟩
  · exact keeps_fail
  obtain rfl : t = s := ht
  simp only [lift, done_bind]
  refine Keeps.bind (Keeps.attempt (Q := fun _ u ↦ ∃ content,
    (∀ name, source = .snapshot name → t.snapshot name = some content) ∧
      Placed t slot (some (.file content)) u) ?_) ?_
  · refine keeps_call id ?_
    rintro (message | ⟨⟨⟩⟩) u ⟨_, hu⟩
    · exact keeps_fail
    obtain rfl : u = t.withTemporary (some []) := hu
    refine keeps_call id ?_
    rintro (message | content) u ⟨_, hu⟩
    · exact keeps_fail
    have hread : u = t.withTemporary (some []) ∧
        ∀ name, source = .snapshot name → t.snapshot name = some content := by
      cases source with
      | candidate => exact ⟨hu, nofun⟩
      | snapshot name =>
        refine ⟨hu.1, fun other hother ↦ ?_⟩
        cases hother
        exact hu.2 content rfl
    obtain ⟨rfl, hsource⟩ := hread
    simp only [done_bind]
    refine keeps_call id ?_
    rintro (message | ⟨⟨⟩⟩) u ⟨_, hu⟩
    · exact keeps_fail
    obtain ⟨before, hbefore, rfl⟩ := hu
    cases hbefore
    refine keeps_call id ?_
    rintro (message | ⟨⟨⟩⟩) u ⟨_, hu⟩
    · exact keeps_fail
    obtain rfl : u = _ := hu
    refine keeps_call id ?_
    rintro (message | ⟨⟨⟩⟩) u ⟨_, hu⟩
    · exact keeps_fail
    obtain rfl : u = _ := hu
    refine (hown _).bind ?_
    rintro ⟨⟩ _ rfl
    refine keeps_call id ?_
    rintro (message | ⟨⟨⟩⟩) u ⟨_, hu⟩
    · exact keeps_fail
    obtain ⟨written, hwritten, rfl⟩ := hu
    cases hwritten
    refine keeps_call id ?_
    rintro (message | ⟨⟨⟩⟩) u ⟨_, hu⟩
    · exact keeps_fail
    obtain rfl : u = _ := hu
    exact keeps_done ⟨content, hsource, none, rfl⟩
  · rintro (message | ⟨⟨⟩⟩) u hu
    · exact keeps_call id fun _ _ _ ↦ keeps_fail
    · exact keeps_done (hu () rfl)

theorem atomicInstall_keeps : Keeps (atomicInstall source) s fun _ t ↦ ∃ content,
    (∀ name, source = .snapshot name → s.snapshot name = some content) ∧
      Placed s .config (some (.file content)) t := by
  refine installFile_keeps fun s ↦ keeps_call id ?_
  rintro (message | ⟨⟨⟩⟩) t ⟨_, ht⟩
  · exact keeps_fail
  · exact keeps_done ht

theorem atomicCopy_keeps : Keeps (atomicCopy source slot) s fun _ t ↦ ∃ content,
    (∀ name, source = .snapshot name → s.snapshot name = some content) ∧
      Placed s slot (some (.file content)) t :=
  installFile_keeps fun _ ↦ keeps_done rfl

theorem put_self {file : Option SlotFile} (h : s.file slot = file) : s.put slot file = s := by
  rw [AdapterHost.put, ← h, Function.update_eq_self]

theorem removeNonDirectory_keeps :
    Keeps (removeNonDirectory slot) s fun _ t ↦ t = s.put slot none := by
  rw [removeNonDirectory]
  simp only [bind_eq, symlinkMetadata, request, call_bind, done_bind]
  refine keeps_call id ?_
  rintro ((- | message) | ⟨fileType, len⟩) t ⟨_, ht⟩
  · obtain ⟨rfl, hnone⟩ := ht
    exact keeps_done (put_self hnone).symm
  · exact keeps_fail
  obtain ⟨rfl, -⟩ := ht
  have hremove {next : Except IoError Unit → FileProgram Unit}
      (hok : next (.ok ()) = pure ()) (herror : ∀ m, next (.error m) = fail "remove owned file") :
      Keeps ((removeFile slot).bind next) t fun _ u ↦ u = t.put slot none := by
    refine keeps_call id ?_
    rintro (message | ⟨⟨⟩⟩) u ⟨_, hu⟩
    · rw [done_bind, herror]
      exact keeps_fail
    · rw [done_bind, hok]
      exact keeps_done hu.2
  cases fileType with
  | file => exact hremove rfl fun _ ↦ rfl
  | symlink => exact hremove rfl fun _ ↦ rfl
  | directory => exact keeps_fail

/-- What the files of a snapshot say about a slot is so. -/
structure Saved (snapshot : String → Option Bytes) (name absent : String)
    (file : Option SlotFile) : Prop where
  content : ∀ content, snapshot name = some content → file = some (.file content)
  absent : ∀ content, snapshot absent = some content → file = none

structure SavedEnabled (snapshot : String → Option Bytes) (file : Option SlotFile) : Prop
    extends Saved snapshot "enabled.file" "enabled.absent" file where
  link : ∀ target, snapshot "enabled.link" = some target → file = some (.link target)

theorem restoreConfig_keeps {file : Option SlotFile}
    (h : Saved s.snapshot "config" "config.absent" file) :
    Keeps restoreConfig s fun _ t ↦ Placed s .config file t := by
  rw [restoreConfig]
  simp only [bind_eq, request, removeFile, call_bind, done_bind]
  refine keeps_call id ?_
  rintro found t ⟨_, ht⟩
  obtain ⟨rfl, -⟩ := ht
  cases found with
  | true =>
    refine atomicInstall_keeps.mono fun _ u ⟨content, hcontent, hplaced⟩ ↦ ?_
    rwa [h.content content (hcontent _ rfl)]
  | false =>
    refine keeps_call id ?_
    rintro absent u ⟨_, hu⟩
    obtain ⟨rfl, habsent⟩ := hu
    cases absent with
    | false => exact keeps_fail
    | true =>
      obtain ⟨content, hcontent⟩ := Option.isSome_iff_exists.mp (habsent rfl)
      obtain rfl := h.absent content hcontent
      refine keeps_call id ?_
      rintro ((- | message) | ⟨⟨⟩⟩) v ⟨_, hv⟩
      · refine keeps_done ⟨u.temporary, ?_⟩
        rw [put_self hv.1]
        exact hv.2
      · exact keeps_fail
      · exact keeps_done ⟨u.temporary, hv.2⟩

theorem restoreSite_keeps {file : Option SlotFile}
    (h : Saved s.snapshot "site" "site.absent" file) :
    Keeps restoreSite s fun _ t ↦ Placed s .site file t := by
  rw [restoreSite]
  simp only [bind_eq, request, call_bind, done_bind]
  refine keeps_call id ?_
  rintro found t ⟨_, ht⟩
  obtain ⟨rfl, -⟩ := ht
  cases found with
  | true =>
    refine atomicCopy_keeps.mono fun _ u ⟨content, hcontent, hplaced⟩ ↦ ?_
    rwa [h.content content (hcontent _ rfl)]
  | false =>
    refine keeps_call id ?_
    rintro absent u ⟨_, hu⟩
    obtain ⟨rfl, habsent⟩ := hu
    cases absent with
    | false => exact keeps_fail
    | true =>
      obtain ⟨content, hcontent⟩ := Option.isSome_iff_exists.mp (habsent rfl)
      obtain rfl := h.absent content hcontent
      exact removeNonDirectory_keeps.mono fun _ v hv ↦ ⟨u.temporary, hv⟩

theorem restoreEnabled_keeps {file : Option SlotFile} (h : SavedEnabled s.snapshot file)
    (hnone : s.file .enabled = none) :
    Keeps restoreEnabled s fun _ t ↦ Placed s .enabled file t := by
  rw [restoreEnabled]
  simp only [bind_eq, request, call_bind, done_bind]
  refine keeps_call id ?_
  rintro linked t ⟨_, ht⟩
  obtain ⟨rfl, -⟩ := ht
  cases linked with
  | true =>
    refine keeps_call id ?_
    rintro (message | target) u ⟨_, hu⟩
    · exact keeps_fail
    obtain ⟨rfl, htarget⟩ := hu
    simp only [lift, done_bind]
    split_ifs
    · exact keeps_fail
    refine keeps_call id ?_
    rintro (message | ⟨⟨⟩⟩) v ⟨_, hv⟩
    · exact keeps_fail
    · refine keeps_done ⟨u.temporary, ?_⟩
      rw [h.link target (htarget target rfl)]
      exact hv.2
  | false =>
    refine keeps_call id ?_
    rintro found u ⟨_, hu⟩
    obtain ⟨rfl, -⟩ := hu
    cases found with
    | true =>
      refine atomicCopy_keeps.mono fun _ u ⟨content, hcontent, hplaced⟩ ↦ ?_
      rwa [h.content content (hcontent _ rfl)]
    | false =>
      refine keeps_call id ?_
      rintro absent v ⟨_, hv⟩
      obtain ⟨rfl, habsent⟩ := hv
      cases absent with
      | false => exact keeps_fail
      | true =>
        obtain ⟨content, hcontent⟩ := Option.isSome_iff_exists.mp (habsent rfl)
        obtain rfl := h.absent content hcontent
        exact keeps_done ⟨v.temporary, (put_self hnone).symm ▸ rfl⟩

theorem systemctl_keeps {command : UnitCommand} :
    Keeps (systemctl command) s fun _ t ↦ t = s.command command := by
  refine keeps_call id ?_
  rintro (message | ⟨⟨⟩⟩) t ⟨_, ht⟩
  · exact keeps_fail
  · exact keeps_done ht

theorem systemctlIs_keeps {property : UnitProperty} : Keeps (systemctlIs property) s
    fun success t ↦ t = s ∧ (success = true → s.flag property = true) := by
  refine keeps_call id ?_
  rintro (message | success) t ⟨_, ht⟩
  · exact keeps_done ⟨ht.1, nofun⟩
  · refine keeps_done ⟨ht.1, ?_⟩
    rintro rfl
    exact (ht.2.mp rfl).1

theorem readCurrentConfig_keeps : Keeps readCurrentConfig s fun config t ↦
    t = s ∧ s.file .config = config.map .file := by
  rw [readCurrentConfig]
  simp only [bind_eq, symlinkMetadata, request, call_bind, done_bind]
  refine keeps_call id ?_
  rintro ((- | message) | ⟨fileType, len⟩) t ⟨_, ht⟩
  · exact keeps_done ht
  · exact keeps_fail
  obtain ⟨rfl, hmetadata⟩ := ht
  cases fileType with
  | symlink => exact keeps_fail
  | directory => exact keeps_fail
  | file =>
    refine keeps_call id ?_
    rintro (message | content) u ⟨_, hu⟩
    · exact keeps_fail
    obtain ⟨rfl, hcontent⟩ := hu
    refine keeps_done ⟨rfl, ?_⟩
    obtain ⟨file, hfile, htype⟩ := Option.map_eq_some_iff.mp hmetadata
    cases file with
    | file own => rw [hfile, hcontent content own rfl hfile, Option.map_some]
    | link target => cases htype
    | directory => cases htype

theorem restoreServiceState_keeps {snapshot : CoreSnapshot} :
    Keeps (restoreServiceState snapshot) s fun _ t ↦
      t = s.withService snapshot.serviceWasEnabled snapshot.serviceWasActive := by
  rw [restoreServiceState]
  refine systemctl_keeps.bind ?_
  rintro ⟨⟩ t ht
  have hservice : t = s.withService snapshot.serviceWasEnabled s.active := by
    rw [ht]
    cases snapshot.serviceWasEnabled <;> rfl
  obtain rfl := hservice
  cases hactive : snapshot.serviceWasActive with
  | false =>
    exact systemctl_keeps
  | true =>
    refine systemctl_keeps.bind ?_
    rintro ⟨⟩ t rfl
    refine systemctlIs_keeps.bind ?_
    rintro (- | -) t ⟨rfl, -⟩
    · exact keeps_fail
    · exact keeps_done rfl

theorem verifyRestored_keeps {flavor : Flavor} {parse : Bytes → Except String Value} :
    Keeps (verifyRestored flavor parse) s fun _ t ↦ t = s := by
  refine readCurrentConfig_keeps.bind ?_
  rintro (- | restored) t ⟨rfl, -⟩
  · exact keeps_fail
  simp only [bind_eq]
  cases parse restored with
  | error message => exact keeps_fail
  | ok document =>
    refine keeps_call id ?_
    rintro (message | ⟨⟨⟩⟩) u ⟨_, hu⟩
    · exact keeps_fail
    · exact keeps_done hu

theorem validateRestoredNginxSite_keeps :
    Keeps validateRestoredNginxSite s fun _ t ↦ t = s := by
  refine keeps_call id ?_
  rintro found t ⟨_, ht⟩
  obtain rfl : t = s := ht
  cases found with
  | false => exact keeps_done rfl
  | true =>
    refine keeps_call id ?_
    rintro (message | ⟨⟨⟩⟩) u ⟨_, hu⟩
    · exact keeps_fail
    · exact keeps_done hu

def SavedBy (snapshot : String → Option Bytes) (file : Slot → Option SlotFile) :
    FileAdapter → Prop
  | .managed _ _ => Saved snapshot "config" "config.absent" (file .config)
  | .frontend => Saved snapshot "site" "site.absent" (file .site) ∧
    SavedEnabled snapshot (file .enabled)

/-- The files of an adapter and its service are as they are told. -/
structure Matches (adapter : FileAdapter) (file : Slot → Option SlotFile) (enabled active : Bool)
    (t : AdapterHost) : Prop where
  file : ∀ slot ∈ adapter.owned, t.file slot = file slot
  enabled : t.enabled = enabled
  active : t.active = active

theorem restoreOwnedFiles_keeps {file : Slot → Option SlotFile}
    (h : SavedBy s.snapshot file .frontend) : Keeps restoreOwnedFiles s fun _ t ↦
      ∀ slot ∈ owned .frontend, t.file slot = file slot := by
  refine (restoreSite_keeps h.1).bind ?_
  rintro ⟨⟩ _ ⟨temporary, rfl⟩
  refine removeNonDirectory_keeps.bind ?_
  rintro ⟨⟩ _ rfl
  have hnone : Keeps restoreEnabled
      (((s.put .site (file .site)).withTemporary temporary).put .enabled none)
      fun _ t ↦ Placed _ .enabled (file .enabled) t :=
    restoreEnabled_keeps h.2 (by simp [AdapterHost.put])
  refine hnone.mono ?_
  rintro ⟨⟩ _ ⟨temporary, rfl⟩ slot hslot
  rcases List.mem_pair.mp hslot with rfl | rfl
  · simp [AdapterHost.put, AdapterHost.withTemporary]
  · simp [AdapterHost.put, AdapterHost.withTemporary]

theorem rollbackConfig_keeps {adapter : FileAdapter} {snapshot : CoreSnapshot}
    {file : Slot → Option SlotFile} (h : SavedBy s.snapshot file adapter) :
    Keeps (adapter.rollbackConfig snapshot) s fun _ t ↦
      Matches adapter file snapshot.serviceWasEnabled snapshot.serviceWasActive t := by
  cases adapter with
  | managed flavor parse =>
    rw [rollbackConfig]
    refine (restoreConfig_keeps h).bind ?_
    rintro ⟨⟩ _ ⟨temporary, rfl⟩
    refine systemctl_keeps.bind ?_
    rintro ⟨⟩ t ht
    have hfile : t.file .config = file .config := by
      rw [ht]
      cases snapshot.serviceWasEnabled <;>
        simp [AdapterHost.command, AdapterHost.withService, AdapterHost.put,
          AdapterHost.withTemporary]
    have henabled : t.enabled = snapshot.serviceWasEnabled := by
      rw [ht]
      cases snapshot.serviceWasEnabled <;> rfl
    have hmatches : ∀ active,
        Matches (.managed flavor parse) file snapshot.serviceWasEnabled active
          (t.withService t.enabled active) := by
      intro active
      refine ⟨fun slot hslot ↦ ?_, henabled, rfl⟩
      cases List.mem_singleton.mp hslot
      exact hfile
    cases hactive : snapshot.serviceWasActive with
    | false =>
      refine systemctl_keeps.mono ?_
      rintro ⟨⟩ _ rfl
      exact hmatches false
    | true =>
      refine systemctl_keeps.bind ?_
      rintro ⟨⟩ _ rfl
      refine systemctlIs_keeps.bind ?_
      rintro (- | -) _ ⟨rfl, -⟩
      · exact keeps_fail
      refine verifyRestored_keeps.mono ?_
      rintro ⟨⟩ _ rfl
      exact hmatches true
  | frontend =>
    rw [rollbackConfig]
    refine (restoreOwnedFiles_keeps h).bind ?_
    rintro ⟨⟩ t hfile
    refine validateRestoredNginxSite_keeps.bind ?_
    rintro ⟨⟩ _ rfl
    refine restoreServiceState_keeps.mono ?_
    rintro ⟨⟩ _ rfl
    exact ⟨hfile, rfl, rfl⟩

theorem installEnabledLink_keeps : Keeps installEnabledLink s fun _ _ ↦ True := by
  have hlink : ∀ s, Keeps (do lift (← request (.symlink sitePath .enabled))) s fun _ _ ↦ True := by
    refine fun s ↦ keeps_call id ?_
    rintro (message | ⟨⟨⟩⟩) t -
    · exact keeps_fail
    · exact keeps_done trivial
  rw [installEnabledLink]
  simp only [bind_eq, symlinkMetadata, request, call_bind, done_bind]
  refine keeps_call id ?_
  rintro (message | ⟨fileType, len⟩) t -
  · exact hlink t
  · cases fileType with
    | directory => exact keeps_fail
    | file | symlink =>
      refine keeps_call id ?_
      rintro (message | ⟨⟨⟩⟩) u -
      · exact keeps_fail
      · exact hlink u

theorem installConfig_keeps {adapter : FileAdapter} :
    Keeps adapter.installConfig s fun _ _ ↦ True := by
  cases adapter with
  | managed flavor parse => exact atomicInstall_keeps.mono fun _ _ _ ↦ trivial
  | frontend =>
    rw [installConfig]
    simp only [bind_eq, request, call_bind, done_bind]
    refine keeps_call id ?_
    rintro (message | len) t -
    · exact keeps_fail
    simp only [lift, done_bind]
    split_ifs
    · refine removeNonDirectory_keeps.bind fun _ u _ ↦ ?_
      exact removeNonDirectory_keeps.mono fun _ _ _ ↦ trivial
    · refine atomicCopy_keeps.bind fun _ u _ ↦ keeps_call id ?_
      rintro (message | ⟨⟨⟩⟩) v -
      · exact keeps_fail
      · exact installEnabledLink_keeps

theorem activateConfig_keeps {adapter : FileAdapter} {plan : CorePlan} :
    Keeps (adapter.activateConfig plan) s fun _ _ ↦ True := by
  have hunit : ∀ command s, Keeps (systemctl command) s fun _ _ ↦ True :=
    fun command s ↦ systemctl_keeps.mono fun _ _ _ ↦ trivial
  cases adapter with
  | managed flavor parse =>
    rw [activateConfig]
    split_ifs
    · exact hunit _ s
    · exact (hunit _ s).bind fun _ t _ ↦ hunit _ t
  | frontend =>
    rw [activateConfig]
    refine (hunit _ s).bind fun _ t _ ↦ systemctlIs_keeps.bind fun active u _ ↦ ?_
    cases active <;> exact hunit _ u

/-- What the program ends with while queries are answered as in `answers`. -/
def Takes (answers : UnitProperty → Bool) (p : FileProgram α) (s : AdapterHost)
    (Q : α → AdapterHost → Prop) : Prop :=
  Safe (AdapterHost.step answers) (fun _ ↦ True) (fun _ _ ↦ True) Q p s

theorem takes_fail : Takes answers (.fail message) s Q := ⟨trivial, trivial⟩

theorem takes_done {a : α} (h : Q a s) : Takes answers (.done a) s Q := ⟨trivial, h⟩

theorem Takes.bind {k : α → FileProgram β} {Q : α → AdapterHost → Prop}
    {R : β → AdapterHost → Prop} (h : Takes answers p s Q)
    (hk : ∀ a t, Q a t → Takes answers (k a) t R) : Takes answers (p.bind k) s R := Safe.seq h hk

theorem Keeps.takes (h : Keeps p s Q) : Takes answers p s Q :=
  (Safe.narrow h fun _ _ _ _ hstep ↦ ⟨answers, hstep⟩).mono (fun _ _ ↦ trivial)
    (fun _ _ _ _ ↦ trivial) fun _ _ _ ↦ id

theorem systemctlIs_takes {property : UnitProperty} : Takes answers (systemctlIs property) s
    fun success t ↦ t = s ∧ success = (s.flag property && answers property) := by
  refine ⟨trivial, ?_⟩
  rintro (message | success) t ⟨rfl, hreply⟩
  · refine takes_done ⟨rfl, ?_⟩
    cases hset : t.flag property && answers property with
    | false => rfl
    | true => exact absurd (hreply.mpr (Bool.and_eq_true_iff.mp hset)) nofun
  · refine takes_done ⟨rfl, ?_⟩
    rw [Bool.eq_iff_iff, Bool.and_eq_true, ← hreply]
    exact ⟨fun h ↦ h ▸ rfl, fun h ↦ Except.ok.inj h⟩

def Wrote (s : AdapterHost) (entries : String → Bytes → Prop) (t : AdapterHost) : Prop :=
  ∃ name content, entries name content ∧ t = s.save name (some content)

theorem Wrote.entry {entries : String → Bytes → Prop} {name : String} (h : Wrote s entries t)
    (hnone : s.snapshot name = none) (hname : t.snapshot name = some content) :
    entries name content := by
  obtain ⟨written, own, hentry, rfl⟩ := h
  change Function.update s.snapshot written (some own) name = some content at hname
  rw [Function.update_apply] at hname
  split_ifs at hname with hsame
  · cases hname
    rwa [hsame]
  · rw [hnone] at hname
    cases hname

theorem Wrote.other {entries : String → Bytes → Prop} {name : String} (h : Wrote s entries t)
    (hother : ∀ content, ¬entries name content) : t.snapshot name = s.snapshot name := by
  obtain ⟨written, own, hentry, rfl⟩ := h
  change Function.update s.snapshot written (some own) name = s.snapshot name
  rw [Function.update_apply, if_neg]
  rintro rfl
  exact hother own hentry

theorem snapshotSite_takes : Takes answers snapshotSite s fun _ t ↦ Wrote s (fun name content ↦
    name = "site" ∧ s.file .site = some (.file content) ∨
      name = "site.absent" ∧ s.file .site = none) t := by
  rw [snapshotSite]
  simp only [bind_eq, symlinkMetadata, request, call_bind, done_bind]
  refine ⟨trivial, ?_⟩
  rintro ((- | message) | ⟨fileType, len⟩) t ht
  · obtain ⟨rfl, hnone⟩ := ht
    refine ⟨trivial, ?_⟩
    rintro (message | ⟨⟨⟩⟩) u hu
    · exact takes_fail
    · exact takes_done ⟨_, _, .inr ⟨rfl, hnone⟩, hu⟩
  · exact takes_fail
  obtain ⟨rfl, hmetadata⟩ := ht
  cases fileType with
  | directory => exact takes_fail
  | symlink => exact takes_fail
  | file =>
    dsimp only
    split_ifs
    · obtain ⟨file, hfile, htype⟩ := Option.map_eq_some_iff.mp hmetadata
      refine ⟨trivial, ?_⟩
      rintro (message | ⟨⟨⟩⟩) u hu
      · exact takes_fail
      obtain ⟨content, hcontent, hown⟩ := hu
      cases file with
      | link target => cases htype
      | directory => cases htype
      | file own =>
        refine takes_done ⟨_, content, .inl ⟨rfl, ?_⟩, hcontent⟩
        rw [hfile, hown own hfile]
    · exact takes_fail

theorem snapshotEnabled_takes : Takes answers snapshotEnabled s fun _ t ↦ Wrote s
    (fun name content ↦ name = "enabled.file" ∧ s.file .enabled = some (.file content) ∨
      name = "enabled.link" ∧ s.file .enabled = some (.link content) ∨
        name = "enabled.absent" ∧ s.file .enabled = none) t := by
  rw [snapshotEnabled]
  simp only [bind_eq, symlinkMetadata, request, call_bind, done_bind]
  refine ⟨trivial, ?_⟩
  rintro ((- | message) | ⟨fileType, len⟩) t ht
  · obtain ⟨rfl, hnone⟩ := ht
    refine ⟨trivial, ?_⟩
    rintro (message | ⟨⟨⟩⟩) u hu
    · exact takes_fail
    · exact takes_done ⟨_, _, .inr (.inr ⟨rfl, hnone⟩), hu⟩
  · exact takes_fail
  obtain ⟨rfl, hmetadata⟩ := ht
  cases fileType with
  | directory => exact takes_fail
  | symlink =>
    refine ⟨trivial, ?_⟩
    rintro (message | target) u hu
    · exact takes_fail
    obtain ⟨rfl, htarget⟩ := hu
    simp only [lift, done_bind]
    split_ifs
    · exact takes_fail
    refine ⟨trivial, ?_⟩
    rintro (message | ⟨⟨⟩⟩) v hv
    · exact takes_fail
    · exact takes_done ⟨_, target, .inr (.inl ⟨rfl, htarget target rfl⟩), hv⟩
  | file =>
    dsimp only
    split_ifs
    · obtain ⟨file, hfile, htype⟩ := Option.map_eq_some_iff.mp hmetadata
      refine ⟨trivial, ?_⟩
      rintro (message | ⟨⟨⟩⟩) u hu
      · exact takes_fail
      obtain ⟨content, hcontent, hown⟩ := hu
      cases file with
      | link target => cases htype
      | directory => cases htype
      | file own =>
        refine takes_done ⟨_, content, .inl ⟨rfl, ?_⟩, hcontent⟩
        rw [hfile, hown own hfile]
    · exact takes_fail

def Observed (answers : UnitProperty → Bool) (s : AdapterHost) (snapshot : CoreSnapshot) : Prop :=
  snapshot.serviceWasEnabled = (s.enabled && answers .isEnabled) ∧
    snapshot.serviceWasActive = (s.active && answers .isActive)

theorem observe_takes {path : Path} : Takes answers (do
      let enabled ← systemctlIs .isEnabled
      let active ← systemctlIs .isActive
      pure (⟨path, enabled, active⟩ : CoreSnapshot)) s
    fun snapshot t ↦ t = s ∧ Observed answers s snapshot := by
  refine systemctlIs_takes.bind ?_
  rintro enabled t ⟨rfl, henabled⟩
  refine systemctlIs_takes.bind ?_
  rintro active u ⟨rfl, hactive⟩
  exact takes_done ⟨rfl, henabled, hactive⟩

theorem Takes.mono (h : Takes answers p s Q) (hQ : ∀ a t, Q a t → R a t) : Takes answers p s R :=
  Safe.mono h (fun _ ↦ id) (fun _ _ _ ↦ id) fun a t _ ↦ hQ a t

theorem savedBy_managed {flavor : Flavor} {parse : Bytes → Except String Value}
    (hempty : ∀ name, s.snapshot name = none) (h : Wrote s (fun name content ↦
      name = "config" ∧ s.file .config = some (.file content) ∨
        name = "config.absent" ∧ s.file .config = none) t) :
    SavedBy t.snapshot s.file (.managed flavor parse) where
  content content hcontent := by
    rcases h.entry (hempty _) hcontent with ⟨-, hfile⟩ | ⟨hname, -⟩
    · exact hfile
    · exact absurd hname (by decide)
  absent content hcontent := by
    rcases h.entry (hempty _) hcontent with ⟨hname, -⟩ | ⟨-, hfile⟩
    · exact absurd hname (by decide)
    · exact hfile

theorem savedBy_frontend (hempty : ∀ name, s.snapshot name = none)
    (hsite : Wrote s (fun name content ↦ name = "site" ∧ s.file .site = some (.file content) ∨
      name = "site.absent" ∧ s.file .site = none) t)
    (henabled : Wrote t (fun name content ↦
      name = "enabled.file" ∧ s.file .enabled = some (.file content) ∨
        name = "enabled.link" ∧ s.file .enabled = some (.link content) ∨
          name = "enabled.absent" ∧ s.file .enabled = none) u) :
    SavedBy u.snapshot s.file .frontend := by
  have hkept : ∀ name, name ≠ "enabled.file" → name ≠ "enabled.link" → name ≠ "enabled.absent" →
      u.snapshot name = t.snapshot name := by
    intro name hfile hlink habsent
    refine henabled.other fun content ↦ ?_
    rintro (⟨rfl, -⟩ | ⟨rfl, -⟩ | ⟨rfl, -⟩)
    · exact hfile rfl
    · exact hlink rfl
    · exact habsent rfl
  have hfresh : ∀ name, name ≠ "site" → name ≠ "site.absent" → t.snapshot name = none := by
    intro name hname habsent
    rw [hsite.other, hempty]
    rintro content (⟨rfl, -⟩ | ⟨rfl, -⟩)
    · exact hname rfl
    · exact habsent rfl
  refine ⟨⟨fun content hcontent ↦ ?_, fun content hcontent ↦ ?_⟩,
    ⟨fun content hcontent ↦ ?_, fun content hcontent ↦ ?_⟩, fun target htarget ↦ ?_⟩
  · rw [hkept _ (by decide) (by decide) (by decide)] at hcontent
    rcases hsite.entry (hempty _) hcontent with ⟨-, hfile⟩ | ⟨hname, -⟩
    · exact hfile
    · exact absurd hname (by decide)
  · rw [hkept _ (by decide) (by decide) (by decide)] at hcontent
    rcases hsite.entry (hempty _) hcontent with ⟨hname, -⟩ | ⟨-, hfile⟩
    · exact absurd hname (by decide)
    · exact hfile
  · rcases henabled.entry (hfresh _ (by decide) (by decide)) hcontent with
      ⟨-, hfile⟩ | ⟨hname, -⟩ | ⟨hname, -⟩
    · exact hfile
    · exact absurd hname (by decide)
    · exact absurd hname (by decide)
  · rcases henabled.entry (hfresh _ (by decide) (by decide)) hcontent with
      ⟨hname, -⟩ | ⟨hname, -⟩ | ⟨-, hfile⟩
    · exact absurd hname (by decide)
    · exact absurd hname (by decide)
    · exact hfile
  · rcases henabled.entry (hfresh _ (by decide) (by decide)) htarget with
      ⟨hname, -⟩ | ⟨-, hfile⟩ | ⟨hname, -⟩
    · exact absurd hname (by decide)
    · exact hfile
    · exact absurd hname (by decide)

theorem snapshotConfig_takes {adapter : FileAdapter} {transactionDir : Path}
    (hempty : ∀ name, s.snapshot name = none) :
    Takes answers (adapter.snapshotConfig transactionDir) s fun snapshot t ↦
      SavedBy t.snapshot s.file adapter ∧ Observed answers s snapshot := by
  have hobserve : ∀ t, SavedBy t.snapshot s.file adapter → t.enabled = s.enabled →
      t.active = s.active → Takes answers (do
        let enabled ← systemctlIs .isEnabled
        let active ← systemctlIs .isActive
        pure (⟨transactionDir ++ ["snapshot"], enabled, active⟩ : CoreSnapshot)) t
      fun snapshot u ↦ SavedBy u.snapshot s.file adapter ∧ Observed answers s snapshot := by
    intro t hsaved henabled hactive
    refine observe_takes.mono ?_
    rintro snapshot u ⟨rfl, hobserved⟩
    rw [Observed, henabled, hactive] at hobserved
    exact ⟨hsaved, hobserved⟩
  cases adapter with
  | managed flavor parse =>
    refine ⟨trivial, ?_⟩
    rintro (message | ⟨⟨⟩⟩) t ht
    · exact takes_fail
    obtain rfl : t = s := ht
    refine readCurrentConfig_keeps.takes.bind ?_
    rintro (- | config) s ⟨rfl, hconfig⟩
    · refine ⟨trivial, ?_⟩
      rintro (message | ⟨⟨⟩⟩) u hu
      · exact takes_fail
      · obtain rfl : u = _ := hu
        exact hobserve _ (savedBy_managed hempty ⟨_, [], .inr ⟨rfl, hconfig⟩, rfl⟩) rfl rfl
    · refine ⟨trivial, ?_⟩
      rintro (message | ⟨⟨⟩⟩) u hu
      · exact takes_fail
      · obtain rfl : u = _ := hu
        exact hobserve _ (savedBy_managed hempty ⟨_, config, .inl ⟨rfl, hconfig⟩, rfl⟩) rfl rfl
  | frontend =>
    refine ⟨trivial, ?_⟩
    rintro (message | ⟨⟨⟩⟩) t ht
    · exact takes_fail
    obtain rfl : t = s := ht
    refine snapshotSite_takes.bind ?_
    rintro ⟨⟩ u ⟨name, content, hentry, rfl⟩
    refine snapshotEnabled_takes.bind ?_
    rintro ⟨⟩ v ⟨name', content', hentry', rfl⟩
    exact hobserve _ (savedBy_frontend hempty ⟨name, content, hentry, rfl⟩
      ⟨name', content', hentry', rfl⟩) rfl rfl

/-- Installations, activations and rollbacks in any number and order, each of which completes,
fails or stops anywhere. -/
def Disturbed (adapter : FileAdapter) (snapshot : CoreSnapshot) :
    AdapterHost → AdapterHost → Prop :=
  Relation.ReflTransGen fun s t ↦ Stops AdapterHost.anyStep adapter.installConfig s t ∨
    (∃ plan, Stops AdapterHost.anyStep (adapter.activateConfig plan) s t) ∨
      Stops AdapterHost.anyStep (adapter.rollbackConfig snapshot) s t

theorem disturbed_snapshot {adapter : FileAdapter} {snapshot : CoreSnapshot}
    {file : Slot → Option SlotFile} (hsaved : SavedBy s.snapshot file adapter)
    (h : Disturbed adapter snapshot s t) : t.snapshot = s.snapshot := by
  induction h with
  | refl => rfl
  | tail _ hstops ih =>
    refine Eq.trans ?_ ih
    rcases hstops with hstops | ⟨plan, hstops⟩ | hstops
    · exact installConfig_keeps.stops hstops
    · exact activateConfig_keeps.stops hstops
    · exact (rollbackConfig_keeps (ih ▸ hsaved)).stops hstops

/-- A rollback that succeeds is the inverse of all that happened since the snapshot, if and only
if no query of the snapshot failed that would have found the service enabled or active. -/
theorem rollback_inverts_iff {adapter : FileAdapter} {transactionDir : Path}
    {snapshot : CoreSnapshot} {v : AdapterHost} (hempty : ∀ name, s.snapshot name = none)
    (hsnapshot : Completes (AdapterHost.step answers) (adapter.snapshotConfig transactionDir) s
      snapshot t)
    (hdisturbed : Disturbed adapter snapshot t u)
    (hrollback : Completes AdapterHost.anyStep (adapter.rollbackConfig snapshot) u () v) :
    Matches adapter s.file s.enabled s.active v ↔
      ∀ property, s.flag property = true → answers property = true := by
  obtain ⟨hsaved, henabled, hactive⟩ := (snapshotConfig_takes hempty).completes hsnapshot
  have hkept := disturbed_snapshot hsaved hdisturbed
  have hmatches := Safe.completes (rollbackConfig_keeps (hkept ▸ hsaved)) hrollback
  constructor
  · rintro h (- | -) hset
    · have hflag : (s.enabled && answers .isEnabled) = s.enabled := by
        rw [← henabled, ← hmatches.enabled, h.enabled]
      rw [show s.enabled = true from hset, Bool.true_and] at hflag
      exact hflag
    · have hflag : (s.active && answers .isActive) = s.active := by
        rw [← hactive, ← hmatches.active, h.active]
      rw [show s.active = true from hset, Bool.true_and] at hflag
      exact hflag
  · intro hanswers
    refine ⟨hmatches.file, ?_, ?_⟩
    · rw [hmatches.enabled, henabled]
      cases hset : s.enabled with
      | false => rfl
      | true => exact hanswers .isEnabled hset
    · rw [hmatches.active, hactive]
      cases hset : s.active with
      | false => rfl
      | true => exact hanswers .isActive hset

def smoothHost (answers : UnitProperty → Bool) (s : AdapterHost) :
    (op : FileOp) → FileReply op × AdapterHost
  | .symlinkMetadata slot =>
    match s.file slot with
    | none => (.error .notFound, s)
    | some file => (.ok file.metadata, s)
  | .isFile _ => (true, s)
  | .read slot =>
    match s.file slot with
    | some (.file content) => (.ok content, s)
    | _ => (.error "not a file", s)
  | .readLink slot =>
    match s.file slot with
    | some (.link target) => (.ok target, s)
    | _ => (.error "not a link", s)
  | .copyToSnapshot slot name =>
    match s.file slot with
    | some (.file content) => (.ok (), s.save name (some content))
    | _ => (.error "not a file", s)
  | .writeSnapshot name content => (.ok (), s.save name (some content))
  | .snapshotIsFile name => ((s.snapshot name).isSome, s)
  | .readSource .candidate => (.ok [], s)
  | .readSource (.snapshot name) => ((s.snapshot name).elim (.error "not found") .ok, s)
  | .candidateLength => (.ok 1, s)
  | .createTemporary _ _ => (.ok (), s.withTemporary (some []))
  | .writeTemporary content =>
    match s.temporary with
    | some before => (.ok (), s.withTemporary (some (before ++ content)))
    | none => (.error "not open", s)
  | .rename slot =>
    match s.temporary with
    | some content => (.ok (), (s.put slot (some (.file content))).withTemporary none)
    | none => (.error "not found", s)
  | .removeTemporary => (.ok (), s.withTemporary none)
  | .removeFile slot =>
    match s.file slot with
    | some _ => (.ok (), s.put slot none)
    | none => (.error .notFound, s)
  | .symlink target slot =>
    match s.file slot with
    | none => (.ok (), s.put slot (some (.link target)))
    | some _ => (.error "file exists", s)
  | .systemctl command => (.ok (), s.command command)
  | .systemctlIs property => (.ok (s.flag property && answers property), s)
  | .createSnapshotDirectory | .createParent _ | .syncTemporary | .setPermissions _ | .chown
  | .syncParent _ | .nginxTest | .verifyPortSet _ => (.ok (), s)

theorem smoothHost_step (answers : UnitProperty → Bool) (s : AdapterHost) (op : FileOp) :
    AdapterHost.step answers s op (smoothHost answers s op).1 (smoothHost answers s op).2 := by
  cases op with
  | symlinkMetadata slot =>
    rw [smoothHost]
    cases hfile : s.file slot with
    | none => exact ⟨rfl, hfile⟩
    | some file => exact ⟨rfl, by rw [hfile]; rfl⟩
  | read slot =>
    rw [smoothHost]
    rcases hfile : s.file slot with - | (own | target | -)
    · exact ⟨rfl, fun _ _ h ↦ nomatch h⟩
    · refine ⟨rfl, fun content other hcontent hother ↦ ?_⟩
      cases hcontent
      cases hfile.symm.trans hother
      rfl
    · exact ⟨rfl, fun _ _ h ↦ nomatch h⟩
    · exact ⟨rfl, fun _ _ h ↦ nomatch h⟩
  | readLink slot =>
    rw [smoothHost]
    rcases hfile : s.file slot with - | (own | target | -)
    · exact ⟨rfl, nofun⟩
    · exact ⟨rfl, nofun⟩
    · refine ⟨rfl, fun found hfound ↦ ?_⟩
      cases hfound
      exact hfile
    · exact ⟨rfl, nofun⟩
  | copyToSnapshot slot name =>
    rw [smoothHost]
    rcases hfile : s.file slot with - | (own | target | -)
    · exact .inl rfl
    · refine ⟨own, rfl, fun other hother ↦ ?_⟩
      cases hfile.symm.trans hother
      rfl
    · exact .inl rfl
    · exact .inl rfl
  | snapshotIsFile name => exact ⟨rfl, id⟩
  | readSource source =>
    cases source with
    | candidate => rfl
    | snapshot name =>
      rw [smoothHost]
      cases hsaved : s.snapshot name with
      | none => exact ⟨rfl, nofun⟩
      | some saved => exact ⟨rfl, fun content hcontent ↦ by rw [hsaved, Except.ok.inj hcontent]⟩
  | writeTemporary content =>
    rw [smoothHost]
    cases htemporary : s.temporary with
    | none => exact ⟨s.temporary, rfl⟩
    | some before => exact ⟨before, htemporary, rfl⟩
  | rename slot =>
    rw [smoothHost]
    cases htemporary : s.temporary with
    | none => rfl
    | some content => exact ⟨content, htemporary, rfl⟩
  | removeTemporary => exact ⟨none, rfl⟩
  | removeFile slot =>
    rw [smoothHost]
    cases hfile : s.file slot with
    | none => exact ⟨hfile, rfl⟩
    | some file => exact ⟨by rw [hfile]; rfl, rfl⟩
  | symlink target slot =>
    rw [smoothHost]
    cases hfile : s.file slot with
    | none => exact ⟨hfile, rfl⟩
    | some file => rfl
  | systemctlIs property =>
    refine ⟨rfl, ?_⟩
    rw [← Bool.and_eq_true]
    exact ⟨fun h ↦ Except.ok.inj h, fun h ↦ congrArg _ h⟩
  | _ => rfl

def emptyCore : FileAdapter := .managed .xray fun _ ↦ .ok (.object [])

def liveHost : AdapterHost where
  file := fun _ ↦ some (.file [123, 125])
  enabled := true
  active := true
  snapshot := fun _ ↦ none
  temporary := none

def snapshotTaken (answered : Bool) : AdapterHost :=
  ((emptyCore.snapshotConfig []).eval (smoothHost fun _ ↦ answered) liveHost).2

def liveSnapshot (answered : Bool) : CoreSnapshot := ⟨["snapshot"], answered, answered⟩

theorem snapshot_completes (answered : Bool) :
    Completes (AdapterHost.step fun _ ↦ answered) (emptyCore.snapshotConfig []) liveHost
      (liveSnapshot answered) (snapshotTaken answered) :=
  eval_completes (smoothHost_step _) rfl

def reinstalled (answered : Bool) : AdapterHost :=
  (emptyCore.installConfig.eval (smoothHost fun _ ↦ true) (snapshotTaken answered)).2

def rolledBack (answered : Bool) : AdapterHost :=
  ((emptyCore.rollbackConfig (liveSnapshot answered)).eval (smoothHost fun _ ↦ true)
    (reinstalled answered)).2

theorem anyStep_smooth (s : AdapterHost) (op : FileOp) :
    AdapterHost.anyStep s op (smoothHost (fun _ ↦ true) s op).1
      (smoothHost (fun _ ↦ true) s op).2 :=
  ⟨_, smoothHost_step _ s op⟩

theorem reinstalled_disturbed (answered : Bool) :
    Disturbed emptyCore (liveSnapshot answered) (snapshotTaken answered) (reinstalled answered) :=
  .single (.inl ⟨_, eval_completes anyStep_smooth rfl⟩)

theorem rollback_completes (answered : Bool) :
    Completes AdapterHost.anyStep (emptyCore.rollbackConfig (liveSnapshot answered))
      (reinstalled answered) () (rolledBack answered) := by
  refine eval_completes anyStep_smooth ?_
  cases answered <;> rfl

theorem rollback_inverts_iff_live :
    Matches emptyCore liveHost.file liveHost.enabled liveHost.active (rolledBack true) :=
  (rollback_inverts_iff (fun _ ↦ rfl) (snapshot_completes true) (reinstalled_disturbed true)
    (rollback_completes true)).mpr fun _ _ ↦ rfl

theorem failed_query_not_restored :
    ¬∀ (adapter : FileAdapter) (answers : UnitProperty → Bool) (transactionDir : Path)
      (snapshot : CoreSnapshot) (s t u v : AdapterHost), (∀ name, s.snapshot name = none) →
      Completes (AdapterHost.step answers) (adapter.snapshotConfig transactionDir) s snapshot t →
      Disturbed adapter snapshot t u →
      Completes AdapterHost.anyStep (adapter.rollbackConfig snapshot) u () v →
        Matches adapter s.file s.enabled s.active v := by
  intro hall
  have hmatches := hall emptyCore _ [] _ _ _ _ _ (fun _ ↦ rfl) (snapshot_completes false)
    (reinstalled_disturbed false) (rollback_completes false)
  have hstopped : (rolledBack false).active = false := rfl
  have hactive : (rolledBack false).active = true := hmatches.active
  rw [hstopped] at hactive
  cases hactive

end StealthHub.Adapters

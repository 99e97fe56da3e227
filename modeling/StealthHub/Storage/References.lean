import StealthHub.Routing.Validation
import StealthHub.Storage.Policies
import StealthHub.Storage.Profiles

set_option autoImplicit false

namespace StealthHub.Routing

variable {policy : ClientPolicy} {profiles profiles' : List ProtocolProfile} {name : String}

/-- An enabled pool or rule is served by one profile alone: a member or a target
names it, or asks for a capability that no other enabled profile has. -/
inductive ClientPolicy.Needs (policy : ClientPolicy) (profiles : List ProtocolProfile)
    (name : String) : Prop
  | member (pool : TransportPool) (enabled : pool ∈ policy.enabledPools)
      (named : PoolMember.profile name ∈ pool.members)
  | capability (pool : TransportPool) (enabled : pool ∈ policy.enabledPools) (id : String)
      (selected : PoolMember.capability id ∈ pool.members)
      (alone : hasCapability (profiles.filter (·.name ≠ name)) id = false)
  | target (rule : RoutingPolicyRule) (mem : rule ∈ policy.rules) (enabled : rule.enabled = true)
      (alone : policy.validTarget (profiles.filter (·.name ≠ name)) rule.target = false)

/-- One list of profiles has the enabled names and the capabilities of another. -/
structure Offers (profiles profiles' : List ProtocolProfile) : Prop where
  names : ∀ name ∈ enabledProfileNames profiles, name ∈ enabledProfileNames profiles'
  capabilities : ∀ id, hasCapability profiles id = true → hasCapability profiles' id = true

theorem Offers.validMember (h : Offers profiles profiles') {member : PoolMember}
    (hvalid : policy.validateMember profiles member = .ok ()) :
    policy.validateMember profiles' member = .ok () := by
  cases member with
  | profile id =>
    rw [validateMember_profile] at hvalid ⊢
    exact h.names id hvalid
  | capability id =>
    rw [validateMember_capability] at hvalid ⊢
    exact h.capabilities id hvalid
  | _ => exact hvalid

theorem Offers.validTarget (h : Offers profiles profiles') {target : String}
    (hvalid : policy.validTarget profiles target = true) :
    policy.validTarget profiles' target = true := by
  simp only [ClientPolicy.validTarget, Bool.or_eq_true, List.contains_iff_mem] at hvalid ⊢
  rcases hvalid with (hother | hname) | hcapability
  · exact .inl (.inl hother)
  · exact .inl (.inr (h.names target hname))
  · obtain ⟨id, hid, hid'⟩ := (Option.any_eq_true _ _).mp hcapability
    exact .inr ((Option.any_eq_true _ _).mpr ⟨id, hid, h.capabilities id hid'⟩)

theorem ClientPolicy.Closed.mono (hclosed : policy.Closed profiles) (h : Offers profiles profiles') :
    policy.Closed profiles' where
  members pool hpool member hmember := h.validMember (hclosed.members pool hpool member hmember)
  targets rule hrule henabled := h.validTarget (hclosed.targets rule hrule henabled)

theorem closed_without_iff (hclosed : policy.Closed profiles) :
    policy.Closed (profiles.filter (·.name ≠ name)) ↔ ¬policy.Needs profiles name := by
  constructor
  · intro hwithout hneeds
    cases hneeds with
    | member pool enabled named =>
      have hmember := validateMember_profile.mp (hwithout.members pool enabled _ named)
      obtain ⟨profile, hprofile, -, hname⟩ := mem_enabledProfileNames.mp hmember
      simp [hname] at hprofile
    | capability pool enabled id selected alone =>
      have hmember := validateMember_capability.mp (hwithout.members pool enabled _ selected)
      rw [alone] at hmember
      cases hmember
    | target rule mem enabled alone =>
      have htarget := hwithout.targets rule mem enabled
      rw [alone] at htarget
      cases htarget
  · intro hfree
    refine ⟨?_, ?_⟩
    · intro pool hpool member hmember
      have hold := hclosed.members pool hpool member hmember
      cases member with
      | profile id =>
        have hne : id ≠ name := by
          intro heq
          subst heq
          exact hfree (.member pool hpool hmember)
        rw [validateMember_profile, mem_enabledProfileNames] at hold ⊢
        obtain ⟨profile, hprofile, henabled, rfl⟩ := hold
        exact ⟨profile, by simp [hprofile, hne], henabled, rfl⟩
      | capability id =>
        rw [validateMember_capability]
        by_contra hnone
        exact hfree (.capability pool hpool id hmember (by simpa using hnone))
      | _ => exact hold
    · intro rule hrule henabled
      by_contra hnone
      exact hfree (.target rule hrule henabled (by simpa using hnone))

end StealthHub.Routing

namespace StealthHub.Storage

open Routing Text Users

variable (json : Json)

/-- The stored policy validates against the stored profiles. -/
def PolicyValid (db : Database) : Prop :=
  ∃ profiles, listProtocolProfilesDecoded json db = .ok profiles ∧
    (loadClientPolicy db).validate profiles = .ok ()

/-- The two calls that can make a profile unavailable. -/
inductive ProfileChange
  | delete (name : String) (expectedUpdatedAt : DateTime)
  | update (input : UpdateProtocolProfile)

def ProfileChange.run (now : DateTime) (db : Database) :
    ProfileChange → Except String Unit × Database
  | .delete name expected => (deleteProtocolProfileAudited name expected db).map (·.map fun _ ↦ ()) id
  | .update input => (updateProtocolProfile json now input db).map (·.map fun _ ↦ ()) id

def ProfileChange.Withdraws (db : Database) (record : ProtocolProfileRecord) :
    ProfileChange → Prop
  | .delete name expected => getProtocolProfileByName db name = some record ∧
      record.enabled = true ∧ record.updatedAt = expected ∧
      protocolProfileReferenceCount db name = 0
  | .update input => getProtocolProfileByName db input.name = some record ∧
      record.enabled = true ∧ input.enabled = false ∧
      input.expectedUpdatedAt.any (· ≠ record.updatedAt) = false ∧
      0 < input.port ∧ input.port ≤ 65535

/-- No profile that an enabled pool or rule needs is withdrawn. -/
def ProfileChange.Spares (db : Database) (change : ProfileChange) : Prop :=
  ∀ record profiles, change.Withdraws db record →
    listProtocolProfilesDecoded json db = .ok profiles →
    ¬(loadClientPolicy db).Needs profiles record.name

variable {json} {now : DateTime} {db db' : Database} {profiles profiles' : List ProtocolProfile}
variable {record : ProtocolProfileRecord} {name : String}

theorem decodeProfile_ok {profile : ProtocolProfile}
    (h : decodeProtocolProfile json record = .ok profile) :
    record.schemaVersion ≤ 4294967295 ∧ profile.name = record.name ∧
      profile.enabled = record.enabled ∧ profile.protocolId = record.kind := by
  obtain ⟨config, -, h⟩ := Except.bind_eq_ok.mp h
  obtain ⟨hsize, h⟩ := Except.guard_eq_ok.mp h
  cases Except.pure_eq_ok.mp h
  exact ⟨by omega, rfl, rfl, rfl⟩

/-- Profiles and records agree on which names and protocols are there, and enabled. -/
def Lists (profiles : List ProtocolProfile) (rows : List ProtocolProfileRecord) : Prop :=
  ∀ P : Bool → String → String → Prop,
    (∃ profile ∈ profiles, P profile.enabled profile.name profile.protocolId) ↔
      ∃ record ∈ rows, P record.enabled record.name record.kind

def Covers (rows rows' : List ProtocolProfileRecord) : Prop :=
  ∀ record ∈ rows, record.enabled = true →
    ∃ record' ∈ rows', record'.enabled = true ∧ record'.name = record.name ∧
      record'.kind = record.kind

theorem lists_of_decoded (h : listProtocolProfilesDecoded json db = .ok profiles) :
    Lists profiles db.profiles.rows := by
  obtain ⟨hforth, hback⟩ := Except.exists_of_mapM h
  intro P
  constructor
  · rintro ⟨profile, hprofile, hP⟩
    obtain ⟨record, hrecord, hdecode⟩ := hback profile hprofile
    obtain ⟨-, hname, henabled, hkind⟩ := decodeProfile_ok hdecode
    rw [hname, henabled, hkind] at hP
    exact ⟨record, by simpa [listProtocolProfiles] using hrecord, hP⟩
  · rintro ⟨record, hrecord, hP⟩
    obtain ⟨profile, hprofile, hdecode⟩ := hforth record (by simpa [listProtocolProfiles])
    obtain ⟨-, hname, henabled, hkind⟩ := decodeProfile_ok hdecode
    rw [← hname, ← henabled, ← hkind] at hP
    exact ⟨profile, hprofile, hP⟩

theorem Lists.without {rows : List ProtocolProfileRecord} (h : Lists profiles rows) :
    Lists (profiles.filter (·.name ≠ name)) (rows.filter (·.name ≠ name)) := by
  intro P
  simpa [and_assoc] using h fun enabled other kind ↦ other ≠ name ∧ P enabled other kind

theorem Lists.offers {rows rows' : List ProtocolProfileRecord} (h : Lists profiles rows)
    (h' : Lists profiles' rows') (hcovers : Covers rows rows') : Offers profiles profiles' where
  names name hname := by
    rw [mem_enabledProfileNames] at hname ⊢
    obtain ⟨record, hrecord, henabled, rfl⟩ :=
      (h fun enabled other _ ↦ enabled = true ∧ other = name).mp hname
    obtain ⟨record', hrecord', henabled', hname', -⟩ := hcovers record hrecord henabled
    exact (h' fun enabled other _ ↦ enabled = true ∧ other = record.name).mpr
      ⟨record', hrecord', henabled', hname'⟩
  capabilities id hid := by
    rw [hasCapability_iff] at hid ⊢
    obtain ⟨record, hrecord, henabled, rfl⟩ :=
      (h fun enabled _ kind ↦ enabled = true ∧ kind = id).mp hid
    obtain ⟨record', hrecord', henabled', -, hkind'⟩ := hcovers record hrecord henabled
    exact (h' fun enabled _ kind ↦ enabled = true ∧ kind = record.kind).mpr
      ⟨record', hrecord', henabled', hkind'⟩

theorem decoded_of_rows (h : ∀ record ∈ db.profiles.rows,
    ∃ profile, decodeProtocolProfile json record = .ok profile) :
    ∃ profiles, listProtocolProfilesDecoded json db = .ok profiles := by
  apply Except.exists_mapM_ok
  intro record hrecord
  exact h record (by simpa [listProtocolProfiles] using hrecord)

theorem decoded_row (h : listProtocolProfilesDecoded json db = .ok profiles)
    (hrecord : record ∈ db.profiles.rows) :
    ∃ profile, decodeProtocolProfile json record = .ok profile := by
  obtain ⟨profile, -, hdecode⟩ := (Except.exists_of_mapM h).1 record
    (by simpa [listProtocolProfiles])
  exact ⟨profile, hdecode⟩

theorem policyValid_iff (hvalid : PolicyValid json db)
    (hpolicy : loadClientPolicy db' = loadClientPolicy db)
    (hdecoded : listProtocolProfilesDecoded json db' = .ok profiles') :
    PolicyValid json db' ↔ (loadClientPolicy db).Closed profiles' := by
  obtain ⟨profiles, -, hvalidate⟩ := hvalid
  have hformed := (validate_ok.mp hvalidate).1
  unfold PolicyValid
  rw [hpolicy, hdecoded]
  constructor
  · rintro ⟨_, hsame, hvalidate'⟩
    cases hsame
    exact (validate_ok.mp hvalidate').2
  · intro hclosed
    exact ⟨profiles', rfl, validate_ok.mpr ⟨hformed, hclosed⟩⟩

theorem loadClientPolicy_congr (hpools : db'.pools = db.pools) (hrules : db'.rules = db.rules) :
    loadClientPolicy db' = loadClientPolicy db := by
  rw [loadClientPolicy, loadClientPolicy, hpools, hrules]

theorem withdrawn_iff (hvalid : PolicyValid json db)
    (hpolicy : loadClientPolicy db' = loadClientPolicy db)
    (hlisted : listProtocolProfilesDecoded json db = .ok profiles)
    (hdecoded : ∀ record ∈ db'.profiles.rows,
      ∃ profile, decodeProtocolProfile json record = .ok profile)
    (hrecord : record ∈ db.profiles.rows)
    (hrows : ∀ row : ProtocolProfileRecord, row.enabled = true →
      (row ∈ db'.profiles.rows ↔ row ∈ db.profiles.rows ∧ row ≠ record)) :
    PolicyValid json db' ↔ ¬(loadClientPolicy db).Needs profiles record.name := by
  obtain ⟨profiles', hlisted'⟩ := decoded_of_rows hdecoded
  have hclosed : (loadClientPolicy db).Closed profiles := by
    obtain ⟨_, hsame, hvalidate⟩ := hvalid
    cases hlisted.symm.trans hsame
    exact (validate_ok.mp hvalidate).2
  have hwithout : Lists (profiles.filter (·.name ≠ record.name))
      (db.profiles.rows.filter (·.name ≠ record.name)) := (lists_of_decoded hlisted).without
  have hlists' := lists_of_decoded hlisted'
  have hne : ∀ row ∈ db.profiles.rows, row.name ≠ record.name ↔ row ≠ record :=
    fun row hrow ↦ not_congr ⟨eq_of_name hrow hrecord, congrArg ProtocolProfileRecord.name⟩
  rw [policyValid_iff hvalid hpolicy hlisted', ← closed_without_iff hclosed]
  constructor
  · intro h
    apply h.mono (hlists'.offers hwithout _)
    intro row hrow henabled
    obtain ⟨hmem, hrowNe⟩ := (hrows row henabled).mp hrow
    have hrowName := (hne row hmem).mpr hrowNe
    exact ⟨row, List.mem_filter.mpr ⟨hmem, by simpa using hrowName⟩, henabled, rfl, rfl⟩
  · intro h
    apply h.mono (hwithout.offers hlists' _)
    intro row hrow henabled
    obtain ⟨hmem, hrowName⟩ := List.mem_filter.mp hrow
    have hrowNe := (hne row hmem).mp (by simpa using hrowName)
    exact ⟨row, (hrows row henabled).mpr ⟨hmem, hrowNe⟩, henabled, rfl, rfl⟩

theorem policyValid_of_covers (hvalid : PolicyValid json db)
    (hpolicy : loadClientPolicy db' = loadClientPolicy db)
    (hdecoded : ∀ record ∈ db'.profiles.rows,
      ∃ profile, decodeProtocolProfile json record = .ok profile)
    (hkept : Covers db.profiles.rows db'.profiles.rows) : PolicyValid json db' := by
  obtain ⟨profiles', hlisted'⟩ := decoded_of_rows hdecoded
  rw [policyValid_iff hvalid hpolicy hlisted']
  obtain ⟨profiles, hlisted, hvalidate⟩ := hvalid
  have hclosed := (validate_ok.mp hvalidate).2
  exact hclosed.mono ((lists_of_decoded hlisted).offers (lists_of_decoded hlisted') hkept)

theorem delete_sound {expected : DateTime} {enabled : Bool} (hvalid : PolicyValid json db)
    (h : removeProtocolProfile name expected db = .ok (enabled, db')) :
    PolicyValid json db' ↔ (ProfileChange.delete name expected).Spares json db := by
  obtain ⟨existing, hget, hstamp, hcount, -, rfl⟩ := removeProfile_ok h
  obtain ⟨hmem, hname⟩ := getByName_some hget
  obtain ⟨profiles, hlisted, -⟩ := id hvalid
  set db' := (bumpWhen existing.enabled { db with
    profiles := db.profiles.delete fun row ↦ row.name = trim name && row.updatedAt = expected }).2
  have hpolicy : loadClientPolicy db' = loadClientPolicy db :=
    loadClientPolicy_congr bumpWhen_pools bumpWhen_rules
  have hrows : ∀ row, row ∈ db'.profiles.rows ↔ row ∈ db.profiles.rows ∧ row ≠ existing := by
    intro row
    rw [bumpWhen_profiles, Table.mem_delete]
    refine and_congr_right fun hrow ↦ ?_
    have hselects := update_selects hget hrow
    rw [hname, hstamp] at hselects
    rw [ne_eq, ← hselects, Bool.not_eq_true]
  have hdecoded : ∀ row ∈ db'.profiles.rows,
      ∃ profile, decodeProtocolProfile json row = .ok profile :=
    fun row hrow ↦ decoded_row hlisted ((hrows row).mp hrow).1
  cases henabled : existing.enabled with
  | false =>
    refine iff_of_true (policyValid_of_covers hvalid hpolicy hdecoded ?_) ?_
    · intro row hrow hrowEnabled
      refine ⟨row, (hrows row).mpr ⟨hrow, ?_⟩, hrowEnabled, rfl, rfl⟩
      intro heq
      rw [heq, henabled] at hrowEnabled
      cases hrowEnabled
    · rintro record _ ⟨hrecord, hrecordEnabled, -⟩
      cases hget.symm.trans hrecord
      rw [henabled] at hrecordEnabled
      cases hrecordEnabled
  | true =>
    rw [withdrawn_iff hvalid hpolicy hlisted hdecoded hmem fun row _ ↦ hrows row]
    constructor
    · rintro hfree record profiles' ⟨hrecord, -⟩ hlisted'
      cases hget.symm.trans hrecord
      cases hlisted.symm.trans hlisted'
      exact hfree
    · intro hspares
      exact hspares existing profiles ⟨hget, henabled, hstamp, hcount⟩ hlisted

theorem delete_accepts {expected : DateTime}
    (h : (ProfileChange.delete name expected).Withdraws db record) :
    ∃ enabled db', removeProtocolProfile name expected db = .ok (enabled, db') := by
  obtain ⟨hget, -, hstamp, hcount⟩ := h
  unfold removeProtocolProfile
  rw [hget, Option.elim_some, hcount]
  simp only [bind, Except.bind, hstamp, ne_eq, not_true, if_false]
  exact ⟨_, _, rfl⟩

theorem update_sound {input : UpdateProtocolProfile} {existing : ProtocolProfileRecord}
    {wrote : Bool} (hvalid : PolicyValid json db)
    (h : rewriteProtocolProfile json now input db = .ok ((existing, wrote), db')) :
    PolicyValid json db' ↔ (ProfileChange.update input).Spares json db := by
  obtain ⟨hget, hexpected, hwrote⟩ := rewriteProfile_ok h
  obtain ⟨hmem, hname⟩ := getByName_some hget
  obtain ⟨profiles, hlisted, -⟩ := id hvalid
  rcases hwrote with ⟨hsame, -, rfl⟩ | ⟨-, -, hport, table, hupdate, rfl⟩
  · refine iff_of_true hvalid ?_
    rintro record _ ⟨hrecord, henabled, hdisabled, -⟩
    cases hget.symm.trans hrecord
    simp [UpdateProtocolProfile.changed, henabled, hdisabled] at hsame
  set updated := input.apply json now existing hport
  set db' := (bumpWhen (input.runtimeChanged json existing) { db with profiles := table }).2
  have hpolicy : loadClientPolicy db' = loadClientPolicy db :=
    loadClientPolicy_congr bumpWhen_pools bumpWhen_rules
  have hrows : ∀ row, row ∈ db'.profiles.rows ↔
      row = updated ∨ row ∈ db.profiles.rows ∧ row ≠ existing := by
    intro row
    rw [bumpWhen_profiles]
    exact Table.mem_update_of_unique hupdate hmem ((update_selects hget hmem).mpr rfl)
      fun other hother ↦ (update_selects hget hother).mp
  have hdecoded : ∀ row ∈ db'.profiles.rows,
      ∃ profile, decodeProtocolProfile json row = .ok profile := by
    intro row hrow
    rcases (hrows row).mp hrow with rfl | ⟨hold, -⟩
    · obtain ⟨profile, hprofile⟩ := decoded_row hlisted hmem
      obtain ⟨config, hconfig⟩ := json.reads input.config
      have hsize := (decodeProfile_ok hprofile).1
      exact ⟨_, Except.bind_eq_ok.mpr ⟨config, hconfig, Except.guard_eq_ok.mpr
        ⟨not_lt.mpr hsize, rfl⟩⟩⟩
    · exact decoded_row hlisted hold
  by_cases hwithdrawn : existing.enabled = true ∧ input.enabled = false
  · obtain ⟨henabled, hdisabled⟩ := hwithdrawn
    rw [withdrawn_iff hvalid hpolicy hlisted hdecoded hmem]
    · constructor
      · rintro hfree record profiles' ⟨hrecord, -⟩ hlisted'
        cases hget.symm.trans hrecord
        cases hlisted.symm.trans hlisted'
        exact hfree
      · intro hspares
        exact hspares existing profiles ⟨hget, henabled, hdisabled, hexpected, hport⟩ hlisted
    · intro row hrowEnabled
      rw [hrows, or_iff_right]
      intro heq
      rw [heq] at hrowEnabled
      exact Bool.false_ne_true (hdisabled.symm.trans hrowEnabled)
  · refine iff_of_true (policyValid_of_covers hvalid hpolicy hdecoded ?_) ?_
    · intro row hrow hrowEnabled
      by_cases heq : row = existing
      · subst heq
        refine ⟨updated, (hrows updated).mpr (.inl rfl), ?_, rfl, rfl⟩
        by_contra hdisabled
        exact hwithdrawn ⟨hrowEnabled, Bool.eq_false_iff.mpr hdisabled⟩
      · exact ⟨row, (hrows row).mpr (.inr ⟨hrow, heq⟩), hrowEnabled, rfl, rfl⟩
    · rintro record _ ⟨hrecord, henabled, hdisabled, -⟩
      cases hget.symm.trans hrecord
      exact absurd ⟨henabled, hdisabled⟩ hwithdrawn

theorem update_accepts {input : UpdateProtocolProfile}
    (h : (ProfileChange.update input).Withdraws db record) :
    ∃ existing wrote db', rewriteProtocolProfile json now input db = .ok ((existing, wrote), db') := by
  obtain ⟨hget, henabled, hdisabled, hexpected, hport⟩ := h
  have hchanged : input.changed json record = true := by
    simp [UpdateProtocolProfile.changed, henabled, hdisabled]
  have hkeys : ∀ a ∈ db.profiles.rows,
      (if (a.name = record.name && a.updatedAt = record.updatedAt) = true then
        input.apply json now record hport else a).id = a.id ∧
      (if (a.name = record.name && a.updatedAt = record.updatedAt) = true then
        input.apply json now record hport else a).name = a.name := by
    intro a ha
    split
    next hselected =>
      rw [(update_selects hget ha).mp hselected]
      exact ⟨rfl, rfl⟩
    next => exact ⟨rfl, rfl⟩
  obtain ⟨table, htable⟩ : ∃ table, db.profiles.update
      (fun row ↦ row.name = record.name && row.updatedAt = record.updatedAt)
      (fun _ ↦ input.apply json now record hport) = some table := by
    apply Table.update_of
    intro a ha b hb hclash
    simpa only [ProtocolProfileRecord.Clash, hkeys a ha, hkeys b hb] using hclash
  unfold rewriteProtocolProfile
  rw [hget, Option.elim_some]
  simp only [bind, Except.bind, hexpected, hchanged, htable, dif_pos hport]
  exact ⟨_, _, _, rfl⟩

/-- A change of a profile is rejected or leaves the policy valid exactly when it
withdraws no profile that the policy needs. -/
theorem profile_change_sound_iff (change : ProfileChange) (hvalid : PolicyValid json db) :
    ((∃ message, (change.run json now db).1 = .error message) ∧ (change.run json now db).2 = db ∨
      PolicyValid json (change.run json now db).2) ↔ change.Spares json db := by
  cases change with
  | delete name expected =>
    simp only [ProfileChange.run, deleteProtocolProfileAudited]
    cases hbody : removeProtocolProfile name expected db with
    | error message =>
      rw [transact_error hbody]
      refine iff_of_true (.inl ⟨⟨message, rfl⟩, rfl⟩) ?_
      intro record profiles hwithdraws
      obtain ⟨_, _, hok⟩ := delete_accepts hwithdraws
      rw [hbody] at hok
      cases hok
    | ok outcome =>
      rw [transact_ok hbody]
      refine Iff.trans (or_iff_right ?_) (delete_sound hvalid hbody)
      rintro ⟨⟨message, hmessage⟩, -⟩
      cases hmessage
  | update input =>
    simp only [ProfileChange.run]
    cases hbody : rewriteProtocolProfile json now input db with
    | error message =>
      rw [updateProtocolProfile, transact_error hbody]
      refine iff_of_true (.inl ⟨⟨message, rfl⟩, rfl⟩) ?_
      intro record profiles hwithdraws
      obtain ⟨_, _, _, hok⟩ := update_accepts hwithdraws
      rw [hbody] at hok
      cases hok
    | ok outcome =>
      obtain ⟨⟨existing, wrote⟩, db'⟩ := outcome
      obtain ⟨updated, hupdated⟩ := updateProfile_ok hbody
      rw [hupdated]
      refine Iff.trans (or_iff_right ?_) (update_sound hvalid hbody)
      rintro ⟨⟨message, hmessage⟩, -⟩
      cases hmessage

def soleProvider : Database :=
  { initDb with
    profiles := ⟨[unplaced], unplaced_distinct⟩
    nextProfileId := 2
    pools := ⟨poolRows [automaticPool "FAST-AUTO" .urlTest [.capability "hysteria2"] 500 (some 50)
      100], List.pairwise_singleton _ _⟩ }

theorem soleProvider_valid : PolicyValid emptyObject soleProvider :=
  ⟨_, rfl, by decide⟩

def secondProvider : ProtocolProfileRecord := { unplaced with id := 2, name := "SPARE" }

theorem providers_distinct :
    [unplaced, secondProvider].Pairwise fun a b ↦ ¬ProtocolProfileRecord.Clash a b := by
  decide

def twoProviders : Database :=
  { soleProvider with
    profiles := ⟨[unplaced, secondProvider], providers_distinct⟩
    nextProfileId := 3 }

theorem twoProviders_valid : PolicyValid emptyObject twoProviders :=
  ⟨_, rfl, by decide⟩

theorem twoProviders_spares : (ProfileChange.delete "FAST" 0).Spares emptyObject twoProviders := by
  rintro record profiles ⟨hget, -⟩ hlisted hneeds
  have hstored : getProtocolProfileByName twoProviders "FAST" = some unplaced := by decide
  cases hget.symm.trans hstored
  have hdecoded : listProtocolProfilesDecoded emptyObject twoProviders = .ok _ := rfl
  cases hlisted.symm.trans hdecoded
  have hmembers : ∀ pool ∈ (loadClientPolicy twoProviders).enabledPools,
      ∀ member ∈ pool.members, member = .capability "hysteria2" := by
    decide
  cases hneeds with
  | member pool enabled named => cases hmembers pool enabled _ named
  | capability pool enabled id selected alone =>
    cases hmembers pool enabled _ selected
    exact absurd alone (by decide)
  | target rule mem => cases mem

theorem profile_change_sound_iff_spared :
    ((ProfileChange.delete "FAST" 0).run emptyObject 6 twoProviders).1 = .ok () ∧
      PolicyValid emptyObject
        ((ProfileChange.delete "FAST" 0).run emptyObject 6 twoProviders).2 := by
  have hwithdraws : (ProfileChange.delete "FAST" 0).Withdraws twoProviders unplaced :=
    ⟨by decide, rfl, rfl, by decide⟩
  obtain ⟨enabled, db', hbody⟩ := delete_accepts hwithdraws
  have haccepted : ((ProfileChange.delete "FAST" 0).run emptyObject 6 twoProviders).1 =
      .ok () := by
    rw [ProfileChange.run, deleteProtocolProfileAudited, transact_ok hbody]
    rfl
  have hsound := (@profile_change_sound_iff emptyObject 6 twoProviders (.delete "FAST" 0)
    twoProviders_valid).mpr twoProviders_spares
  rcases hsound with ⟨⟨message, hrefused⟩, -⟩ | hvalid
  · cases haccepted.symm.trans hrefused
  · exact ⟨haccepted, hvalid⟩

theorem sole_provider_deleted :
    ¬∀ (json : Json) (now : DateTime) (db : Database) (change : ProfileChange),
      PolicyValid json db →
        (∃ message, (change.run json now db).1 = .error message) ∧ (change.run json now db).2 = db ∨
          PolicyValid json (change.run json now db).2 := by
  intro h
  have hget : getProtocolProfileByName soleProvider "FAST" = some unplaced := by decide
  have hcount : protocolProfileReferenceCount soleProvider "FAST" = 0 := by decide
  have hwithdraws : (ProfileChange.delete "FAST" 0).Withdraws soleProvider unplaced :=
    ⟨hget, rfl, rfl, hcount⟩
  obtain ⟨enabled, db', hbody⟩ := delete_accepts hwithdraws
  have hdeleted := h emptyObject 0 soleProvider (.delete "FAST" 0) soleProvider_valid
  simp only [ProfileChange.run, deleteProtocolProfileAudited, transact_ok hbody] at hdeleted
  rcases hdeleted with ⟨⟨message, hmessage⟩, -⟩ | hvalid
  · cases hmessage
  · have hspares := (delete_sound soleProvider_valid hbody).mp hvalid
    apply hspares unplaced _ hwithdraws rfl
    have hselected : ∃ pool ∈ (loadClientPolicy soleProvider).enabledPools,
        PoolMember.capability "hysteria2" ∈ pool.members := by
      decide
    obtain ⟨pool, henabled, hselected⟩ := hselected
    exact .capability pool henabled "hysteria2" hselected (by decide)

end StealthHub.Storage

import StealthHub.Adapters
import StealthHub.Data.OrderedMap
import StealthHub.Data.Recent
import StealthHub.Users.Store

set_option autoImplicit false

namespace StealthHub.Storage

open Text
open Users (DateTime)

inductive TelemetryMetric
  | processState
  | listenerState
  | runtimeVersion
  | activeConnections
  | aggregateTraffic
  | perUserTraffic
deriving DecidableEq

inductive TelemetryState
  | supported
  | unsupported
  | unavailable
  | stale
  | error
deriving DecidableEq

structure TrafficCounters where
  rxBytes : ℕ
  txBytes : ℕ
  totalBytes : ℕ
  activeConnections : Option ℕ
  continuity : String
deriving DecidableEq

structure RuntimeTelemetryObservation where
  runtimeId : String
  observedAt : DateTime
  source : String
  metrics : List (TelemetryMetric × TelemetryState)
  traffic : Option TrafficCounters
  detail : Option String
deriving DecidableEq

/-- A row of `runtime_telemetry_samples`. -/
structure TelemetrySample where
  id : ℕ
  runtimeId : String
  userId : Option ℕ
  observedAt : DateTime
  observationJson : String
deriving DecidableEq

/-- `FOREIGN KEY(user_id) REFERENCES users(id) ON DELETE SET NULL`. -/
def TelemetrySample.forgetUser (user : ℕ) (sample : TelemetrySample) : TelemetrySample :=
  if sample.userId = some user then { sample with userId := none } else sample

/-- A row of `runtime_telemetry_latest`, under the runtime. -/
structure LatestTelemetry where
  observedAt : DateTime
  observationJson : String
deriving DecidableEq

structure TelemetryTables where
  samples : List TelemetrySample
  /-- The greatest id that `AUTOINCREMENT` has given. -/
  lastId : ℕ
  latest : OrderedMap String LatestTelemetry

def noTelemetry : TelemetryTables := ⟨[], 0, .empty⟩

def telemetryHistoryLimit : ℕ := 4096

namespace TelemetryTables

variable (tables : TelemetryTables) (observation : RuntimeTelemetryObservation)
  (userId : Option ℕ) (encoded : String)

def insertSample : TelemetryTables :=
  { tables with
    samples := tables.samples ++
      [⟨tables.lastId + 1, observation.runtimeId, userId, observation.observedAt, encoded⟩]
    lastId := tables.lastId + 1 }

def upsertLatest : TelemetryTables :=
  if (tables.latest.get? observation.runtimeId).any (observation.observedAt < ·.observedAt) then
    tables
  else
    { tables with
      latest := tables.latest.insert observation.runtimeId ⟨observation.observedAt, encoded⟩ }

/-- `SELECT id FROM runtime_telemetry_samples ORDER BY id DESC LIMIT ?`. -/
def greatestIds : List ℕ :=
  ((tables.samples.map (·.id)).mergeSort (· ≥ ·)).take telemetryHistoryLimit

def pruneSamples : TelemetryTables :=
  { tables with samples := tables.samples.filter (·.id ∈ tables.greatestIds) }

/-- The statements of one record; only an observation of a whole runtime counts as its latest. -/
def transaction : TelemetryTables :=
  let inserted := tables.insertSample observation userId encoded
  (if userId.isNone then inserted.upsertLatest observation encoded else inserted).pruneSamples

def forgetUser (user : ℕ) : TelemetryTables :=
  { tables with samples := tables.samples.map (·.forgetUser user) }

end TelemetryTables

section recording

variable (encode : RuntimeTelemetryObservation → String)

/-- `database` says how the transaction ends. -/
def recordRuntimeTelemetry (tables : TelemetryTables) (observation : RuntimeTelemetryObservation)
    (userId : Option ℕ) (database : Except String Unit) : Except String TelemetryTables :=
  let encoded := encode observation
  if !validAdapterId observation.runtimeId then .error "invalid telemetry runtime ID"
  else if 16 * 1024 < len encoded then .error "telemetry observation exceeds 16 KiB"
  else database.map fun _ ↦ tables.transaction observation userId encoded

inductive TelemetryEvent
  | record (observation : RuntimeTelemetryObservation) (userId : Option ℕ)
      (database : Except String Unit)
  | deleteUser (user : ℕ)

/-- A transaction that fails is rolled back. -/
def TelemetryTables.step (tables : TelemetryTables) : TelemetryEvent → TelemetryTables
  | .record observation userId database =>
    match recordRuntimeTelemetry encode tables observation userId database with
    | .ok recorded => recorded
    | .error _ => tables
  | .deleteUser user => tables.forgetUser user

/-- All that was ever recorded, with nothing pruned. -/
structure TelemetryHistory where
  samples : List TelemetrySample
  aggregates : List RuntimeTelemetryObservation

namespace TelemetryHistory

def aggregatesOf (history : TelemetryHistory) (runtimeId : String) :
    List RuntimeTelemetryObservation :=
  history.aggregates.filter (·.runtimeId = runtimeId)

/-- The sample gets the number of its record. -/
def record (history : TelemetryHistory) (observation : RuntimeTelemetryObservation)
    (userId : Option ℕ) : TelemetryHistory where
  samples := history.samples ++ [⟨history.samples.length + 1, observation.runtimeId, userId,
    observation.observedAt, encode observation⟩]
  aggregates := history.aggregates ++ if userId.isNone then [observation] else []

def forgetUser (history : TelemetryHistory) (user : ℕ) : TelemetryHistory :=
  { history with samples := history.samples.map (·.forgetUser user) }

abbrev Accepts (observation : RuntimeTelemetryObservation) (database : Except String Unit) : Prop :=
  validAdapterId observation.runtimeId = true ∧ len (encode observation) ≤ 16 * 1024 ∧
    database.isOk = true

def step (history : TelemetryHistory) : TelemetryEvent → TelemetryHistory
  | .record observation userId database =>
    if Accepts encode observation database then history.record encode observation userId else history
  | .deleteUser user => history.forgetUser user

end TelemetryHistory

end recording

variable {encode : RuntimeTelemetryObservation → String} {tables : TelemetryTables}
  {history : TelemetryHistory} {observation : RuntimeTelemetryObservation} {userId : Option ℕ}
  {database : Except String Unit}

open TelemetryHistory

theorem step_record : tables.step encode (.record observation userId database) =
    if Accepts encode observation database then
      tables.transaction observation userId (encode observation)
    else tables := by
  rw [TelemetryTables.step, recordRuntimeTelemetry]
  by_cases hid : validAdapterId observation.runtimeId = true
  · by_cases hlen : len (encode observation) ≤ 16 * 1024
    · cases database with
      | ok _ =>
        rw [if_neg (by simp [hid]), if_neg (not_lt.mpr hlen), if_pos ⟨hid, hlen, rfl⟩]
        rfl
      | error e =>
        rw [if_neg (by simp [hid]), if_neg (not_lt.mpr hlen), if_neg fun h ↦ by cases h.2.2]
        rfl
    · rw [if_neg (by simp [hid]), if_pos (not_le.mp hlen), if_neg fun h ↦ hlen h.2.1]
  · rw [if_pos (by simp [hid]), if_neg fun h ↦ hid h.1]

/-- The row of an observation among the latest ones. -/
def latestRow (encode : RuntimeTelemetryObservation → String)
    (observation : RuntimeTelemetryObservation) : LatestTelemetry :=
  ⟨observation.observedAt, encode observation⟩

/-- The tables keep the end of the history, and the newest aggregate of each runtime. -/
structure Keeps (encode : RuntimeTelemetryObservation → String) (tables : TelemetryTables)
    (history : TelemetryHistory) : Prop where
  samples : tables.samples = history.samples.rtake telemetryHistoryLimit
  lastId : tables.lastId = history.samples.length
  ascending : history.samples.Pairwise (·.id < ·.id)
  bounded : ∀ sample ∈ history.samples, sample.id ≤ history.samples.length
  latest : ∀ runtimeId, tables.latest.get? runtimeId =
    ((history.aggregatesOf runtimeId).newest? (·.observedAt)).map (latestRow encode)

theorem pruneSamples_samples (h : tables.samples.Pairwise (·.id < ·.id)) :
    tables.pruneSamples.samples = tables.samples.rtake telemetryHistoryLimit :=
  List.filter_greatest h

theorem upsertLatest_samples (tables : TelemetryTables) (observation : RuntimeTelemetryObservation)
    (encoded : String) :
    (tables.upsertLatest observation encoded).samples = tables.samples ∧
      (tables.upsertLatest observation encoded).lastId = tables.lastId := by
  rw [TelemetryTables.upsertLatest]
  split_ifs
  · exact ⟨rfl, rfl⟩
  · exact ⟨rfl, rfl⟩

theorem upsertLatest_get? (tables : TelemetryTables) {observations : List RuntimeTelemetryObservation}
    (h : tables.latest.get? observation.runtimeId =
      (observations.newest? (·.observedAt)).map (latestRow encode)) :
    (tables.upsertLatest observation (encode observation)).latest.get? observation.runtimeId =
      ((observations ++ [observation]).newest? (·.observedAt)).map (latestRow encode) := by
  have hnewer : (tables.latest.get? observation.runtimeId).any
      (observation.observedAt < ·.observedAt) =
        (observations.newest? (·.observedAt)).any (observation.observedAt < ·.observedAt) := by
    rw [h, Option.any_map]
    rfl
  rw [List.newest?_concat, TelemetryTables.upsertLatest, hnewer]
  split_ifs
  · exact h
  · rw [OrderedMap.get?_insert, if_pos rfl]
    rfl

theorem upsertLatest_get?_of_ne (tables : TelemetryTables) {runtimeId : String} (encoded : String)
    (h : observation.runtimeId ≠ runtimeId) :
    (tables.upsertLatest observation encoded).latest.get? runtimeId =
      tables.latest.get? runtimeId := by
  rw [TelemetryTables.upsertLatest]
  split_ifs
  · rfl
  · rw [OrderedMap.get?_insert, if_neg h]

theorem aggregatesOf_record (runtimeId : String) :
    (history.record encode observation userId).aggregatesOf runtimeId =
      history.aggregatesOf runtimeId ++
        if userId.isNone ∧ observation.runtimeId = runtimeId then [observation] else [] := by
  rw [aggregatesOf, aggregatesOf, record, List.filter_append]
  congr 1
  by_cases hsame : observation.runtimeId = runtimeId
  · cases userId with
    | none => simp [hsame]
    | some user => rfl
  · cases userId with
    | none => simp [hsame]
    | some user => rfl

theorem transaction_get? (h : Keeps encode tables history) (runtimeId : String) :
    (tables.transaction observation userId (encode observation)).latest.get? runtimeId =
      (((history.record encode observation userId).aggregatesOf runtimeId).newest?
        (·.observedAt)).map (latestRow encode) := by
  rw [aggregatesOf_record]
  cases userId with
  | some user =>
    rw [if_neg (fun hsome ↦ Bool.false_ne_true hsome.1), List.append_nil]
    exact h.latest runtimeId
  | none =>
    by_cases hsame : observation.runtimeId = runtimeId
    · subst hsame
      rw [if_pos ⟨rfl, rfl⟩]
      exact upsertLatest_get? (tables.insertSample observation none (encode observation))
        (h.latest observation.runtimeId)
    · rw [if_neg fun hboth ↦ hsame hboth.2, List.append_nil]
      exact (upsertLatest_get?_of_ne (tables.insertSample observation none _) _ hsame).trans
        (h.latest runtimeId)

theorem ascending_concat {samples : List TelemetrySample} {sample : TelemetrySample}
    (hascending : samples.Pairwise (·.id < ·.id)) (hbounded : ∀ old ∈ samples, old.id < sample.id) :
    (samples ++ [sample]).Pairwise (·.id < ·.id) := by
  refine List.pairwise_append.mpr ⟨hascending, List.pairwise_singleton _ _, ?_⟩
  intro old hold new hnew
  rw [List.mem_singleton.mp hnew]
  exact hbounded old hold

theorem transaction_samples (tables : TelemetryTables) (observation : RuntimeTelemetryObservation)
    (userId : Option ℕ) (encoded : String) :
    (tables.transaction observation userId encoded).samples =
      (tables.insertSample observation userId encoded).pruneSamples.samples ∧
      (tables.transaction observation userId encoded).lastId = tables.lastId + 1 := by
  cases userId with
  | some user => exact ⟨rfl, rfl⟩
  | none =>
    obtain ⟨hsamples, hlast⟩ :=
      upsertLatest_samples (tables.insertSample observation none encoded) observation encoded
    constructor
    · change ((tables.insertSample observation none encoded).upsertLatest observation
        encoded).pruneSamples.samples = _
      rw [TelemetryTables.pruneSamples, TelemetryTables.greatestIds, hsamples]
      rfl
    · exact hlast

theorem Keeps.record (h : Keeps encode tables history) :
    Keeps encode (tables.transaction observation userId (encode observation))
      (history.record encode observation userId) := by
  obtain ⟨hsamples, hlast⟩ := transaction_samples tables observation userId (encode observation)
  have hfollows : ∀ old ∈ history.samples, old.id < history.samples.length + 1 :=
    fun old hold ↦ Nat.lt_succ_of_le (h.bounded old hold)
  have hkept : ∀ old ∈ tables.samples, old ∈ history.samples := by
    intro old hold
    rw [h.samples] at hold
    exact List.mem_of_mem_drop hold
  have hinserted : (tables.insertSample observation userId (encode observation)).samples.Pairwise
      (·.id < ·.id) := by
    refine ascending_concat ?_ fun old hold ↦ ?_
    · rw [h.samples]
      exact h.ascending.sublist (List.drop_sublist _ _)
    · rw [h.lastId]
      exact hfollows old (hkept old hold)
  exact {
    samples := by
      rw [hsamples, pruneSamples_samples hinserted, TelemetryTables.insertSample, h.samples, h.lastId,
        List.rtake_rtake_concat]
      rfl
    lastId := by
      rw [hlast, h.lastId, TelemetryHistory.record, List.length_append, List.length_singleton]
    ascending := ascending_concat h.ascending hfollows
    bounded := fun sample hsample ↦ by
      rw [TelemetryHistory.record, List.length_append, List.length_singleton]
      rcases List.mem_append.mp hsample with hold | hnew
      · exact (hfollows sample hold).le
      · rw [List.mem_singleton.mp hnew]
    latest := transaction_get? h }

@[simp] theorem forgetUser_id (user : ℕ) (sample : TelemetrySample) :
    (sample.forgetUser user).id = sample.id := by
  rw [TelemetrySample.forgetUser]
  split_ifs
  · rfl
  · rfl

theorem Keeps.forgetUser (h : Keeps encode tables history) (user : ℕ) :
    Keeps encode (tables.forgetUser user) (history.forgetUser user) where
  samples := by
    rw [TelemetryTables.forgetUser, TelemetryHistory.forgetUser, h.samples, List.map_rtake]
  lastId := by
    rw [TelemetryHistory.forgetUser, List.length_map]
    exact h.lastId
  ascending := by
    rw [TelemetryHistory.forgetUser, List.pairwise_map]
    simp only [forgetUser_id]
    exact h.ascending
  bounded := by
    rw [TelemetryHistory.forgetUser, List.length_map, List.forall_mem_map]
    simp only [forgetUser_id]
    exact h.bounded
  latest := h.latest

theorem Keeps.step (h : Keeps encode tables history) (event : TelemetryEvent) :
    Keeps encode (tables.step encode event) (history.step encode event) := by
  cases event with
  | record observation userId database =>
    rw [step_record, TelemetryHistory.step]
    split_ifs
    · exact h.record
    · exact h
  | deleteUser user => exact h.forgetUser user

theorem Keeps.run (h : Keeps encode tables history) (events : List TelemetryEvent) :
    Keeps encode (events.foldl (TelemetryTables.step encode) tables)
      (events.foldl (TelemetryHistory.step encode) history) := by
  induction events generalizing tables history with
  | nil => exact h
  | cons event rest ih => exact ih (h.step event)

def noHistory : TelemetryHistory := ⟨[], []⟩

theorem keeps_none (encode : RuntimeTelemetryObservation → String) :
    Keeps encode noTelemetry noHistory where
  samples := rfl
  lastId := rfl
  ascending := .nil
  bounded := List.forall_mem_nil _
  latest := fun _ ↦ rfl

/-- Whatever is recorded and whichever users are deleted meanwhile, the tables hold the last records
of the whole history, and of each runtime the newest aggregate observation, of equally new ones the
one that was recorded last. -/
theorem telemetry_keeps_history (encode : RuntimeTelemetryObservation → String)
    (events : List TelemetryEvent) :
    let tables := events.foldl (TelemetryTables.step encode) noTelemetry
    let history := events.foldl (TelemetryHistory.step encode) noHistory
    tables.samples = history.samples.rtake telemetryHistoryLimit ∧
      ∀ runtimeId row, tables.latest.get? runtimeId = some row ↔ ∃ observation,
        List.IsNewest (·.observedAt) observation (history.aggregatesOf runtimeId) ∧
          latestRow encode observation = row := by
  have hkeeps := (keeps_none encode).run events
  refine ⟨hkeeps.samples, fun runtimeId row ↦ ?_⟩
  rw [hkeeps.latest, Option.map_eq_some_iff]
  simp only [List.newest?_eq_some]

end StealthHub.Storage

import StealthHub.Effect.Interleave
import StealthHub.Effect.Serial
import StealthHub.Storage.PolicyReads

set_option autoImplicit false

namespace StealthHub.Storage

open Effect Effect.Program Effect.Program.Sessions Relation Routing

inductive RoutingEdit
  | upsertPool (originalId : Option String) (value : TransportPool) (profiles : List ProtocolProfile)
  | deletePool (id : String) (replacement : Option String) (profiles : List ProtocolProfile)
  | upsertRule (originalId : Option String) (value : RoutingPolicyRule)
      (profiles : List ProtocolProfile)
  | deleteRule (id : String)

/-- The edit alone, with nobody else at the store. -/
def RoutingEdit.run (db : Database) : RoutingEdit → Except String Database
  | .upsertPool originalId value profiles => upsertTransportPool originalId value profiles db
  | .deletePool id replacement profiles => deleteTransportPool id replacement profiles db
  | .upsertRule originalId value profiles => upsertRoutingPolicy originalId value profiles db
  | .deleteRule id => deleteRoutingPolicy id db

inductive RoutingQuery
  | policy (query : PolicyQuery)
  | ruleSetReferences (poolId : String)

def RoutingRows : RoutingQuery → Type
  | .policy query => PolicyRows query
  | .ruleSetReferences _ => ℕ

def queryRouting (db : Database) : (query : RoutingQuery) → RoutingRows query
  | .policy query => queryPolicy db query
  | .ruleSetReferences poolId => db.ruleSets.rows.countP (·.target = poolId)

def loadPolicyRows : Program RoutingRows String ClientPolicy :=
  readClientPolicy.embed RoutingQuery.policy fun _ rows ↦ rows

def countReferences (poolId : String) : Program RoutingRows String ℕ :=
  request (RoutingQuery.ruleSetReferences poolId)

def referencedBy (policy : ClientPolicy) (ruleSetReferences : ℕ) (id : String) : Bool :=
  (policy.pools.any fun pool ↦ pool.fallbackPool = some id || pool.members.contains (.pool id)) ||
    (policy.rules.any (·.target = id)) || 0 < ruleSetReferences

/-- What an edit reads and checks, up to the policy and the rename that it saves. -/
def RoutingEdit.program :
    RoutingEdit → Program RoutingRows String (ClientPolicy × Option (String × String))
  | .upsertPool originalId value profiles => do
    let policy ← loadPolicyRows
    let edited ← lift (editTransportPool originalId value policy)
    lift (edited.1.validate profiles)
    return edited
  | .deletePool id replacement profiles => do
    let policy ← loadPolicyRows
    if !policy.pools.any (·.id = id) then .fail "unknown transport pool"
    else
      let references ← countReferences id
      let edited ← lift (if referencedBy policy references id then
        replaceTransportPool id replacement policy else .ok (policy, none))
      let policy := { edited.1 with pools := edited.1.pools.filter (·.id ≠ id) }
      lift (policy.validate profiles)
      return (policy, edited.2)
  | .upsertRule originalId value profiles => do
    let policy ← loadPolicyRows
    let policy ← lift (editRoutingPolicy originalId value policy)
    lift (policy.validate profiles)
    return (policy, none)
  | .deleteRule id => do
    let policy ← loadPolicyRows
    let rules := policy.rules.filter (·.id ≠ id)
    if rules.length = policy.rules.length then .fail "unknown routing policy"
    else return ({ policy with rules }, none)

/-- The transaction of `save_client_policy`. -/
def savePolicy (edited : ClientPolicy × Option (String × String)) (db : Database) :
    Except String Database :=
  saveClientPolicy edited.1 edited.2 db

variable {db : Database} {edit : RoutingEdit}

theorem loadPolicyRows_under :
    loadPolicyRows.under (queryRouting db) = .ok (loadClientPolicy db) :=
  (under_embed readClientPolicy).trans readClientPolicy_under

theorem countReferences_under {poolId : String} :
    (countReferences poolId).under (queryRouting db) =
      .ok (db.ruleSets.rows.countP (·.target = poolId)) :=
  rfl

theorem alone_loaded (k : ClientPolicy →
    Program RoutingRows String (ClientPolicy × Option (String × String))) :
    alone queryRouting savePolicy (loadPolicyRows.bind k) db =
      alone queryRouting savePolicy (k (loadClientPolicy db)) db := by
  rw [alone, under_bind, loadPolicyRows_under]
  rfl

theorem alone_program : alone queryRouting savePolicy edit.program db = edit.run db := by
  cases edit with
  | upsertPool originalId value profiles =>
    refine (alone_loaded _).trans ?_
    simp only [alone, bind_eq, under_bind, under_lift, RoutingEdit.run, upsertTransportPool,
      bind_assoc]
    rfl
  | deletePool id replacement profiles =>
    refine (alone_loaded _).trans ?_
    simp only [RoutingEdit.run, deleteTransportPool]
    split_ifs with hunknown hreferenced
    · rfl
    · have hby : referencedBy (loadClientPolicy db)
          (db.ruleSets.rows.countP (·.target = id)) id = true := hreferenced
      simp only [alone, bind_eq, under_bind, under_lift, countReferences_under, Except.ok_bind, hby,
        if_true, bind_assoc]
      rfl
    · have hby : referencedBy (loadClientPolicy db)
          (db.ruleSets.rows.countP (·.target = id)) id = false := Bool.eq_false_iff.mpr hreferenced
      simp only [alone, bind_eq, under_bind, under_lift, countReferences_under, Except.ok_bind, hby,
        Bool.false_eq_true, if_false, bind_assoc]
      rfl
  | upsertRule originalId value profiles =>
    refine (alone_loaded _).trans ?_
    simp only [alone, bind_eq, under_bind, under_lift, RoutingEdit.run, upsertRoutingPolicy,
      bind_assoc]
    rfl
  | deleteRule id =>
    refine (alone_loaded _).trans ?_
    simp only [RoutingEdit.run, deleteRoutingPolicy]
    split_ifs with hunknown
    · rfl
    · rfl

/-- No edit is lost where each save finds what its edit has read. -/
theorem routing_edits_serial {ι : Type} [DecidableEq ι] {edits : ι → RoutingEdit}
    {c : Sessions ι RoutingRows String (ClientPolicy × Option (String × String)) Database}
    (h : ReflTransGen (Step queryRouting savePolicy (Current queryRouting))
      (start (fun i ↦ (edits i).program) db) c) :
    c.log.Nodup ∧ c.log.foldlM (fun db i ↦ (edits i).run db) db = .ok c.store := by
  refine ⟨log_nodup h, ?_⟩
  have hserial := serial_of_current h
  simp only [serial, alone_program] at hserial
  exact hserial

def openRule (id : String) : RoutingPolicyRule := ⟨id, id, true, 0, "MATCH", "DIRECT"⟩

def ruleStore (ids : List String) : Database :=
  (saveClientPolicy ⟨[], ids.map openRule⟩ none initDb).toOption.getD initDb

def deletions (second : Bool) : RoutingEdit := .deleteRule (if second then "b" else "a")

theorem deletions_in_turn : ∃ c, c.log = [false, true] ∧ ReflTransGen
    (Step queryRouting savePolicy (Current queryRouting))
    (start (fun i ↦ (deletions i).program) (ruleStore ["a", "b"])) c := by
  refine ⟨_, rfl, .head (.answered (i := false) rfl) (.head (.answered (i := false) rfl)
    (.head (.committed (i := false) rfl List.not_mem_nil ?_ rfl)
      (.head (.answered (i := true) rfl) (.head (.answered (i := true) rfl)
        (.head (.committed (i := true) rfl (by decide) ?_ rfl) .refl)))))⟩
  · exact List.forall_mem_cons.mpr ⟨rfl, List.forall_mem_singleton.mpr rfl⟩
  · exact List.forall_mem_cons.mpr ⟨rfl, List.forall_mem_singleton.mpr rfl⟩

theorem routing_edits_serial_deleted : ∃ c : Sessions Bool RoutingRows String
    (ClientPolicy × Option (String × String)) Database, c.log = [false, true] ∧
      c.log.Nodup ∧ c.log.foldlM (fun db i ↦ (deletions i).run db) (ruleStore ["a", "b"]) =
        .ok c.store := by
  obtain ⟨c, hlog, hrun⟩ := deletions_in_turn
  exact ⟨c, hlog, routing_edits_serial hrun⟩

theorem routing_edit_lost : ∃ c : Sessions Bool RoutingRows String
    (ClientPolicy × Option (String × String)) Database,
    ReflTransGen (Step queryRouting savePolicy fun _ _ ↦ True)
      (start (fun i ↦ (deletions i).program) (ruleStore ["a", "b"])) c ∧
    (∀ i, i ∈ c.log) ∧ ∀ order ∈ [[false, true], [true, false]], ∃ db',
      order.foldlM (fun db i ↦ (deletions i).run db) (ruleStore ["a", "b"]) = .ok db' ∧
        loadClientPolicy c.store ≠ loadClientPolicy db' := by
  refine ⟨_, .head (.answered (i := false) rfl) (.head (.answered (i := false) rfl)
    (.head (.answered (i := true) rfl) (.head (.answered (i := true) rfl)
      (.head (.committed (i := false) rfl List.not_mem_nil trivial rfl)
        (.head (.committed (i := true) rfl (by decide) trivial rfl) .refl))))), by decide, ?_⟩
  refine List.forall_mem_cons.mpr ⟨⟨_, rfl, ?_⟩, List.forall_mem_singleton.mpr ⟨_, rfl, ?_⟩⟩
  · decide
  · decide

end StealthHub.Storage

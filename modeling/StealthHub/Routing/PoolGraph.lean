import StealthHub.Data.Depth
import StealthHub.Routing.Validation

set_option autoImplicit false

namespace StealthHub.Routing

open Relation

/-- The search with the set that all its calls share: a pool leaves it on return. Nothing is
returned from deeper than `fuel` calls. -/
def detectCycleWithin (root : String) (pools : List TransportPool) :
    ℕ → String → Finset String → Limited String (Finset String)
  | 0, _, _ => Limited.stuck
  | fuel + 1, current, visiting =>
    match pools.find? fun pool ↦ pool.enabled && pool.id = current with
    | none => return visiting
    | some pool =>
      if pool.id ∈ visiting then throw "transport pool references contain a cycle"
      else do
        let visiting ← pool.children.foldlM (fun visiting child ↦
          if child = root then throw "transport pool references contain a cycle"
          else detectCycleWithin root pools fuel child visiting) (insert pool.id visiting)
        return visiting.erase pool.id

variable {policy : ClientPolicy} {profiles : List ProtocolProfile} {pool : TransportPool}
variable {pools : List TransportPool} {fuel : ℕ} {root current : String} {visiting : Finset String}

theorem find?_mem (h : (pools.find? fun pool ↦ pool.enabled && pool.id = current) = some pool) :
    pool.id ∈ (pools.map (·.id)).toFinset ∧ pool.id = current := by
  have hfound : pool.enabled = true ∧ pool.id = current := by simpa using List.find?_some h
  exact ⟨List.mem_toFinset.mpr (List.mem_map_of_mem (List.mem_of_find?_eq_some h)), hfound.2⟩

theorem foldlM_keep {σ α : Type} {check : α → Except String Unit} {l : List α} {s : σ} :
    l.foldlM (fun s a ↦ (check a).map fun _ ↦ s) s = (l.forM check).map fun _ ↦ s := by
  induction l with
  | nil => rfl
  | cons a rest ih =>
    have hcons : (a :: rest).forM check = (check a >>= fun _ ↦ rest.forM check) := rfl
    rw [List.foldlM_cons, hcons]
    cases check a with
    | error e => rfl
    | ok _ => exact ih

theorem detectCycleWithin_done
    (hfuel : ((pools.map (·.id)).toFinset \ visiting).card < fuel) :
    detectCycleWithin root pools fuel current visiting =
      Limited.done ((detectCycle root pools fuel current visiting).map fun _ ↦ visiting) := by
  induction fuel generalizing current visiting with
  | zero => omega
  | succ fuel ih =>
    rw [detectCycleWithin, detectCycle]
    cases hfind : pools.find? fun pool ↦ pool.enabled && pool.id = current with
    | none => rfl
    | some pool =>
      by_cases hmem : pool.id ∈ visiting
      · simp only [if_pos hmem]
        rfl
      · have hless := Limited.card_unseen_lt (find?_mem hfind).1 hmem hfuel
        have hloop : pool.children.foldlM (fun visiting child ↦
              if child = root then throw "transport pool references contain a cycle"
              else detectCycleWithin root pools fuel child visiting) (insert pool.id visiting) =
            Limited.done ((pool.children.forM fun child ↦
              if child = root then .error "transport pool references contain a cycle"
              else detectCycle root pools fuel child (insert pool.id visiting)).map
                fun _ ↦ insert pool.id visiting) := by
          rw [← foldlM_keep]
          refine Limited.foldlM_done (· = insert pool.id visiting) rfl ?_ ?_
          · rintro child - _ rfl
            split
            · rfl
            · exact ih hless
          · rintro child - _ s' rfl h
            obtain ⟨-, -, hs⟩ := Except.map_eq_ok.mp h
            exact hs.symm
        simp only [if_neg hmem]
        rw [hloop, Limited.done_map, Finset.erase_insert hmem]

theorem detectCycle_acyclic (hacyclic : Acyclic (RefersIn pools))
    (hroot : ReflTransGen (RefersIn pools) root current)
    (hvisiting : ∀ id ∈ visiting, TransGen (RefersIn pools) id current)
    (hfuel : ((pools.map (·.id)).toFinset \ visiting).card < fuel) :
    detectCycle root pools fuel current visiting = .ok () := by
  induction fuel generalizing current visiting with
  | zero => omega
  | succ fuel ih =>
    rw [detectCycle]
    cases hfind : pools.find? fun pool ↦ pool.enabled && pool.id = current with
    | none => rfl
    | some pool =>
      obtain ⟨hnode, hcurrent⟩ := find?_mem hfind
      have hnew : pool.id ∉ visiting := by
        intro hmem
        exact hacyclic current (hvisiting current (hcurrent ▸ hmem))
      have hless := Limited.card_unseen_lt hnode hnew hfuel
      simp only [if_neg hnew]
      refine Except.forM_eq_ok.mpr fun child hchild ↦ ?_
      have hedge : RefersIn pools current child := ⟨pool, hfind, hchild⟩
      have hne : child ≠ root := by
        rintro rfl
        exact hacyclic current (.head' hedge hroot)
      rw [if_neg hne]
      refine ih (hroot.tail hedge) (fun id hid ↦ ?_) hless
      rcases Finset.mem_insert.mp hid with rfl | hid
      · exact hcurrent ▸ .single hedge
      · exact (hvisiting id hid).tail hedge

theorem refers_iff (hids : (policy.pools.map (·.id)).Nodup) {a b : String} :
    policy.Refers a b ↔ RefersIn policy.pools a b := by
  constructor
  · rintro ⟨pool, hpool, rfl, hb⟩
    exact ⟨pool, find?_enabled hids hpool, hb⟩
  · rintro ⟨pool, hfind, hb⟩
    have hfound : pool.enabled = true ∧ pool.id = a := by simpa using List.find?_some hfind
    exact ⟨pool, mem_enabledPools.mpr ⟨List.mem_of_find?_eq_some hfind, hfound.1⟩, hfound.2, hb⟩

/-- The searches from all enabled pools succeed exactly if the pools refer to each other without
a cycle, and each search ends, whatever the pools are. -/
theorem pool_graph_exact (hids : (policy.pools.map (·.id)).Nodup) :
    ((∀ pool ∈ policy.enabledPools,
        detectCycle pool.id policy.pools (policy.pools.length + 1) pool.id ∅ = .ok ()) ↔
      Acyclic policy.Refers) ∧
    ∀ pools root current visiting,
      detectCycleWithin root pools (pools.length + 1) current visiting =
        Limited.done ((detectCycle root pools (pools.length + 1) current visiting).map
          fun _ ↦ visiting) := by
  have hcard (pools : List TransportPool) (visiting : Finset String) :
      ((pools.map (·.id)).toFinset \ visiting).card < pools.length + 1 := by
    have hsub := Finset.card_le_card (Finset.sdiff_subset (s := (pools.map (·.id)).toFinset)
      (t := visiting))
    have hle := List.toFinset_card_le (pools.map (·.id))
    rw [List.length_map] at hle
    omega
  refine ⟨⟨fun hsearch a hcycle ↦ ?_, fun hacyclic pool _ ↦ ?_⟩,
    fun pools root current visiting ↦ detectCycleWithin_done (hcard pools visiting)⟩
  · obtain ⟨b, ⟨pool, hpool, rfl, -⟩, -⟩ := TransGen.head'_iff.mp hcycle
    exact detectCycle_ok (hsearch pool hpool) (TransGen.mono (fun _ _ ↦ (refers_iff hids).mp) _ _
      hcycle)
  · have hacyclic' : Acyclic (RefersIn policy.pools) :=
      hacyclic.mono fun a b h ↦ (refers_iff hids).mpr h
    exact detectCycle_acyclic hacyclic' .refl (by simp) (hcard _ _)

def poolOver (id : String) (members : List PoolMember) (fallbackPool : Option String) :
    TransportPool :=
  ⟨id, id, .select, true, members, none, none, none, none, none, true, none, fallbackPool, 0, none⟩

theorem pool_graph_exact_diamond : Acyclic (ClientPolicy.Refers
    ⟨[poolOver "a" [.pool "b", .pool "c"] none, poolOver "b" [.pool "d"] none,
      poolOver "c" [.direct] (some "d"), poolOver "d" [.direct] none], []⟩) := by
  refine (pool_graph_exact ?_).1.mp ?_
  · decide
  · decide

end StealthHub.Routing

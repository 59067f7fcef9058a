import MassDeployment.Agent.Pools
import MassDeployment.Controller.Walk
import MassDeployment.Lib.Wp

set_option autoImplicit false

/-! # Whose pool is whose (`stats.ts`, `placements.ts`, `ingest.ts`)

A heartbeat lists the pools that answered. Two readers take the list apart, the page with the usage
of the nodes and the check of a quota against the capacity of its pool, and both go by position:
the first entry is the fast pool, the second the cold one. A list whose first query failed starts
with the cold pool.
-/

namespace MassDeployment

open Js Prog

/-! ## The usage of the nodes -/

structure NodeUsage where
  nodeId : Nat
  name : String
  nodeAlias : Option String
  online : Bool
  coldBackend : ColdBackend
  coldOwnerName : Option String
  fastUsed : Option Number
  fastQuota : Option Number
  coldUsed : Option Number
  coldQuota : Option Number

/-- The number under a key. -/
def figure (k : String) (p : Json) : Option Number := (Value.field k p).asNumber

/-- Parse a node's pools, keeping the well-formed entries. -/
def parsePools (raw : JsonText) : List Json :=
  match raw.parse with
  | some (.arr items) => items.filter fun p => (figure "alloc" p).isSome && (figure "size" p).isSome
  | _ => []

/-- The usage of one node; the cold pool of an SMB node is on its owner. -/
def Db.nodeUsage (d : Db) (r : NodeRow) : NodeUsage :=
  let pools := parsePools r.pools
  let isSmb := decide (r.coldBackend = .smb)
  let fast := pools[0]?
  let cold := if isSmb then none else pools[1]?
  { nodeId := r.id, name := r.name, nodeAlias := r.nodeAlias, online := r.online
    coldBackend := r.coldBackend
    coldOwnerName := if isSmb then
      (r.coldOwnerNodeId.bind d.nodes.get).map NodeRow.name else none
    fastUsed := fast.bind (figure "alloc"), fastQuota := fast.bind (figure "size")
    coldUsed := cold.bind (figure "alloc"), coldQuota := cold.bind (figure "size") }

def Db.buildNodeUsage (d : Db) : List NodeUsage :=
  (orderBy NodeRow.name d.nodes.rows).map d.nodeUsage

/-! ## What a heartbeat leaves in the row of its node -/

/-- The node keeps its key and its stored pools. -/
def KeepsPools (node : String) (s s' : Controller) : Prop :=
  (s'.db.node node).map (fun r => (r.id, r.pools)) = (s.db.node node).map fun r => (r.id, r.pools)

instance (node : String) : IsPreorder Controller (KeepsPools node) where
  refl _ := rfl
  trans _ _ _ h h' := Eq.trans h' h

theorem KeepsPools.of_nodes {node : String} {s s' : Controller} (h : s'.db.nodes = s.db.nodes) :
    KeepsPools node s s' := by
  rw [KeepsPools, Db.node, Db.node, h]

theorem keepsPools_ingest (node : String) : IngestWalk (KeepsPools node) where
  lists _ h s := .of_nodes (h s.db).1
  emit _ _ _ := .of_nodes rfl
  alertState _ _ _ := .of_nodes rfl
  updateNode name f h _ hf s := by
    have hnode := node_update (fun n => n.name == name) f (keeps_node _ f h) (fun r => (h r).2) s node
    refine (congrArg (Option.map fun r : NodeRow => (r.id, r.pools)) hnode).trans ?_
    rw [Option.map_map]
    refine congrFun (congrArg _ (funext fun r => ?_)) _
    show ((if r.name == name then f r else r).id, (if r.name == name then f r else r).pools) = _
    split
    · rw [(h r).1, hf]
    · rfl
  updatePlacements _ _ _ _ _ _ _ := .of_nodes rfl

/-- After a heartbeat the row of its node has the pools the heartbeat lists, none where it lists
none. -/
theorem pools_ingestTelemetry {node : String} {n : NodeRow} {s : Controller}
    {fields : List (String × Json)} {pools : List Json} (hrow : s.db.node node = some n)
    (hpools : Value.orElse (fields.lookup "pools") (some (.arr [])) = some (.arr pools)) :
    ∃ n', ((ingestTelemetry node (.obj fields)).after s).db.node node = some n' ∧ n'.id = n.id ∧
      n'.pools = .text (.arr pools) := by
  have hrest := walk_ingestTelemetry_rest (keepsPools_ingest node) node (.obj fields) s
  have hstore := node_update (fun r => r.name == node)
    (fun r =>
      { r with
        pools := stringify ((Value.field "pools" (.obj fields)).orElse (some (.arr [])))
        lastSeen := some s.now })
    (keeps_node _ _ fun _ => ⟨rfl, rfl⟩) (fun _ => rfl) s node
  have hname : (n.name == node) = true := (Table.find_some hrow).2
  rw [hrow, Option.map_some, if_pos hname] at hstore
  have hafter := Eq.trans hrest (congrArg (Option.map fun r : NodeRow => (r.id, r.pools)) hstore)
  obtain ⟨n', hn', he⟩ := Option.map_eq_some_iff.mp hafter
  refine ⟨n', hn', congrArg Prod.fst he, (congrArg Prod.snd he).trans ?_⟩
  show stringify (Value.orElse (fields.lookup "pools") _) = _
  rw [hpools]
  rfl

/-! ## The check of a quota against its pool -/

/-- A write that may be asked for draws nothing and does not fail. -/
theorem wp_writeColumn {α : Type} (o : Option α) (placementId : Nat)
    (f : α → PlacementRow → PlacementRow)
    (h : ∀ a r, (f a r).id = r.id ∧ (f a r).labId = r.labId ∧ (f a r).nodeId = r.nodeId ∧
      (f a r).sshPort = r.sshPort) {Q : PUnit → Controller → Prop}
    {E : Error → Controller → Prop} {s : Controller} (hQ : ∀ s', s'.draws = s.draws → Q ⟨⟩ s') :
    wp (o.forM fun a => updatePlacement placementId (f a) (h a)) Q E s := by
  cases o with
  | none => exact hQ s rfl
  | some a => exact hQ _ rfl

/-- A task that is not queued has its id drawn all the same. -/
theorem wp_enqueueTask_draws (node : String) (action : Action) (params : Params)
    (requestedBy : Option String) (s : Controller) :
    wp (enqueueTask node action params requestedBy) (fun _ _ => True)
      (fun _ s' => s'.draws = s.draws + 1) s := by
  unfold wp enqueueTask
  dsimp only
  split
  · rename_i h
    split at h <;> cases h
    trivial
  · rename_i h
    split at h <;> cases h
    rfl

/-- A live change of quotas is refused on the spot exactly where one of them exceeds the capacity
that is read for its pool. -/
theorem updatePlacementQuota_refused_iff {s : Controller} {placementId : Nat} {p : Placement}
    (hp : s.db.getPlacement placementId = some p) (fast : Option Int) (cold : Option (Option Int))
    (actor : Option String) :
    (∃ e, (updatePlacementQuota placementId fast cold actor).run s = (.error e, s)) ↔
      exceeds fast (s.db.nodePoolCapacityBytes p.nodeId).1 = true ∨
        exceeds cold.join (s.db.nodePoolCapacityBytes p.nodeId).2 = true := by
  unfold updatePlacementQuota
  simp only [Op.query, run_read_bind, hp]
  by_cases hfast : exceeds fast (s.db.nodePoolCapacityBytes p.nodeId).1 = true
  · simp only [hfast, if_true, true_or, iff_true]
    exact ⟨_, rfl⟩
  · by_cases hcold : exceeds cold.join (s.db.nodePoolCapacityBytes p.nodeId).2 = true
    · simp only [hfast, hcold, if_true, or_true, iff_true]
      exact ⟨_, rfl⟩
    · simp only [hfast, hcold, or_self, iff_false, if_false, Bool.false_eq_true]
      rintro ⟨e, hrun⟩
      -- what comes after the checks fails only once it has drawn a task id
      refine Nat.succ_ne_self s.draws ((wp_of_error (Q := fun _ _ => True)
        (E := fun _ s' => s'.draws = s.draws + 1) hrun).mp ?_).symm
      refine wp_bind .. |>.mpr (wp_writeColumn _ _ _ _ fun s₁ h₁ => ?_)
      refine wp_bind .. |>.mpr (wp_writeColumn _ _ _ _ fun s₂ h₂ => ?_)
      have h₃ : ((touch placementId).after s₂).draws = s.draws := h₂.trans h₁
      refine wp_bind .. |>.mpr ?_
      show wp _ _ _ ((touch placementId).after s₂)
      refine wp_bind .. |>.mpr (wp_mono (wp_enqueueTask_draws _ _ _ _ _) ?_ fun _ _ h => ?_)
      · exact fun _ _ _ => trivial
      · rw [h, h₃]

/-! ## Reading the report -/

open Agent in
/-- Each reader has the figures of the two pools under their own names: the capacities, the usage of
the node (which leaves the cold pool of an SMB node out), and the check of a quota. -/
structure PoolsRight (d : Doubles) (s : Controller) (nodeId : Nat) (fast slow : Option PoolInfo) :
    Prop where
  capacity : s.db.nodePoolCapacityBytes nodeId =
    (fast.map fun p => d.double p.size, slow.map fun p => d.double p.size)
  listed : ∃ u ∈ s.db.buildNodeUsage, u.nodeId = nodeId
  usage : ∀ u ∈ s.db.buildNodeUsage, u.nodeId = nodeId →
    u.fastUsed = (fast.map fun p => d.double p.alloc) ∧
    u.fastQuota = (fast.map fun p => d.double p.size) ∧
    u.coldUsed = (if u.coldBackend = .smb then none else slow.map fun p => d.double p.alloc) ∧
    u.coldQuota = (if u.coldBackend = .smb then none else slow.map fun p => d.double p.size)
  quota : ∀ placementId p fastQuota coldQuota actor, s.db.getPlacement placementId = some p →
    p.nodeId = nodeId →
    ((∃ e, (updatePlacementQuota placementId fastQuota coldQuota actor).run s = (.error e, s)) ↔
      exceeds fastQuota (fast.map fun p => d.double p.size) = true ∨
        exceeds coldQuota.join (slow.map fun p => d.double p.size) = true)

section

open Agent

variable {d : Doubles} {s : Controller} {node : String} {n : NodeRow}

/-- Every entry of a report is well formed. -/
theorem parsePools_report (pools : List PoolInfo) :
    parsePools (.text (.arr (pools.map (PoolInfo.json d)))) = pools.map (PoolInfo.json d) := by
  show List.filter _ _ = _
  rw [List.filter_eq_self]
  intro j hj
  obtain ⟨p, -, rfl⟩ := List.mem_map.mp hj
  rfl

theorem nodePoolCapacityBytes_report {pools : List Json} (hrow : s.db.node node = some n)
    (hpools : n.pools = .text (.arr pools)) :
    s.db.nodePoolCapacityBytes n.id = (poolSize pools[0]?, poolSize pools[1]?) := by
  have hget : s.db.nodes.get n.id = some n := Table.get_eq_some.mpr ⟨(Table.find_some hrow).1, rfl⟩
  rw [Db.nodePoolCapacityBytes, hget, Option.bind_some, hpools]
  rfl

/-- The entry of a node in the usage is the one its row makes. -/
theorem mem_buildNodeUsage (hrow : s.db.node node = some n) :
    s.db.nodeUsage n ∈ s.db.buildNodeUsage ∧
      ∀ u ∈ s.db.buildNodeUsage, u.nodeId = n.id → u = s.db.nodeUsage n := by
  have hmem := (Table.find_some hrow).1
  refine ⟨List.mem_map_of_mem ((orderBy_perm _ _).mem_iff.mpr hmem), fun u hu hid => ?_⟩
  obtain ⟨r, hr, rfl⟩ := List.mem_map.mp hu
  rw [s.db.nodes.eq_of_id (mem_orderBy hr) hmem hid]

/-- **The readers are right unless only the cold pool answered.** A node's row holds the report of
two queries; the readers attribute its figures to the right pools exactly unless the first query
failed and the second did not. -/
theorem poolsRight_report_iff {fast slow : Option PoolInfo} (hrow : s.db.node node = some n)
    (hpools : n.pools = .text (.arr ((fast.toList ++ slow.toList).map (PoolInfo.json d)))) :
    PoolsRight d s n.id fast slow ↔ ¬ (fast = none ∧ slow ≠ none) := by
  have hcapacity := nodePoolCapacityBytes_report hrow hpools
  obtain ⟨hlisted, honly⟩ := mem_buildNodeUsage hrow
  have hparse : parsePools n.pools = (fast.toList ++ slow.toList).map (PoolInfo.json d) := by
    rw [hpools, parsePools_report]
  constructor
  · rintro hright ⟨rfl, hslow⟩
    obtain ⟨p, rfl⟩ := Option.ne_none_iff_exists'.mp hslow
    -- the capacity of the cold pool is read as that of the fast one
    have hfirst := congrArg Prod.fst (hcapacity.symm.trans hright.capacity)
    cases hfirst
  · intro hno
    have hpair : s.db.nodePoolCapacityBytes n.id =
        (fast.map fun p => d.double p.size, slow.map fun p => d.double p.size) := by
      rw [hcapacity]
      cases fast with
      | none =>
          obtain rfl : slow = none := by
            by_contra hslow
            exact hno ⟨rfl, hslow⟩
          rfl
      | some f => cases slow <;> rfl
    refine ⟨hpair, ⟨_, hlisted, rfl⟩, fun u hu hid => ?_, fun id p fq cq actor hp hpn => ?_⟩
    · rw [honly u hu hid]
      simp only [Db.nodeUsage, hparse]
      cases fast with
      | none =>
          obtain rfl : slow = none := by
            by_contra hslow
            exact hno ⟨rfl, hslow⟩
          cases n.coldBackend <;> exact ⟨rfl, rfl, rfl, rfl⟩
      | some f => cases slow <;> cases n.coldBackend <;> exact ⟨rfl, rfl, rfl, rfl⟩
    · rw [updatePlacementQuota_refused_iff hp, hpn, hpair]

/-- **Pool figures belong to the right pool unless only the cold pool answered.** Whatever the
configuration of an agent, the outcome of its queries and the rest of its heartbeat: after the
heartbeat was ingested the readers attribute the figures of the two pools to the right pools
exactly unless the query of the fast pool failed and that of the cold pool did not. -/
theorem poolsRight_iff {py : PyText} {cfg : PoolConfig} {zpoolList : String → CommandResult}
    {fast slow : Option PoolInfo} {pools : List PoolInfo} {others : List (String × PyValue)}
    {fields : List (String × Json)} (hrow : s.db.node node = some n)
    (hqueried : py.queried zpoolList cfg = .ok (fast, slow))
    (hpools : py.pools zpoolList cfg = .ok pools)
    (hframe : PyValue.parsedFields d (heartbeat pools others) = some fields) :
    PoolsRight d ((ingestTelemetry node (.obj fields)).after s) n.id fast slow ↔
      ¬ (fast = none ∧ slow ≠ none) := by
  have hlist : Value.orElse (fields.lookup "pools") (some (.arr [])) =
      some (.arr (pools.map (PoolInfo.json d))) := by
    rw [heartbeat_pools hframe]
    rfl
  obtain ⟨n', hn', hid, hstored⟩ := pools_ingestTelemetry hrow hlist
  rw [py.pools_eq, hqueried] at hpools
  cases hpools
  rw [← hid]
  exact poolsRight_report_iff hn' hstored

/-- A heartbeat whose query does not parse says so instead of the pools, and the readers have no
figures of either. -/
theorem poolsRight_failed {py : PyText} {cfg : PoolConfig} {zpoolList : String → CommandResult}
    {e : String} {others : List (String × PyValue)} {fields : List (String × Json)}
    (hrow : s.db.node node = some n) (hpools : py.pools zpoolList cfg = .error e)
    (hframe : PyValue.parsedFields d (heartbeatPayload py zpoolList cfg others) = some fields) :
    PoolsRight d ((ingestTelemetry node (.obj fields)).after s) n.id none none := by
  have hlist : Value.orElse (fields.lookup "pools") (some (.arr [])) = some (.arr []) := by
    rw [heartbeatPayload, hpools] at hframe
    cases hframe
    rfl
  obtain ⟨n', hn', hid, hstored⟩ := pools_ingestTelemetry hrow hlist
  rw [← hid]
  exact (@poolsRight_report_iff _ _ _ _ none none hn' hstored).mpr (by simp)

end

/-! ## A node with two pools -/

open Agent

/-- Text functions for decimal figures. -/
def decimalText : PyText where
  isSpace c := c = ' '
  int text :=
    if text.toList.all Char.isDigit then some (Nat.ofDigitChars 10 text.toList 0 : ℕ) else none

/-- A node with a pool for each tier. -/
def twoPools : PoolConfig := ⟨"tank", "bulk", true⟩

/-- The answers of `zpool list`, where the fast pool may not answer. -/
def zpoolAnswers (fastOk : Bool) (pool : String) : CommandResult :=
  if pool = "tank" then ⟨fastOk, "tank 5 2 3"⟩ else ⟨true, "bulk 9 1 8"⟩

/-- The fields of the heartbeat as the controller reads them. -/
def poolFields (pools : List PoolInfo) : List (String × Json) :=
  (PyValue.parsedFields .all (heartbeat pools [])).getD []

/-- A controller that knows the node. -/
def poolNode : Controller := Run.run step (.init Host.plain) [.provisionNode "n" none]

/-- Where both pools answer, both are read. -/
theorem poolsRight_both :
    PoolsRight .all
      ((ingestTelemetry "n"
        (.obj (poolFields [⟨"tank", 5, 2, 3⟩, ⟨"bulk", 9, 1, 8⟩]))).after poolNode) 1
      (some ⟨"tank", 5, 2, 3⟩) (some ⟨"bulk", 9, 1, 8⟩) :=
  (@poolsRight_iff .all poolNode "n" _ decimalText twoPools (zpoolAnswers true)
    (some ⟨"tank", 5, 2, 3⟩) (some ⟨"bulk", 9, 1, 8⟩) [⟨"tank", 5, 2, 3⟩, ⟨"bulk", 9, 1, 8⟩] []
    (poolFields [⟨"tank", 5, 2, 3⟩, ⟨"bulk", 9, 1, 8⟩]) rfl (by decide +kernel)
    (by decide +kernel) rfl).mpr (by simp)

/-- Where only the cold pool answers, its figures are read as those of the fast pool. -/
theorem pools_misread :
    decimalText.queried (zpoolAnswers false) twoPools = .ok (none, some ⟨"bulk", 9, 1, 8⟩) ∧
    decimalText.pools (zpoolAnswers false) twoPools = .ok [⟨"bulk", 9, 1, 8⟩] ∧
    PyValue.parsedFields .all (heartbeat [⟨"bulk", 9, 1, 8⟩] []) =
      some (poolFields [⟨"bulk", 9, 1, 8⟩]) ∧
    ((ingestTelemetry "n" (.obj (poolFields [⟨"bulk", 9, 1, 8⟩]))).after
      poolNode).db.nodePoolCapacityBytes 1 = (some 9, none) ∧
    (((ingestTelemetry "n" (.obj (poolFields [⟨"bulk", 9, 1, 8⟩]))).after
      poolNode).db.buildNodeUsage.map fun u => (u.fastUsed, u.coldUsed)) = [(some 1, none)] :=
  ⟨by decide +kernel, by decide +kernel, rfl, by decide +kernel, by decide +kernel⟩

end MassDeployment

import MassDeployment.Agent.Capabilities
import MassDeployment.Controller.Walk

set_option autoImplicit false

/-! # Scrubs (`maintenance.ts`, `settings/actions.ts`)

The scheduler and the button of the settings page ask the stored capabilities of every online
node for a `zfs` flag. The capabilities come from the agent, which reports under `storage`,
`runtime`, `nvidia` and `health`.
-/

namespace MassDeployment

open Js Prog

/-! ## The scheduler -/

/-- Queue a scrub and note when. -/
def startScrub (name : String) (actor : Option String) : Op Unit := do
  let _ ← enqueueTask name .nodeScrub [] actor
  let now ← Op.now
  updateNode name fun n => { n with lastScrub := some now }

/-- One turn of the scheduler; the name where a scrub was scheduled. -/
def scrubIfDue (now : Nat) (intervalMs : Number) (n : NodeRow) : Op (Option String) := do
  let caps := n.capabilities.parse.getD (.obj [])
  let zfs ← Op.lift (Value.get (some caps) "zfs")
  if !zfs.truthy then return none
  else if n.lastScrub.any fun (last : Nat) => last ≠ 0 ∧ Number.lt ((now - last : Int) : Number) intervalMs then
    return none
  else
    startScrub n.name (some "scrub-scheduler")
    return some n.name

/-- Enqueue a scrub to every online ZFS node whose last one is old enough, in the configured hour.
An invalid timezone, for which there is no hour, does not hold scrubs back. -/
def scheduleScrubs (hourInTimezone : Nat → String → Option Nat) : Op (List String) := do
  let s ← .read id
  if !s.settings.scrubEnabled then return []
  else if (hourInTimezone s.now s.settings.scrubTimezone).any fun (hour : Nat) =>
      (hour : Number) ≠ s.settings.scrubHour then return []
  else
    let intervalMs := (s.settings.scrubIntervalDays.mul 86400).mul 1000
    let nodes ← Op.query fun d => d.nodes.select NodeRow.online
    let scheduled ← nodes.mapM (scrubIfDue s.now intervalMs)
    return scheduled.filterMap id

/-! ## The button -/

/-- One turn of the button's loop. -/
def scrubNow (actor : Option String) (n : NodeRow) : Op Bool := do
  let zfs := match n.capabilities with
    | .null | .malformed => false
    | .text j =>
      match Value.get (some j) "zfs" with
      | .ok v => v.truthy
      | .error _ => false
  if !zfs then return false
  else
    startScrub n.name actor
    return true

/-- Start a scrub on every online ZFS node; the number of nodes goes into the page's message. -/
def scrubNowAction (actor : Option String) : Op Nat := do
  let nodes ← Op.query fun d => d.nodes.select NodeRow.online
  let started ← nodes.mapM (scrubNow actor)
  return started.count true

/-! ## Where the capabilities come from -/

/-- The report of a node is stored as it came. -/
theorem storeCapabilities_node (node : String) (report : Json) (s : Controller) :
    (((storeCapabilities node (some report)).after s).db.node node).map NodeRow.capabilities =
      (s.db.node node).map fun _ => .text report := by
  have hnode := node_update (fun n => n.name == node)
    (fun n => { n with capabilities := stringify (some report), lastSeen := some s.now })
    (keeps_node _ _ fun _ => ⟨rfl, rfl⟩) (fun _ => rfl) s node
  refine (congrArg (Option.map NodeRow.capabilities) hnode).trans ?_
  cases hrow : s.db.node node with
  | none => rfl
  | some n =>
      have hname : (n.name == node) = true := (Table.find_some hrow).2
      simp only [Option.map_some, hname, if_true]
      rfl

/-- The result of a check is the report. -/
theorem check_stores {node : String} {frame : ResultFrame} {t : TaskRow} {s : Controller}
    {labName : Value} {fields : List (String × Json)} (hlab : resultLab frame t = .ok labName)
    (hok : frame.ok = true) (ht : t.action = .nodeCheck) (hr : frame.result = some (.obj fields)) :
    (((applyLifecycle node frame t).after s).db.node node).map NodeRow.capabilities =
      (s.db.node node).map fun _ => .text (.obj fields) := by
  have hrun : applyLifecycle node frame t = Op.lift (resultLab frame t) >>= fun _ =>
      storeCapabilities node frame.result := by
    simp [applyLifecycle, hok, ht, hr, Value.truthy]
  rw [hrun, hlab, hr]
  exact storeCapabilities_node node (.obj fields) s

/-- The result of a repair holds it under `health`. -/
theorem repair_stores {node : String} {frame : ResultFrame} {t : TaskRow} {s : Controller}
    {labName : Value} {fields : List (String × Json)} (hlab : resultLab frame t = .ok labName)
    (hok : frame.ok = true) (ht : t.action = .nodeRepair)
    (hr : frame.result.getOpt "health" = some (.obj fields)) :
    (((applyLifecycle node frame t).after s).db.node node).map NodeRow.capabilities =
      (s.db.node node).map fun _ => .text (.obj fields) := by
  have hrun : applyLifecycle node frame t = Op.lift (resultLab frame t) >>= fun _ =>
      storeCapabilities node (frame.result.getOpt "health") := by
    simp [applyLifecycle, hok, ht, hr, Value.truthy]
  rw [hrun, hlab, hr]
  exact storeCapabilities_node node (.obj fields) s

/-! ## What the readers find -/

/-- No key of an agent's report is `zfs`. -/
theorem report_zfs {d : Agent.Doubles} {c : Agent.Capabilities} {fields : List (String × Json)}
    (h : Agent.PyValue.parsedFields d c.toDict = some fields) :
    Value.get (some (.obj fields)) "zfs" = .ok none := by
  have hkeys : fields.map Prod.fst = ["runtime", "nvidia", "storage", "health"] :=
    Agent.keys_parsedFields d h
  have hnone : fields.lookup "zfs" = none := by
    rw [List.lookup_eq_none_iff]
    intro kv hkv
    have hmem : kv.1 ∈ fields.map Prod.fst := List.mem_map_of_mem hkv
    rw [hkeys] at hmem
    refine bne_iff_ne.mpr fun hzfs => ?_
    rw [← hzfs] at hmem
    simp at hmem
  show Except.ok (fields.lookup "zfs") = _
  rw [hnone]

/-- The scrubs queued for a node. -/
def Controller.scrubs (s : Controller) (name : String) : Nat :=
  s.issued.countP fun e => e.1 == name && e.2.action == .nodeScrub

/-- As many scrubs were queued for the node. -/
def SameScrubs (name : String) (s s' : Controller) : Prop := s'.scrubs name = s.scrubs name

instance (name : String) : IsPreorder Controller (SameScrubs name) where
  refl _ := rfl
  trans _ _ _ h h' := Eq.trans h' h

/-- A scrub of another node. -/
theorem sameScrubs_startScrub {name other : String} (hne : other ≠ name) (actor : Option String) :
    Respects (SameScrubs name) (startScrub other actor) := by
  refine .bind (fun s => ?_) fun _ => .bind (.read _) fun _ => .write fun _ => rfl
  rcases enqueueTask_run other .nodeScrub [] actor s with
    ⟨T, s', -, hrun, -, -, -, hissued, -⟩ | ⟨e, s', -, hrun, -, hissued⟩
  · rw [hrun]
    show s'.issued.countP _ = s.issued.countP _
    rw [hissued, List.countP_cons_of_neg (by simp [hne])]
  · rw [hrun]
    show s'.issued.countP _ = s.issued.countP _
    rw [hissued]

section

variable {s : Controller} {name : String} {n : NodeRow} {fields : List (String × Json)}
  (hrow : s.db.node name = some n) (hstored : n.capabilities = .text (.obj fields))
  (hzfs : Value.get (some (.obj fields)) "zfs" = .ok none)

include hrow

/-- A row that is not the node's has another name. -/
theorem name_of_ne {r : NodeRow} (hr : r ∈ s.db.nodes.rows) (hne : r ≠ n) : r.name ≠ name := by
  obtain ⟨hmem, hname⟩ := Table.find_some hrow
  rintro rfl
  exact hne (s.db.nodes.eq_of_clash hr hmem (show r.name = n.name by simpa using Eq.symm (beq_iff_eq.mp hname)))

include hstored hzfs

/-- The scheduler passes a node by whose report has no flag. -/
theorem sameScrubs_scheduleScrubs (hourInTimezone : Nat → String → Option Nat) :
    ((scheduleScrubs hourInTimezone).after s).scrubs name = s.scrubs name := by
  have turn : ∀ intervalMs r, r ∈ s.db.nodes.select NodeRow.online →
      Respects (SameScrubs name) (scrubIfDue s.now intervalMs r) := by
    intro intervalMs r hr
    by_cases hrn : r = n
    · have hpass : scrubIfDue s.now intervalMs r = pure none := by
        subst hrn
        simp only [scrubIfDue, hstored, JsonText.parse, Option.getD_some, hzfs, Op.lift]
        rfl
      rw [hpass]
      exact .pure _
    · refine .bind (respects_lift _) fun zfs => .ite (fun _ => .pure _) fun _ =>
        .ite (fun _ => .pure _) fun _ => .bind (sameScrubs_startScrub ?_ _) fun _ => .pure _
      exact name_of_ne hrow (Table.mem_select.mp hr).1 hrn
  show SameScrubs name s ((scheduleScrubs hourInTimezone).run s).2
  unfold scheduleScrubs
  rw [run_read_bind]
  refine Respects.ite_at (fun _ => refl_of _ s) fun _ =>
    Respects.ite_at (fun _ => refl_of _ s) fun _ => ?_
  exact Respects.bind (.mapM _ (turn _)) (fun _ => .pure _) s

/-- And so does the button. -/
theorem sameScrubs_scrubNowAction (actor : Option String) :
    ((scrubNowAction actor).after s).scrubs name = s.scrubs name := by
  have turn : ∀ r, r ∈ s.db.nodes.select NodeRow.online →
      Respects (SameScrubs name) (scrubNow actor r) := by
    intro r hr
    by_cases hrn : r = n
    · have hpass : scrubNow actor r = pure false := by
        subst hrn
        simp only [scrubNow, hstored, hzfs]
        rfl
      rw [hpass]
      exact .pure _
    · refine .ite (fun _ => .pure _) fun _ => .bind (sameScrubs_startScrub ?_ _) fun _ => .pure _
      exact name_of_ne hrow (Table.mem_select.mp hr).1 hrn
  exact Respects.bind (.mapM _ turn) (fun _ => .pure _) s

end

/-! ## Whom the scrubs reach -/

/-- The scheduler should start a scrub of the node now: scrubs are enabled, it is the configured
hour, and the last one is old enough. -/
def ScrubDue (hourInTimezone : Nat → String → Option Nat) (s : Controller) (n : NodeRow) : Prop :=
  s.settings.scrubEnabled = true ∧
  (∀ hour : Nat, hourInTimezone s.now s.settings.scrubTimezone = some hour →
    (hour : Number) = s.settings.scrubHour) ∧
  ∀ last : Nat, n.lastScrub = some last → last ≠ 0 →
    Number.lt ((s.now - last : Int) : Number) ((s.settings.scrubIntervalDays.mul 86400).mul 1000) =
      false

/-- Scrubs reach the node if it is online and has ZFS, and spare it if it has none. -/
structure ScrubsReach (hourInTimezone : Nat → String → Option Nat) (actor : Option String)
    (s : Controller) (name : String) (n : NodeRow) (zfsOk : Bool) : Prop where
  scheduled : n.online = true → zfsOk = true → ScrubDue hourInTimezone s n →
    ((scheduleScrubs hourInTimezone).after s).scrubs name = s.scrubs name + 1 ∧
      (((scheduleScrubs hourInTimezone).after s).db.node name).map NodeRow.lastScrub =
        some (some s.now)
  started : n.online = true → zfsOk = true →
    ((scrubNowAction actor).after s).scrubs name = s.scrubs name + 1
  spared : zfsOk = false →
    ((scheduleScrubs hourInTimezone).after s).scrubs name = s.scrubs name ∧
      ((scrubNowAction actor).after s).scrubs name = s.scrubs name

/-- **Scrubs reach no node.** For a node with the report of its agent, the scheduler and the button
do right by it exactly when it is not an online node with ZFS: the flag they look for is under
`storage`, and under another name, so they start a scrub on no such node. The scheduler by itself
does right by the nodes that are not due. -/
theorem scrubsReach_iff {d : Agent.Doubles} {c : Agent.Capabilities} {s : Controller}
    {name : String} {n : NodeRow} {fields : List (String × Json)}
    (hrow : s.db.node name = some n)
    (hreport : Agent.PyValue.parsedFields d c.toDict = some fields)
    (hstored : n.capabilities = .text (.obj fields))
    (hourInTimezone : Nat → String → Option Nat) (actor : Option String) :
    (ScrubsReach hourInTimezone actor s name n c.storage.zfsOk ↔
      ¬ (n.online = true ∧ c.storage.zfsOk = true)) ∧
    ((n.online = true → c.storage.zfsOk = true → ScrubDue hourInTimezone s n →
        ((scheduleScrubs hourInTimezone).after s).scrubs name = s.scrubs name + 1) ↔
      ¬ (n.online = true ∧ c.storage.zfsOk = true ∧ ScrubDue hourInTimezone s n)) := by
  have hzfs := report_zfs hreport
  have hnow := sameScrubs_scrubNowAction hrow hstored hzfs actor
  have hsame := sameScrubs_scheduleScrubs hrow hstored hzfs hourInTimezone
  constructor
  · constructor
    · rintro h ⟨honline, hok⟩
      have hone := h.started honline hok
      omega
    · intro hno
      exact ⟨fun honline hok => absurd ⟨honline, hok⟩ hno,
        fun honline hok => absurd ⟨honline, hok⟩ hno, fun _ => ⟨hsame, hnow⟩⟩
  · constructor
    · rintro h ⟨honline, hok, hdue⟩
      have hone := h honline hok hdue
      omega
    · exact fun hno honline hok hdue => absurd ⟨honline, hok, hdue⟩ hno

/-- The report of a node without GPUs whose ZFS works, or does not. -/
def cpuReport (zfsOk : Bool) : Agent.Capabilities where
  runtime := ⟨true, "zfs", true, "labs", 100000, 65536, true, true⟩
  nvidia := { gpuCount := 0, nvmlOk := false, loadedDriverVersion := ""
              userspaceDriverVersion := "", cdiOk := true }
  storage := ⟨zfsOk, zfsOk, true, if zfsOk then "local_zfs" else "smb"⟩
  health := ⟨"healthy", []⟩

/-- The report as the controller reads it. -/
def cpuFields (zfsOk : Bool) : List (String × Json) :=
  (Agent.PyValue.parsedFields .all (cpuReport zfsOk).toDict).getD []

/-- A controller with scrubs enabled, to which a node has said hello. -/
def scrubState (zfsOk : Bool) : Controller :=
  Run.run step (.init Host.plain)
    [.configure { scrubEnabled := true }, .provisionNode "n" none,
      .registerNode "n" (.obj (cpuFields zfsOk))]

/-- A node without ZFS gets no scrub, as it should. -/
theorem scrubsReach_smb : ∃ n, (scrubState false).db.node "n" = some n ∧
    ScrubsReach (fun _ _ => some 2) none (scrubState false) "n" n false :=
  ⟨_, rfl, (@scrubsReach_iff .all (cpuReport false) _ _ _ (cpuFields false) rfl rfl rfl _ _).1.mpr
    (by simp [cpuReport])⟩

/-- In the configured hour, a node with ZFS that was never scrubbed gets no scrub, neither from
the scheduler nor from the button. -/
theorem scrub_never_starts :
    (∃ n, (scrubState true).db.node "n" = some n ∧ n.online = true ∧
      n.capabilities = .text (.obj (cpuFields true)) ∧
      Agent.PyValue.parsedFields .all (cpuReport true).toDict = some (cpuFields true) ∧
      ScrubDue (fun _ _ => some 2) (scrubState true) n) ∧
    (cpuReport true).storage.zfsOk = true ∧
    ((scheduleScrubs fun _ _ => some 2).after (scrubState true)).scrubs "n" = 0 ∧
    ((scrubNowAction none).after (scrubState true)).scrubs "n" = 0 := by
  refine ⟨⟨_, rfl, rfl, rfl, rfl, rfl, ?_, nofun⟩, rfl, by decide +kernel, by decide +kernel⟩
  intro hour h
  cases h
  rfl

end MassDeployment

import MassDeployment.Agent.GpuKiller
import MassDeployment.Controller.Accounts

set_option autoImplicit false

/-! # The GPU policy of the nodes (`settings.ts`, `settings/actions.ts`, `gpu/policy.py`)

The policy is a group of settings. Saving it queues a `gpu.policy.update` for every row of `nodes`;
an agent keeps what the last update it executed said, in the memory of its process. Nothing else
carries the policy to a node: no update is queued when a node is provisioned or when its agent says
hello, and the policy is not on the agent's disk.

The system is the settings, the names of the nodes, the updates that are queued or held for each node
and not done with, and the policy of each agent. An execution may take any of the updates of its node,
and may leave it to be executed again: the worker retries a task whose result it could not record.
-/

namespace MassDeployment

open Js

/-! ## The settings -/

/-- The settings `gpu…`. A number that is not finite is stored as `null`. -/
structure GpuSettings where
  gpuEnabled : Bool := false
  gpuUtilThreshold : Option ℚ := some 5
  gpuIdleMinutes : Option ℚ := some 20
  gpuGraceMinutes : Option ℚ := some 10
  gpuImmediate : Bool := false
  gpuWhitelistUsers : String := ""
  gpuWhitelistLabs : String := ""

/-- `s.split(",").map((x) => x.trim()).filter(Boolean)`. -/
def csv (h : Host) (s : String) : List String :=
  (((s.toList.splitOn ',').map String.ofList).map h.trim).filter fun x => x != ""

example : csv .plain "amy,,bob," = ["amy", "bob"] := by decide

/-- `Number(formData.get(k)) || otherwise`. -/
def Form.number (h : Host) (form : Form) (k : String) (otherwise : Number) : Number :=
  let v : Json := match form k with
    | some s => .str s
    | none => .null
  let n := Value.toNumber h.conversions (some v)
  if Value.truthy (some (.num n)) then n else otherwise

/-- A number that went through the settings table. -/
def stored : Number → Option ℚ
  | .fin q => some q
  | .inf _ | .nan => none

/-- What `saveGpuPolicyAction` stores. -/
def savedGpuSettings (h : Host) (form : Form) : GpuSettings where
  gpuEnabled := form "gpuEnabled" = some "on"
  gpuImmediate := form "gpuImmediate" = some "on"
  gpuUtilThreshold := stored (form.number h "gpuUtilThreshold" 5)
  gpuIdleMinutes := stored (form.number h "gpuIdleMinutes" 20)
  gpuGraceMinutes := stored (form.number h "gpuGraceMinutes" 10)
  gpuWhitelistUsers := form.text h "gpuWhitelistUsers"
  gpuWhitelistLabs := form.text h "gpuWhitelistLabs"

/-! ## Updates -/

/-- The params of a `gpu.policy.update`. -/
structure GpuPolicyUpdate where
  enabled : Bool
  utilThreshold : Option ℚ
  idleMinutes : Option ℚ
  graceMinutes : Option ℚ
  immediate : Bool
  whitelistUsers : List String
  whitelistLabs : List String

/-- The GPU policy payload broadcast to agents. -/
def gpuPolicyPayload (h : Host) (g : GpuSettings) : GpuPolicyUpdate where
  enabled := g.gpuEnabled
  utilThreshold := g.gpuUtilThreshold
  idleMinutes := g.gpuIdleMinutes
  graceMinutes := g.gpuGraceMinutes
  immediate := g.gpuImmediate
  whitelistUsers := csv h g.gpuWhitelistUsers
  whitelistLabs := csv h g.gpuWhitelistLabs

/-- `GpuPolicy.from_dict`: a number that is `None` leaves the default. -/
def fromDict (d : GpuPolicyUpdate) : Agent.GpuPolicy :=
  let p : Agent.GpuPolicy := {}
  { enabled := d.enabled
    immediate := d.immediate
    utilThreshold := d.utilThreshold.getD p.utilThreshold
    idleMinutes := d.idleMinutes.getD p.idleMinutes
    graceMinutes := d.graceMinutes.getD p.graceMinutes
    whitelistUsers := d.whitelistUsers
    whitelistLabs := d.whitelistLabs }

/-- The policy has the values of the settings; the whitelists are sets. -/
structure Agrees (h : Host) (p : Agent.GpuPolicy) (g : GpuSettings) : Prop where
  enabled : p.enabled = g.gpuEnabled
  immediate : p.immediate = g.gpuImmediate
  utilThreshold : some p.utilThreshold = g.gpuUtilThreshold
  idleMinutes : some p.idleMinutes = g.gpuIdleMinutes
  graceMinutes : some p.graceMinutes = g.gpuGraceMinutes
  whitelistUsers : ∀ user, user ∈ p.whitelistUsers ↔ user ∈ csv h g.gpuWhitelistUsers
  whitelistLabs : ∀ lab, lab ∈ p.whitelistLabs ↔ lab ∈ csv h g.gpuWhitelistLabs

/-! ## The nodes -/

structure GpuFleet where
  settings : GpuSettings := {}
  /-- `SELECT name FROM nodes`. -/
  nodes : List String := []
  connected : String → Bool := fun _ => false
  /-- The updates a node has yet to be done with, oldest first. -/
  pending : String → List GpuPolicyUpdate := fun _ => []
  /-- `get_policy()`. -/
  policy : String → Agent.GpuPolicy := fun _ => {}

inductive GpuFleetAct where
  | saveGpuPolicyAction (form : Form)
  | provisionNode (name : String)
  | handleHello (node : String)
  | deregisterNode (node : String)
  /-- The agent of the node executes the update at a place of the list; `kept` where it will execute
  it again. -/
  | updatePolicy (node : String) (i : Nat) (kept : Bool)
  | restartAgent (node : String)

namespace GpuFleet

variable (h : Host)

/-- Enqueue the current GPU policy to every known node. -/
def broadcastGpuPolicy (s : GpuFleet) : GpuFleet :=
  { s with pending := fun name =>
      if name ∈ s.nodes then s.pending name ++ [gpuPolicyPayload h s.settings] else s.pending name }

/-- `set_policy`, in the agent of a node. -/
def setPolicy (s : GpuFleet) (node : String) (d : GpuPolicyUpdate) : GpuFleet :=
  { s with policy := Function.update s.policy node (fromDict d) }

def step (s : GpuFleet) : GpuFleetAct → GpuFleet
  | .saveGpuPolicyAction form =>
    broadcastGpuPolicy h { s with settings := savedGpuSettings h form }
  | .provisionNode name =>
    if isValidNodeName name ∧ name ∉ s.nodes then { s with nodes := s.nodes ++ [name] } else s
  | .handleHello node =>
    if node ∈ s.nodes then { s with connected := Function.update s.connected node true } else s
  | .deregisterNode node => { s with connected := Function.update s.connected node false }
  | .updatePolicy node i kept =>
    match (s.pending node)[i]? with
    | none => s
    | some d =>
      let s := s.setPolicy node d
      if kept then s
      else { s with pending := Function.update s.pending node ((s.pending node).eraseIdx i) }
  | .restartAgent node =>
    { s with
      connected := Function.update s.connected node false
      policy := Function.update s.policy node {} }

/-- **The policy in force is the saved one**: of every node that is connected and has no update
pending. -/
def InForce (s : GpuFleet) : Prop :=
  ∀ node, s.connected node = true → s.pending node = [] → Agrees h (s.policy node) s.settings

/-- An update to the saved policy. -/
def Current (s : GpuFleet) (d : GpuPolicyUpdate) : Prop := Agrees h (fromDict d) s.settings

/-- **The steps under which it is.** What is saved has finite numbers; a node is added while the
saved policy is the built-in one, and so is the agent of a node restarted unless it has yet to
execute an update to the saved policy; an agent that executes an outdated update has such an update
to execute later. -/
def Careful (s : GpuFleet) : GpuFleetAct → Prop
  | .saveGpuPolicyAction form =>
    (form.number h "gpuUtilThreshold" 5).isFinite ∧ (form.number h "gpuIdleMinutes" 20).isFinite ∧
      (form.number h "gpuGraceMinutes" 10).isFinite
  | .provisionNode name => isValidNodeName name → name ∉ s.nodes → Agrees h {} s.settings
  | .restartAgent node =>
    node ∈ s.nodes → Agrees h {} s.settings ∨ ∃ d ∈ s.pending node, s.Current h d
  | .updatePolicy node i kept =>
    ∀ d, (s.pending node)[i]? = some d → s.Current h d ∨
      ∃ d' ∈ if kept then s.pending node else (s.pending node).eraseIdx i, s.Current h d'
  | .handleHello _ | .deregisterNode _ => True

end GpuFleet

/-! ## What a save carries -/

theorem stored_of_isFinite {n : Number} (hfin : n.isFinite) (d : ℚ) :
    some ((stored n).getD d) = stored n := by
  cases n with
  | fin q => rfl
  | inf negative => cases hfin
  | nan => cases hfin

/-- Finite numbers reach the agent as they are. -/
theorem agrees_saved {h : Host} {form : Form}
    (hutil : (form.number h "gpuUtilThreshold" 5).isFinite)
    (hidle : (form.number h "gpuIdleMinutes" 20).isFinite)
    (hgrace : (form.number h "gpuGraceMinutes" 10).isFinite) :
    Agrees h (fromDict (gpuPolicyPayload h (savedGpuSettings h form))) (savedGpuSettings h form) where
  enabled := rfl
  immediate := rfl
  utilThreshold := stored_of_isFinite hutil _
  idleMinutes := stored_of_isFinite hidle _
  graceMinutes := stored_of_isFinite hgrace _
  whitelistUsers _ := Iff.rfl
  whitelistLabs _ := Iff.rfl

/-! ## Runs -/

namespace GpuFleet

variable {h : Host}

/-- The saved policy has reached the node, or is on its way to it. -/
def Reached (h : Host) (s : GpuFleet) (node : String) : Prop :=
  Agrees h (s.policy node) s.settings ∨ ∃ d ∈ s.pending node, s.Current h d

/-- What careful steps keep. -/
structure Sound (h : Host) (s : GpuFleet) : Prop where
  reached : ∀ node ∈ s.nodes, s.Reached h node
  /-- An agent that is not known to the controller has its built-in policy. -/
  unknown : ∀ node, node ∉ s.nodes →
    s.connected node = false ∧ s.pending node = [] ∧ s.policy node = {}

theorem Sound.inForce {s : GpuFleet} (hs : s.Sound h) : s.InForce h := by
  intro node hconn hnone
  by_cases hmem : node ∈ s.nodes
  · rcases hs.reached node hmem with hagrees | ⟨d, hd, -⟩
    · exact hagrees
    · rw [hnone] at hd
      cases hd
  · rw [(hs.unknown node hmem).1] at hconn
    cases hconn

/-- A step that changes one known agent. -/
theorem Sound.of_agent {s s' : GpuFleet} (hs : s.Sound h) {node : String} (hmem : node ∈ s.nodes)
    (hnodes : s'.nodes = s.nodes) (hsettings : s'.settings = s.settings)
    (hself : s'.Reached h node)
    (hothers : ∀ other, other ≠ node → s'.connected other = s.connected other ∧
      s'.pending other = s.pending other ∧ s'.policy other = s.policy other) : s'.Sound h where
  reached other hother := by
    by_cases heq : other = node
    · exact heq ▸ hself
    · obtain ⟨-, hpending, hpolicy⟩ := hothers other heq
      have hreached := hs.reached other (hnodes ▸ hother)
      unfold Reached Current at hreached ⊢
      rwa [hpending, hpolicy, hsettings]
  unknown other hother := by
    have hother' : other ∉ s.nodes := hnodes ▸ hother
    have heq : other ≠ node := by
      rintro rfl
      exact hother' hmem
    obtain ⟨hconn, hpending, hpolicy⟩ := hothers other heq
    rw [hconn, hpending, hpolicy]
    exact hs.unknown other hother'

theorem sound_save {s : GpuFleet} {form : Form} (hs : s.Sound h)
    (hcare : s.Careful h (.saveGpuPolicyAction form)) :
    (s.step h (.saveGpuPolicyAction form)).Sound h := by
  obtain ⟨hutil, hidle, hgrace⟩ := hcare
  constructor
  · -- the update at the end of the list of every known node
    intro node hmem
    have hmem : node ∈ s.nodes := hmem
    refine .inr ⟨gpuPolicyPayload h (savedGpuSettings h form), ?_, agrees_saved hutil hidle hgrace⟩
    show _ ∈ if node ∈ s.nodes then _ else _
    rw [if_pos hmem]
    exact List.mem_append_right _ (List.mem_singleton.mpr rfl)
  · intro node hmem
    have hmem : node ∉ s.nodes := hmem
    refine ⟨(hs.unknown node hmem).1, ?_, (hs.unknown node hmem).2.2⟩
    show (if node ∈ s.nodes then _ else _) = _
    rw [if_neg hmem]
    exact (hs.unknown node hmem).2.1

theorem sound_provision {s : GpuFleet} {name : String} (hs : s.Sound h)
    (hcare : s.Careful h (.provisionNode name)) : (s.step h (.provisionNode name)).Sound h := by
  rw [step]
  split
  · rename_i hnew
    constructor
    · intro node hmem
      rcases List.mem_append.mp hmem with hmem | hmem
      · exact hs.reached node hmem
      · -- the new node has the built-in policy
        obtain rfl := List.mem_singleton.mp hmem
        refine .inl ?_
        show Agrees h (s.policy node) s.settings
        rw [(hs.unknown node hnew.2).2.2]
        exact hcare hnew.1 hnew.2
    · intro node hmem
      exact hs.unknown node fun hold => hmem (List.mem_append_left _ hold)
  · exact hs

theorem sound_updatePolicy {s : GpuFleet} {node : String} {i : Nat} {kept : Bool} (hs : s.Sound h)
    (hcare : s.Careful h (.updatePolicy node i kept)) :
    (s.step h (.updatePolicy node i kept)).Sound h := by
  rw [step]
  cases hd : (s.pending node)[i]? with
  | none => exact hs
  | some d =>
    have hmem : node ∈ s.nodes := by
      by_contra hmem
      rw [(hs.unknown node hmem).2.1] at hd
      cases hd
    have hcare := hcare d hd
    cases kept with
    | true =>
      refine hs.of_agent hmem rfl rfl ?_ fun other hne => ⟨rfl, rfl, Function.update_of_ne hne ..⟩
      refine hcare.imp_left fun hcurrent => ?_
      show Agrees h (Function.update s.policy node (fromDict d) node) s.settings
      rwa [Function.update_self]
    | false =>
      refine hs.of_agent hmem rfl rfl ?_ fun other hne =>
        ⟨rfl, Function.update_of_ne hne .., Function.update_of_ne hne ..⟩
      unfold Reached
      show Agrees h (Function.update s.policy node (fromDict d) node) s.settings ∨
        ∃ d' ∈ Function.update s.pending node ((s.pending node).eraseIdx i) node, s.Current h d'
      rwa [Function.update_self, Function.update_self]

theorem sound_restart {s : GpuFleet} {node : String} (hs : s.Sound h)
    (hcare : s.Careful h (.restartAgent node)) : (s.step h (.restartAgent node)).Sound h := by
  by_cases hmem : node ∈ s.nodes
  · refine hs.of_agent hmem rfl rfl ?_ fun other hne =>
      ⟨Function.update_of_ne hne .., rfl, Function.update_of_ne hne ..⟩
    refine (hcare hmem).imp_left fun hdefaults => ?_
    show Agrees h (Function.update s.policy node {} node) s.settings
    rwa [Function.update_self]
  · -- an agent nobody knows has nothing to lose
    obtain ⟨hconn, -, hpolicy⟩ := hs.unknown node hmem
    have hsame : s.step h (.restartAgent node) = s := by
      rw [step, Function.update_eq_self_iff.mpr hconn.symm,
        Function.update_eq_self_iff.mpr hpolicy.symm]
    rw [hsame]
    exact hs

/-- **A careful step keeps it.** -/
theorem sound_step {s : GpuFleet} {act : GpuFleetAct} (hs : s.Sound h) (hcare : s.Careful h act) :
    (s.step h act).Sound h := by
  cases act with
  | saveGpuPolicyAction form => exact sound_save hs hcare
  | provisionNode name => exact sound_provision hs hcare
  | handleHello node =>
    rw [step]
    split
    · rename_i hmem
      exact hs.of_agent hmem rfl rfl (hs.reached node hmem) fun other hne =>
        ⟨Function.update_of_ne hne .., rfl, rfl⟩
    · exact hs
  | deregisterNode node =>
    by_cases hmem : node ∈ s.nodes
    · exact hs.of_agent hmem rfl rfl (hs.reached node hmem) fun other hne =>
        ⟨Function.update_of_ne hne .., rfl, rfl⟩
    · have hsame : s.step h (.deregisterNode node) = s := by
        rw [step, ← (hs.unknown node hmem).1, Function.update_eq_self]
      rw [hsame]
      exact hs
  | updatePolicy node i kept => exact sound_updatePolicy hs hcare
  | restartAgent node => exact sound_restart hs hcare

/-- **The saved policy is in force, in careful runs.** From a controller without nodes, whatever the
order of saves, provisioning, hellos, lost connections, executions and restarts. -/
theorem inForce_of_careful {acts : List GpuFleetAct}
    (hcare : Run.Along (step h) (Careful h) {} acts) : (Run.run (step h) {} acts).InForce h := by
  have hstart : Sound h {} :=
    ⟨fun _ => nofun, fun _ _ => ⟨rfl, rfl, rfl⟩⟩
  exact (Run.invariant (fun _ _ => sound_step) hstart hcare).inForce

/-! ## One node -/

/-- The form with the policy switched on, and nothing else filled in. -/
def switchedOn : Form := fun k => if k = "gpuEnabled" then some "on" else none

/-- The node is provisioned and connects, the policy is saved, and the node executes the update. -/
theorem inForce_of_careful_gpu1 :
    (Run.run (step .plain) {} [.provisionNode "gpu1", .handleHello "gpu1",
      .saveGpuPolicyAction switchedOn, .updatePolicy "gpu1" 0 false]).InForce .plain := by
  refine inForce_of_careful ⟨fun _ _ => ?_, trivial, ⟨rfl, rfl, rfl⟩, ?_, trivial⟩
  · exact ⟨rfl, rfl, rfl, rfl, rfl, fun _ => Iff.rfl, fun _ => Iff.rfl⟩
  · intro d hd
    cases hd
    exact .inl (agrees_saved rfl rfl rfl)

/-- The agent is restarted after that, and connects again: its policy is switched off. -/
theorem restarted_agent_has_defaults :
    ¬ (Run.run (step .plain) {} [.provisionNode "gpu1", .handleHello "gpu1",
      .saveGpuPolicyAction switchedOn, .updatePolicy "gpu1" 0 false, .restartAgent "gpu1",
      .handleHello "gpu1"]).InForce .plain := by
  intro h
  have hagrees := h "gpu1" rfl rfl
  exact absurd hagrees.enabled (by decide)

end GpuFleet

end MassDeployment

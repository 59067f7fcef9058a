import MassDeployment.Agent.Recreate
import MassDeployment.Lib.Run

set_option autoImplicit false

/-! # Which container was patched (`client.py`, `maintenance.py`, `maintenance_state.py`)

The package loop upgrades the container that is under the name of a lab at the time, and then records
the lab as patched. The record goes by the lab. A recreate resets it once the candidate is in place;
a create and a destroy leave it as it is.

The system is one lab on one node: the loop with its three steps, the executions of the tasks that
replace the container, the clock, and restarts of the agent. What the loop upgraded is kept in a
list that the code does not have, and so is how late it recorded that: a record counts from the time
it is made, which is later than the upgrade.
-/

namespace MassDeployment.Agent

open Procedure

/-- Where `_run_due_apt_upgrades` is with the lab: it found the lab due, or it upgraded a container
and has not recorded that yet. -/
inductive LoopPhase where
  | idle | due
  | upgraded (id : Nat) (time : Int)
  deriving DecidableEq, Repr

structure Patching where
  node : Node
  /-- `now_ms()`. -/
  clock : Int
  loop : LoopPhase := .idle
  /-- The successful upgrades: the container, and when. -/
  upgrades : List (Nat × Int) := []
  /-- How much later than its upgrade the last record was made. -/
  lag : Int := 0

/-- `is_due`: never patched, or not within the interval. -/
def isDue (last : Option Int) (intervalS now : Int) : Bool :=
  match last with
  | none => true
  | some last => decide (intervalS * 1000 ≤ now - last)

inductive PatchingAct where
  | tick (ms : Nat)
  /-- The loop comes to the lab. -/
  | dueCheck
  /-- `run_apt_upgrade`; both commands in the container succeed where `ok`. -/
  | upgrade (ok : Bool)
  /-- `record_apt_upgrade`, unless the file cannot be written. -/
  | record (written : Bool)
  | createLab (fate : CreateStep → Fate Extent)
  | recreateContainer (fate : RecreateStep → Fate Extent) (rollback : RollbackStep → Fate Extent)
      (students : List String)
  | destroyLab (fate : DestroyStep → Fate Extent)
  | restart

namespace Patching

variable (lab name : String) (intervalS : Int)

/-- The lab is due. -/
def due (s : Patching) : Bool := isDue (s.node.lastAptUpgrade lab) intervalS s.clock

/-- `run_apt_upgrade`: it runs in the container that is under the name. -/
def upgrade (ok : Bool) (s : Patching) : Patching :=
  match s.node.containers name with
  | some c =>
    if c.running && ok then
      { s with loop := .upgraded c.id s.clock, upgrades := (c.id, s.clock) :: s.upgrades }
    else { s with loop := .idle }
  | none => { s with loop := .idle }

def step (s : Patching) : PatchingAct → Patching
  | .tick ms => { s with clock := s.clock + ms }
  | .dueCheck => if s.loop = .idle && s.due lab intervalS then { s with loop := .due } else s
  | .upgrade ok => if s.loop = .due then s.upgrade name ok else s
  | .record written =>
    match s.loop with
    | .upgraded _ time =>
      { s with
        node := if written then s.node.recordAptUpgrade lab s.clock else s.node
        loop := .idle
        lag := if written then s.clock - time else s.lag }
    | _ => s
  | .createLab fate => { s with node := (Agent.createLab fate name).after s.node }
  | .recreateContainer fate rollback students =>
    { s with node := (Agent.recreateContainer fate rollback lab name students).after s.node }
  | .destroyLab fate => { s with node := (Agent.destroyLab fate name).after s.node }
  | .restart => { s with loop := .idle }

/-- **A lab that is not due was patched**: in the container that is running, and within the
interval. -/
def Patched (s : Patching) : Prop :=
  s.due lab intervalS = false → ∃ c, s.node.containers name = some c ∧ c.running = true ∧
    ∃ t, (c.id, t) ∈ s.upgrades ∧ s.clock - t < intervalS * 1000

end Patching

/-! ## Executions that leave the container as it is -/

/-- A command that did not go through, and did not act. -/
def Idle : Fate Extent → Prop
  | .done => False
  | .fails extent | .dies extent => extent.acted = false

/-- `lab.create` stops before it removed the container. -/
def SparesCreate (fate : CreateStep → Fate Extent) : Prop :=
  Trial fate (fun step f => step = .removeOld → Idle f) False
    [.nodeReady, .datasets, .options, .mounts, .nodeReadyAgain, .image, .removeOld]

/-- The preserved container is renamed and started again. -/
def Restores (rollback : RollbackStep → Fate Extent) : Prop :=
  rollback .renameBack = .done ∧ ¬ Idle (rollback .startBack)

/-- The candidate is removed, and the handler goes on. -/
def Withdraws (rollback : RollbackStep → Fate Extent) : Prop :=
  match rollback .removeCandidate with
  | .done => True
  | .fails extent => extent.acted = true
  | .dies _ => False

/-- Where a recreate may stop with the container running under its name. -/
def SparedAt (fate : RecreateStep → Fate Extent) (rollback : RollbackStep → Fate Extent) :
    RecreateStep → Fate Extent → Prop
  | .options, _ | .mounts, _ | .nodeReady, _ | .image, _ => True
  | .stop, f => Idle f
  | .removeStale, _ => StopIdle fate
  | .rename, f => StopIdle fate ∧ Idle f
  | .prepare _, .fails _ => Restores rollback
  | .run, .fails extent => (extent.acted = true → Withdraws rollback) ∧ Restores rollback
  | .ready, .fails _ => Withdraws rollback ∧ Restores rollback
  | _, _ => False

/-- `container.recreate` stops before it touched the container, or its handlers put it back. -/
def SparesRecreate (fate : RecreateStep → Fate Extent) (rollback : RollbackStep → Fate Extent)
    (n : Node) (name : String) (students : List String) : Prop :=
  Trial (heard fate) (SparedAt fate rollback) False
    (recreateSteps (n.containers name).isSome (n.containers (preserved name)).isSome students)

/-- `container.recreate` gets as far as the reset of the record. -/
def Resets (fate : RecreateStep → Fate Extent) (n : Node) (name : String) (students : List String) :
    Prop :=
  Trial (heard fate) (fun step f => step = .mark ∧ ¬ Idle f) True
    (recreateSteps (n.containers name).isSome (n.containers (preserved name)).isSome students)

namespace Patching

variable (lab name : String) (intervalS : Int)

/-- The clock is in the last part of the interval of a record, as long as the record was late: the
record still counts, and the upgrade does not. -/
def InLag (s : Patching) (clock : Int) : Prop :=
  ∃ last ∈ s.node.lastAptUpgrade lab,
    last + intervalS * 1000 - s.lag ≤ clock ∧ clock < last + intervalS * 1000

instance (s : Patching) (clock : Int) : Decidable (s.InLag lab intervalS clock) :=
  inferInstanceAs (Decidable (∃ last ∈ s.node.lastAptUpgrade lab, _ ∧ _))

/-- **The steps under which the record stays true.** An upgrade is recorded within the interval,
while the container still runs under the name, and the clock does not stop in the lag of a record. A
lab that is not due loses its container only to a recreate that resets the record, at a time when the
reset makes it due. -/
def Careful (s : Patching) : PatchingAct → Prop
  | .tick ms => ¬ s.InLag lab intervalS (s.clock + ms)
  | .record written => written = true → ∀ id time, s.loop = .upgraded id time →
      s.clock - time < intervalS * 1000 ∧ s.node.Runs name id
  | .createLab fate => s.due lab intervalS = true ∨ SparesCreate fate
  | .destroyLab fate => s.due lab intervalS = true ∨ Idle (fate .removeContainer)
  | .recreateContainer fate rollback students =>
    ((s.due lab intervalS = true ∨ Resets fate s.node name students) ∧
        (Resets fate s.node name students → intervalS * 1000 ≤ s.clock)) ∨
      SparesRecreate fate rollback s.node name students
  | _ => True

end Patching

/-! ## What the executions leave -/

section

variable {n : Node} {lab name : String} {P : Node → Prop}

/-- In front of the rest of an execution, a check that spares the container. -/
theorem wp_check_spared {ι : Type} {fate : ι → Fate Extent} {stops : ι → Fate Extent → Prop}
    {ends : Prop} {i : ι} {is : List ι} {e : HandlerError} {k : Unit → Handler Unit} (hP : P n)
    (hk : Trial fate stops ends is → Prog.wp (k ()) (fun _ => P) (fun _ => P) n)
    (h : Trial fate stops ends (i :: is)) :
    Prog.wp (check (fate i) e >>= k) (fun _ => P) (fun _ => P) n := by
  rw [Prog.wp_bind, wp_check]
  cases hf : fate i with
  | done => exact hk ((trial_done hf).mp h)
  | fails extent => exact hP
  | dies extent => exact hP

/-- A removal that does not act leaves everything. -/
theorem wp_remove_idle {f : Fate Extent} (hidle : Idle f) (hP : P n)
    (hthere : (n.containers name).isSome) {k : Unit → Handler Unit} :
    Prog.wp (removeContainer f name >>= k) (fun _ => P) (fun _ => P) n := by
  unfold removeContainer containerExists act
  rw [Prog.wp_bind, Prog.wp_bind, Prog.wp_read, if_pos hthere, wp_checked]
  cases f with
  | done => exact hidle.elim
  | fails extent => simpa [hthere, show extent.acted = false from hidle] using hP
  | dies extent => simpa [hthere, show extent.acted = false from hidle] using hP

theorem createLab_spares {fate : CreateStep → Fate Extent} (h : SparesCreate fate)
    (hthere : (n.containers name).isSome) (hP : P n) : P ((createLab fate name).after n) := by
  apply Prog.wp_after.mp
  unfold createLab ensureContainer
  simp only [bind_assoc]
  refine wp_check_spared hP (fun h => ?_) h
  refine wp_check_spared hP (fun h => ?_) h
  refine wp_check_spared hP (fun h => ?_) h
  refine wp_check_spared hP (fun h => ?_) h
  refine wp_check_spared hP (fun h => ?_) h
  refine wp_check_spared hP (fun h => ?_) h
  refine wp_remove_idle ?_ hP hthere
  cases hf : fate .removeOld with
  | done =>
    rw [trial_done hf] at h
    exact h.elim
  | fails extent =>
    rw [trial_fails hf] at h
    exact h rfl
  | dies extent =>
    rw [trial_dies hf] at h
    exact h rfl

theorem destroyLab_spares {fate : DestroyStep → Fate Extent} (h : Idle (fate .removeContainer))
    (hthere : (n.containers name).isSome) (hP : P n) : P ((destroyLab fate name).after n) := by
  apply Prog.wp_after.mp
  exact wp_remove_idle h hP hthere

/-- The record of no lab changes. -/
def Node.SameRecord (n n' : Node) : Prop := n'.lastAptUpgrade = n.lastAptUpgrade

instance : IsPreorder Node Node.SameRecord where
  refl _ := rfl
  trans _ _ _ h h' := Eq.trans h' h

theorem movesAside_sameRecord : MovesAside Node.SameRecord name where
  remove _ := rfl
  create _ _ := rfl
  setRunning _ _ := rfl
  clear _ := rfl
  aside _ := rfl
  back _ := rfl

/-! ## What a recreate leaves -/

variable {fate : RecreateStep → Fate Extent} {rollback : RollbackStep → Fate Extent}
variable {students : List String}

theorem not_idle_reached {work : Node → Node} {f : Fate Extent} (h : ¬ Idle f) :
    reached work f n = work n := by
  unfold reached
  cases f with
  | done => rfl
  | fails extent => exact if_pos (Bool.not_eq_false _ ▸ h)
  | dies extent => exact if_pos (Bool.not_eq_false _ ▸ h)

theorem idle_reached {work : Node → Node} {f : Fate Extent} (h : Idle f) : reached work f n = n := by
  unfold reached
  cases f with
  | done => exact h.elim
  | fails extent => exact if_neg (by rw [show extent.acted = false from h]; exact nofun)
  | dies extent => exact if_neg (by rw [show extent.acted = false from h]; exact nofun)

theorem lastAptUpgrade_stopped : (stopped fate name n).lastAptUpgrade = n.lastAptUpgrade := by
  unfold stopped
  rcases reached_cases (Node.setRunning name false) (fate .stop) n with h | h
  · rw [h, Node.lastAptUpgrade_setRunning]
  · rw [h]

theorem lastAptUpgrade_cleared : (cleared fate name n).lastAptUpgrade = n.lastAptUpgrade := by
  unfold cleared
  split
  · exact lastAptUpgrade_stopped
  · exact lastAptUpgrade_stopped

theorem lastAptUpgrade_aside : (aside fate name n).lastAptUpgrade = n.lastAptUpgrade := by
  unfold aside
  split
  · exact lastAptUpgrade_cleared
  · rfl

theorem lastAptUpgrade_renewed : (renewed fate name n).lastAptUpgrade = n.lastAptUpgrade :=
  lastAptUpgrade_aside

theorem lastAptUpgrade_leftover {extent : Extent} :
    (leftover name extent n).lastAptUpgrade = n.lastAptUpgrade := by
  unfold leftover
  split <;> rfl

theorem lastAptUpgrade_promoted : (promoted fate name n).lastAptUpgrade = n.lastAptUpgrade := by
  unfold promoted
  split
  · exact lastAptUpgrade_renewed
  · exact lastAptUpgrade_renewed

theorem lastAptUpgrade_reached {work : Node → Node} {f : Fate Extent}
    (hwork : (work n).lastAptUpgrade = n.lastAptUpgrade) :
    (reached work f n).lastAptUpgrade = n.lastAptUpgrade := by
  rcases reached_cases work f n with h | h
  · rw [h, hwork]
  · rw [h]

/-- A recreate that gets as far as the reset leaves a record of zero. -/
theorem recreate_resets (h : Resets fate n name students) :
    ((recreateContainer fate rollback lab name students).after n).lastAptUpgrade lab = some 0 := by
  have hzero (m : Node) : (m.recordAptUpgrade lab 0).lastAptUpgrade lab = some 0 :=
    Node.lastAptUpgrade_recordAptUpgrade
  have hwp : Prog.wp (recreateContainer fate rollback lab name students)
      (fun _ m => m.lastAptUpgrade lab = some 0) (fun _ m => m.lastAptUpgrade lab = some 0) n := by
    rw [wp_recreate]
    refine trial_mono (fun step _ f _ _ hstops => ?_) (fun _ => hzero _) h
    obtain ⟨rfl, hnot⟩ := hstops
    show (reached (Node.recordAptUpgrade lab 0) f (promoted fate name n)).lastAptUpgrade lab = some 0
    rw [not_idle_reached hnot]
    exact hzero _
  exact Prog.wp_after.mp hwp

/-- Any other recreate leaves the record as it was. -/
theorem recreate_keeps_record (h : ¬ Resets fate n name students) :
    ((recreateContainer fate rollback lab name students).after n).lastAptUpgrade =
      n.lastAptUpgrade := by
  have hhandler {x : Handler Unit} {m : Node} (hx : Prog.Respects Node.SameRecord x)
      (hm : m.lastAptUpgrade = n.lastAptUpgrade) : Prog.wp x
        (fun _ m' => m'.lastAptUpgrade = n.lastAptUpgrade)
        (fun _ m' => m'.lastAptUpgrade = n.lastAptUpgrade) m :=
    Prog.wp_mono (hx.wp m) (fun _ _ hm' => Eq.trans hm' hm) fun _ _ hm' => Eq.trans hm' hm
  have hwp : Prog.wp (recreateContainer fate rollback lab name students)
      (fun _ m => m.lastAptUpgrade = n.lastAptUpgrade)
      (fun _ m => m.lastAptUpgrade = n.lastAptUpgrade) n := by
    rw [wp_recreate]
    refine trial_mono (fun step _ f _ hnot hstops => ?_) (fun hfalse => absurd trivial hfalse)
      (trial_not h)
    cases step with
    | options | mounts | nodeReady | image => exact rfl
    | stop => exact lastAptUpgrade_stopped
    | removeStale => exact (lastAptUpgrade_reached rfl).trans lastAptUpgrade_stopped
    | rename => exact (lastAptUpgrade_reached rfl).trans lastAptUpgrade_cleared
    | lookup | list => exact lastAptUpgrade_aside
    | prepare username =>
      cases f with
      | done => exact absurd rfl hnot
      | fails extent => exact hhandler (respects_restore movesAside_sameRecord) lastAptUpgrade_aside
      | dies extent => exact lastAptUpgrade_aside
    | run =>
      cases f with
      | done => exact absurd rfl hnot
      | fails extent =>
        exact hhandler (respects_withdraw movesAside_sameRecord)
          (lastAptUpgrade_leftover.trans lastAptUpgrade_aside)
      | dies extent => exact lastAptUpgrade_leftover.trans lastAptUpgrade_aside
    | ready =>
      cases f with
      | done => exact absurd rfl hnot
      | fails extent => exact hhandler (respects_withdraw movesAside_sameRecord) lastAptUpgrade_renewed
      | dies extent => exact lastAptUpgrade_renewed
    | promote => exact (lastAptUpgrade_reached rfl).trans lastAptUpgrade_renewed
    | mark =>
      have hidle : Idle f := by
        by_contra hidle
        exact hstops ⟨rfl, hidle⟩
      show (reached (Node.recordAptUpgrade lab 0) f (promoted fate name n)).lastAptUpgrade = _
      rw [idle_reached hidle]
      exact lastAptUpgrade_promoted
  exact Prog.wp_after.mp hwp

theorem SparesRecreate.not_resets (h : SparesRecreate fate rollback n name students) :
    ¬ Resets fate n name students := by
  intro hresets
  refine trial_disjoint h hresets (fun step f _ hspared => ?_) False.elim
  rintro ⟨rfl, -⟩
  exact hspared

/-- Where the handlers put a container back, it runs again under its name. -/
theorem wp_restore_restores {id : Nat} {running : Bool} (hrestores : Restores rollback)
    (hname : n.containers name = none) (hold : n.containers (preserved name) = some ⟨id, running⟩)
    (hP : ∀ m : Node, m.Runs name id → m.lastAptUpgrade = n.lastAptUpgrade → P m) :
    Prog.wp (restore rollback name true) (fun _ => P) (fun _ => P) n := by
  have hback : (n.rename (preserved name) name).containers name = some ⟨id, running⟩ := by
    rw [Node.containers_rename_new (preserved_ne name).symm, hold]
  have hdone : P ((n.rename (preserved name) name).setRunning name true) := by
    refine hP _ ?_ rfl
    rw [Node.Runs, Node.containers_setRunning_self, hback]
    rfl
  obtain ⟨hrename, hstart⟩ := hrestores
  unfold restore containerExists renameContainer startContainer act
  simp only [Prog.wp_bind, Prog.wp_read, hold, hname, hrename, wp_checked, wp_attempt_done,
    Bool.true_and, Option.isSome_some, Option.isNone_none, if_true]
  cases hf : rollback .startBack with
  | done => simpa [hback] using hdone
  | fails extent =>
    rw [hf] at hstart
    have hacted : extent.acted = true := Bool.not_eq_false _ ▸ hstart
    simpa [hback, hacted] using hdone
  | dies extent =>
    rw [hf] at hstart
    have hacted : extent.acted = true := Bool.not_eq_false _ ▸ hstart
    simpa [hback, hacted] using hdone

/-- The same where a candidate may be in the way. -/
theorem wp_withdraw_restores {id : Nat} {running : Bool} (hrestores : Restores rollback)
    (hwithdraws : (n.containers name).isSome → Withdraws rollback)
    (hold : n.containers (preserved name) = some ⟨id, running⟩)
    (hP : ∀ m : Node, m.Runs name id → m.lastAptUpgrade = n.lastAptUpgrade → P m) :
    Prog.wp (withdraw rollback name true) (fun _ => P) (fun _ => P) n := by
  unfold withdraw removeContainer containerExists act
  rw [Prog.wp_bind, wp_rescue, Prog.wp_bind, Prog.wp_read, Prog.wp_ite]
  by_cases hthere : (n.containers name).isSome
  · have hkept : (n.remove name).containers (preserved name) = some ⟨id, running⟩ := by
      rw [Node.containers_remove_of_ne (preserved_ne name), hold]
    have hgone : Prog.wp (restore rollback name true) (fun _ => P) (fun _ => P) (n.remove name) :=
      wp_restore_restores hrestores Node.containers_remove_self hkept hP
    have hwithdraws := hwithdraws hthere
    unfold Withdraws at hwithdraws
    rw [if_pos hthere, wp_checked]
    cases hf : rollback .removeCandidate with
    | done => simpa [hthere] using hgone
    | fails extent =>
      rw [hf] at hwithdraws
      simpa [hthere, show extent.acted = true from hwithdraws] using hgone
    | dies extent =>
      rw [hf] at hwithdraws
      exact hwithdraws.elim
  · rw [if_neg hthere, Prog.wp_pure]
    exact wp_restore_restores hrestores (Option.not_isSome_iff_eq_none.mp hthere) hold hP

/-- A stop that stopped nothing. -/
theorem stopped_of_idle (h : StopIdle fate) : stopped fate name n = n := by
  unfold StopIdle at h
  unfold stopped
  cases hf : fate .stop with
  | done =>
    rw [hf] at h
    exact h.elim
  | fails extent =>
    rw [hf] at h
    exact idle_reached h
  | dies extent =>
    rw [hf] at h
    exact idle_reached h

/-- A recreate that spares the container leaves it running under its name, and the record. -/
theorem recreate_spares {id : Nat} (h : SparesRecreate fate rollback n name students)
    (hruns : n.Runs name id) :
    ((recreateContainer fate rollback lab name students).after n).Runs name id ∧
      ((recreateContainer fate rollback lab name students).after n).lastAptUpgrade =
        n.lastAptUpgrade := by
  have hthere : (n.containers name).isSome = true := by rw [hruns]; rfl
  obtain ⟨running, hold⟩ := aside_preserved fate hruns
  have hcleared (hidle : StopIdle fate) : (cleared fate name n).Runs name id ∧
      (cleared fate name n).lastAptUpgrade = n.lastAptUpgrade :=
    ⟨cleared_runs.mpr ⟨hruns, hidle⟩, lastAptUpgrade_cleared⟩
  have hwp : Prog.wp (recreateContainer fate rollback lab name students)
      (fun _ m => m.Runs name id ∧ m.lastAptUpgrade = n.lastAptUpgrade)
      (fun _ m => m.Runs name id ∧ m.lastAptUpgrade = n.lastAptUpgrade) n := by
    rw [wp_recreate]
    refine trial_mono (fun step _ f hf hnot hspared => ?_) False.elim h
    cases step with
    | options | mounts | nodeReady | image => exact ⟨hruns, rfl⟩
    | stop =>
      have hidle : StopIdle fate := by
        revert hf
        unfold heard StopIdle
        cases hs : fate .stop with
        | done => exact fun hf => absurd hf.symm hnot
        | fails extent => exact fun hf => absurd hf.symm hnot
        | dies extent =>
          rintro rfl
          exact hspared
      show (stopped fate name n).Runs name id ∧ _
      rw [stopped_of_idle hidle]
      exact ⟨hruns, rfl⟩
    | removeStale =>
      show (reached (Node.remove (preserved name)) f (stopped fate name n)).Runs name id ∧ _
      rw [stopped_of_idle hspared]
      exact ⟨runs_reached_remove.mpr hruns, lastAptUpgrade_reached rfl⟩
    | rename =>
      show (reached (Node.rename name (preserved name)) f (cleared fate name n)).Runs name id ∧ _
      rw [idle_reached hspared.2]
      exact hcleared hspared.1
    | lookup | list | promote | mark => exact hspared.elim
    | prepare username =>
      cases f with
      | done => exact absurd rfl hnot
      | fails extent =>
        unfold StopsWith
        rw [hthere]
        exact wp_restore_restores hspared aside_name hold fun m hm hrecord =>
          ⟨hm, hrecord.trans lastAptUpgrade_aside⟩
      | dies extent => exact hspared.elim
    | run =>
      cases f with
      | done => exact absurd rfl hnot
      | fails extent =>
        unfold StopsWith
        rw [hthere]
        refine wp_withdraw_restores hspared.2 (fun hleft => hspared.1 ?_)
          (leftover_preserved.trans hold) fun m hm hrecord =>
            ⟨hm, hrecord.trans (lastAptUpgrade_leftover.trans lastAptUpgrade_aside)⟩
        by_contra hacted
        unfold leftover at hleft
        rw [if_neg hacted, aside_name] at hleft
        cases hleft
      | dies extent => exact hspared.elim
    | ready =>
      cases f with
      | done => exact absurd rfl hnot
      | fails extent =>
        unfold StopsWith
        rw [hthere]
        exact wp_withdraw_restores hspared.2 (fun _ => hspared.1)
          (renewed_preserved.trans hold) fun m hm hrecord =>
            ⟨hm, hrecord.trans lastAptUpgrade_renewed⟩
      | dies extent => exact hspared.elim
  exact Prog.wp_after.mp hwp

end

/-! ## Runs -/

namespace Patching

variable {lab name : String} {intervalS : Int}

/-- What the record and the loop stand for: an upgrade of the container that runs now, made at most
the lag before the record, and not yet an interval ago; and the upgrade the loop has yet to record.
-/
structure Sound (lab name : String) (intervalS : Int) (s : Patching) : Prop where
  recorded : s.due lab intervalS = false → ∃ last id t, s.node.lastAptUpgrade lab = some last ∧
    s.node.Runs name id ∧ (id, t) ∈ s.upgrades ∧ last - s.lag ≤ t ∧
    s.clock < last + intervalS * 1000 - s.lag
  upgraded : ∀ id time, s.loop = .upgraded id time → (id, time) ∈ s.upgrades

theorem Sound.patched {s : Patching} (h : s.Sound lab name intervalS) :
    s.Patched lab name intervalS := by
  intro hdue
  obtain ⟨last, id, t, -, hruns, hmem, hlate, hclock⟩ := h.recorded hdue
  refine ⟨⟨id, true⟩, hruns, rfl, t, hmem, ?_⟩
  omega

/-- A lab that is not due has a record within the interval. -/
theorem lt_of_not_due {s : Patching} (hdue : s.due lab intervalS = false) {last : Int}
    (hlast : s.node.lastAptUpgrade lab = some last) : s.clock < last + intervalS * 1000 := by
  unfold due isDue at hdue
  rw [hlast] at hdue
  simp only [decide_eq_false_iff_not] at hdue
  omega

/-- Time does not undo that a lab is due. -/
theorem due_tick {s : Patching} {ms : Nat} (h : s.due lab intervalS = true) :
    due lab intervalS { s with clock := s.clock + ms } = true := by
  unfold due isDue at h ⊢
  cases hlast : s.node.lastAptUpgrade lab with
  | none => rfl
  | some last =>
    simp only [hlast, decide_eq_true_eq] at h ⊢
    omega

/-- An execution that leaves the record: it found the lab due, or it spares the container. -/
theorem Sound.of_execution {s : Patching} {n : Node} (h : s.Sound lab name intervalS)
    (hrecord : n.lastAptUpgrade lab = s.node.lastAptUpgrade lab)
    (hspares : s.due lab intervalS = true ∨ ∀ id, s.node.Runs name id → n.Runs name id) :
    Sound lab name intervalS { s with node := n } where
  recorded hdue := by
    have hdue' : s.due lab intervalS = false := by
      unfold due at hdue ⊢
      rwa [hrecord] at hdue
    obtain ⟨last, id, t, hlast, hruns, hmem, hage⟩ := h.recorded hdue'
    refine ⟨last, id, t, hrecord.trans hlast, ?_, hmem, hage⟩
    rcases hspares with hdue | hspares
    · rw [hdue] at hdue'
      cases hdue'
    · exact hspares id hruns
  upgraded := h.upgraded

/-- **A careful step keeps the record true.** -/
theorem sound_step {s : Patching} {act : PatchingAct} (h : s.Sound lab name intervalS)
    (hcare : s.Careful lab name intervalS act) :
    (step lab name intervalS s act).Sound lab name intervalS := by
  cases act with
  | tick ms =>
    refine ⟨fun hdue => ?_, h.upgraded⟩
    have hbefore : s.due lab intervalS = false := by
      by_contra hnot
      rw [Bool.not_eq_false] at hnot
      have hlater : (step lab name intervalS s (.tick ms)).due lab intervalS = true := due_tick hnot
      rw [hlater] at hdue
      cases hdue
    obtain ⟨last, id, t, hlast, hruns, hmem, hlate, -⟩ := h.recorded hbefore
    refine ⟨last, id, t, hlast, hruns, hmem, hlate, ?_⟩
    -- the record still counts, so the clock is in front of its lag
    have hrecord : s.clock + ms < last + intervalS * 1000 := lt_of_not_due hdue hlast
    show s.clock + ms < last + intervalS * 1000 - s.lag
    by_contra hlag
    exact hcare ⟨last, hlast, by omega, hrecord⟩
  | dueCheck =>
    rw [step]
    split
    · exact ⟨h.recorded, fun id time hloop => by cases hloop⟩
    · exact h
  | upgrade ok =>
    rw [step]
    split
    unfold upgrade
    · cases hc : s.node.containers name with
      | none => exact ⟨h.recorded, fun id time hloop => by cases hloop⟩
      | some c =>
        dsimp only
        split
        · refine ⟨fun hdue => ?_, ?_⟩
          · obtain ⟨last, id, t, hlast, hruns, hmem, hage⟩ := h.recorded hdue
            exact ⟨last, id, t, hlast, hruns, List.mem_cons_of_mem _ hmem, hage⟩
          · rintro id time ⟨⟩
            exact List.mem_cons_self
        · exact ⟨h.recorded, fun id time hloop => by cases hloop⟩
    · exact h
  | record written =>
    rw [step]
    split
    · rename_i id time hloop
      refine ⟨fun hdue => ?_, fun id time hloop => by cases hloop⟩
      cases written with
      | false => exact h.recorded hdue
      | true =>
        obtain ⟨hsoon, hruns⟩ := hcare rfl id time hloop
        refine ⟨s.clock, id, time, Node.lastAptUpgrade_recordAptUpgrade, hruns,
          h.upgraded id time hloop, ?_, ?_⟩
        · show s.clock - (s.clock - time) ≤ time
          omega
        · show s.clock < s.clock + intervalS * 1000 - (s.clock - time)
          omega
    · exact h
  | createLab fate =>
    have hmoves : Moves Node.SameRecord name := movesAside_sameRecord.toMoves
    have hrecord := respects_createLab fate hmoves s.node
    refine h.of_execution (congrFun hrecord lab) (hcare.imp_right ?_)
    intro hspares id hruns
    exact createLab_spares (P := fun n => n.Runs name id) hspares (by rw [hruns]; rfl) hruns
  | destroyLab fate =>
    have hmoves : Moves Node.SameRecord name := movesAside_sameRecord.toMoves
    have hrecord := respects_destroyLab fate hmoves s.node
    refine h.of_execution (congrFun hrecord lab) (hcare.imp_right ?_)
    intro hspares id hruns
    exact destroyLab_spares (P := fun n => n.Runs name id) hspares (by rw [hruns]; rfl) hruns
  | recreateContainer fate rollback students =>
    rcases hcare with ⟨hdue, hclock⟩ | hspares
    · by_cases hresets : Resets fate s.node name students
      · -- a record of zero: the lab is due
        have hzero : ((recreateContainer fate rollback lab name students).after
            s.node).lastAptUpgrade lab = some 0 := recreate_resets hresets
        refine ⟨fun hnot => ?_, h.upgraded⟩
        have hclock := hclock hresets
        simp only [due, isDue, step, hzero, Int.sub_zero, decide_eq_false_iff_not] at hnot
        exact absurd hclock hnot
      · exact h.of_execution (congrFun (recreate_keeps_record hresets) lab)
          (.inl (hdue.resolve_right hresets))
    · by_cases hruns : ∃ id, s.node.Runs name id
      · obtain ⟨id, hruns⟩ := hruns
        refine h.of_execution (congrFun (recreate_spares hspares hruns).2 lab) (.inr ?_)
        exact fun id hruns => (recreate_spares hspares hruns).1
      · -- nothing runs under the name: the lab is due
        have hdue : s.due lab intervalS = true := by
          by_contra hnot
          rw [Bool.not_eq_true] at hnot
          obtain ⟨last, id, t, -, hrun, -⟩ := h.recorded hnot
          exact hruns ⟨id, hrun⟩
        exact h.of_execution (congrFun (recreate_keeps_record hspares.not_resets) lab) (.inl hdue)
  | restart => exact ⟨h.recorded, fun id time hloop => by cases hloop⟩

/-- **A lab that counts as patched was, in careful runs.** From a lab without a record: whatever the
interleaving of the loop with the executions that replace the container, with time and with restarts,
a lab that is not due has its running container upgraded within the interval, in every state that
careful steps lead to. -/
theorem patched_of_careful {s : Patching} {acts : List PatchingAct}
    (hrecord : s.node.lastAptUpgrade lab = none) (hloop : s.loop = .idle)
    (hcare : Run.Along (step lab name intervalS) (Careful lab name intervalS) s acts) :
    (Run.run (step lab name intervalS) s acts).Patched lab name intervalS := by
  have hsound : s.Sound lab name intervalS := by
    refine ⟨fun hdue => ?_, fun id time h => ?_⟩
    · simp [due, isDue, hrecord] at hdue
    · rw [hloop] at h
      cases h
  exact (Run.invariant (fun _ _ => sound_step) hsound hcare).patched

/-! ## One lab -/

/-- The lab `bio` in its container, one interval after the epoch. -/
def bio : Patching where
  node := bioNode
  clock := 604800000

/-- The lab is patched and recorded late, its container is recreated, and the one that took its
place is patched too. -/
def patchedTwice : List PatchingAct :=
  [.dueCheck, .upgrade true, .tick 5, .record true, .tick 1000,
    .recreateContainer (fun _ => .done) (fun _ => .done) [],
    .dueCheck, .upgrade true, .tick 5, .record true, .tick 1000]

theorem patched_of_careful_bio :
    (Run.run (step "bio" "bio-n" 604800) bio patchedTwice).due "bio" 604800 = false ∧
      (Run.run (step "bio" "bio-n" 604800) bio patchedTwice).Patched "bio" "bio-n" 604800 := by
  refine ⟨by decide +kernel, patched_of_careful rfl rfl ?_⟩
  refine ⟨trivial, trivial, ?_, ?_, ?_, ?_, trivial, trivial, ?_, ?_, ?_, trivial⟩
  · show ¬ InLag _ _ _ _
    decide +kernel
  · rintro - id time hloop
    have hloop : LoopPhase.upgraded 0 604800000 = .upgraded id time := hloop
    cases hloop
    exact ⟨by decide +kernel, rfl⟩
  · show ¬ InLag _ _ _ _
    decide +kernel
  · exact .inl ⟨.inr trivial, fun _ => by decide +kernel⟩
  · show ¬ InLag _ _ _ _
    decide +kernel
  · rintro - id time hloop
    have hloop : LoopPhase.upgraded 1 604801005 = .upgraded id time := hloop
    cases hloop
    exact ⟨by decide +kernel, rfl⟩
  · show ¬ InLag _ _ _ _
    decide +kernel

/-- The lab is created again right after it was patched: it counts as patched for another week, and
its container never was. -/
theorem created_lab_counts_as_patched :
    ¬ (Run.run (step "bio" "bio-n" 604800) bio
      [.dueCheck, .upgrade true, .record true, .createLab fun _ => .done]).Patched
        "bio" "bio-n" 604800 := by
  intro h
  obtain ⟨c, hc, -, t, hmem, -⟩ := h (by decide)
  obtain rfl : (⟨1, true⟩ : Container) = c := Option.some.inj hc
  revert hmem
  show (1, t) ∉ [(0, (604800000 : Int))]
  simp

end Patching

end MassDeployment.Agent

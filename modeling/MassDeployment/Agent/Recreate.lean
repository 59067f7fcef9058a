import Mathlib.Tactic.ByContra
import Mathlib.Logic.Relation
import MassDeployment.Agent.Containers

set_option autoImplicit false

/-! # A failed recreate and the container before it (`containerops.py`)

The two handlers of `recreate_container` put the container that was moved aside back under its name.
They cover the storage of the students and the candidate; the steps around them are not covered: what
fails between the stop and the first student leaves the container stopped, and what fails after the
candidate answered leaves the candidate. A call that finds the name free has nothing to put back,
whatever an earlier call preserved.
-/

namespace MassDeployment.Agent

open Procedure

/-- The steps a call goes through. A container under the name is moved aside, after one that is
preserved already was removed. -/
def recreateSteps (hadOld stale : Bool) (students : List String) : List RecreateStep :=
  [.options, .mounts, .nodeReady, .image] ++
    (if hadOld then .stop :: ((if stale then [.removeStale] else []) ++ [.rename]) else []) ++
    [.lookup, .list] ++ students.map .prepare ++ [.run, .ready] ++
    (if hadOld then [.promote] else []) ++ [.mark]

/-- What the call hears of a step: a stop that fails goes by unnoticed. -/
def heard (fate : RecreateStep → Fate Extent) : RecreateStep → Fate Extent
  | .stop =>
    match fate .stop with
    | .fails _ => .done
    | f => f
  | step => fate step

/-! ## Where a call stops -/

/-- How a call ends at a step that did not go through. -/
def ending (e : HandlerError) : Fate Extent → Fault HandlerError
  | .dies _ => .died
  | _ => .raised e

/-- What a command leaves that acts at once or not at all. -/
def reached (work : Node → Node) (f : Fate Extent) (n : Node) : Node :=
  match f with
  | .done => work n
  | .fails extent => if extent.acted then work n else n
  | .dies extent => if extent.acted then work n else n

/-- After the stop, whatever came of it. -/
def stopped (fate : RecreateStep → Fate Extent) (name : String) (n : Node) : Node :=
  reached (Node.setRunning name false) (fate .stop) n

/-- With nothing preserved any more. -/
def cleared (fate : RecreateStep → Fate Extent) (name : String) (n : Node) : Node :=
  if (n.containers (preserved name)).isSome then (stopped fate name n).remove (preserved name)
  else stopped fate name n

/-- With nothing under the name any more. -/
def aside (fate : RecreateStep → Fate Extent) (name : String) (n : Node) : Node :=
  if (n.containers name).isSome then (cleared fate name n).rename name (preserved name) else n

/-- What a `docker run` leaves that did not go through. -/
def leftover (name : String) (extent : Extent) (n : Node) : Node :=
  if extent.acted then n.create name extent.started else n

/-- With the candidate running under the name. -/
def renewed (fate : RecreateStep → Fate Extent) (name : String) (n : Node) : Node :=
  (aside fate name n).create name true

/-- With nothing but the candidate. -/
def promoted (fate : RecreateStep → Fate Extent) (name : String) (n : Node) : Node :=
  if (n.containers name).isSome then (renewed fate name n).remove (preserved name)
  else renewed fate name n

/-- What holds in the end, if the call stops at the step: what its handlers lead to where it has
one, else what there is by then. -/
def StopsWith (fate : RecreateStep → Fate Extent) (rollback : RollbackStep → Fate Extent)
    (lab name : String) (E : Fault HandlerError → Node → Prop) (n : Node) :
    RecreateStep → Fate Extent → Prop
  | .options, f => E (ending .valueError f) n
  | .mounts, f => E (ending .zfsError f) n
  | .nodeReady, f | .image, f => E (ending .dockerError f) n
  | .stop, _ => E .died (stopped fate name n)
  | .removeStale, f =>
    E (ending .dockerError f) (reached (Node.remove (preserved name)) f (stopped fate name n))
  | .rename, f =>
    E (ending .dockerError f) (reached (Node.rename name (preserved name)) f (cleared fate name n))
  | .lookup, f | .list, f => E (ending .zfsError f) (aside fate name n)
  | .prepare _, .dies _ => E .died (aside fate name n)
  | .prepare _, _ =>
    Prog.wp (restore rollback name (n.containers name).isSome) (fun _ => E (.raised .dockerError)) E
      (aside fate name n)
  | .run, .dies extent => E .died (leftover name extent (aside fate name n))
  | .run, .fails extent =>
    Prog.wp (withdraw rollback name (n.containers name).isSome) (fun _ => E (.raised .dockerError)) E
      (leftover name extent (aside fate name n))
  | .ready, .dies _ => E .died (renewed fate name n)
  | .ready, _ =>
    Prog.wp (withdraw rollback name (n.containers name).isSome) (fun _ => E (.raised .dockerError)) E
      (renewed fate name n)
  | .promote, f =>
    E (ending .dockerError f) (reached (Node.remove (preserved name)) f (renewed fate name n))
  | .mark, f => E (ending .osError f) (reached (Node.recordAptUpgrade lab 0) f (promoted fate name n))
  | .run, .done => True

section

variable {fate : RecreateStep → Fate Extent} {rollback : RollbackStep → Fate Extent} {n : Node}
variable {lab name : String} {steps : List RecreateStep} {students : List String} {hadOld : Bool}
variable {Q : Unit → Node → Prop} {E : Fault HandlerError → Node → Prop}
variable {stops : RecreateStep → Fate Extent → Prop} {ends : Prop} {c : Container}

/-! ## The containers on the way -/

theorem reached_cases (work : Node → Node) (f : Fate Extent) (n : Node) :
    reached work f n = work n ∨ reached work f n = n := by
  unfold reached
  cases f with
  | done => exact .inl rfl
  | fails extent => cases h : extent.acted <;> simp [h]
  | dies extent => cases h : extent.acted <;> simp [h]

theorem stopped_preserved :
    (stopped fate name n).containers (preserved name) = n.containers (preserved name) := by
  unfold stopped
  rcases reached_cases (Node.setRunning name false) (fate .stop) n with h | h
  · rw [h, Node.containers_setRunning_of_ne (preserved_ne name)]
  · rw [h]

variable (fate) in
theorem stopped_name (hc : n.containers name = some c) :
    ∃ running, (stopped fate name n).containers name = some { c with running } := by
  unfold stopped
  rcases reached_cases (Node.setRunning name false) (fate .stop) n with h | h
  · rw [h, Node.containers_setRunning_self, hc]
    exact ⟨false, rfl⟩
  · rw [h, hc]
    exact ⟨c.running, rfl⟩

theorem cleared_name :
    (cleared fate name n).containers name = (stopped fate name n).containers name := by
  unfold cleared
  split
  · exact Node.containers_remove_of_ne (preserved_ne name).symm
  · rfl

theorem cleared_preserved : (cleared fate name n).containers (preserved name) = none := by
  unfold cleared
  split
  · exact Node.containers_remove_self
  · rename_i hnone
    rw [stopped_preserved]
    exact Option.not_isSome_iff_eq_none.mp hnone

theorem aside_name : (aside fate name n).containers name = none := by
  unfold aside
  split
  · exact Node.containers_rename_old
  · rename_i hnone
    exact Option.not_isSome_iff_eq_none.mp hnone

variable (fate) in
theorem aside_preserved (hc : n.containers name = some c) :
    ∃ running, (aside fate name n).containers (preserved name) = some { c with running } := by
  have hsome : (n.containers name).isSome := by rw [hc]; rfl
  unfold aside
  rw [if_pos hsome, Node.containers_rename_new (preserved_ne name), cleared_name]
  exact stopped_name fate hc

theorem renewed_name : (renewed fate name n).containers name =
    some ⟨(aside fate name n).nextId, true⟩ := Node.containers_create_self

theorem renewed_preserved : (renewed fate name n).containers (preserved name) =
    (aside fate name n).containers (preserved name) :=
  Node.containers_create_of_ne (preserved_ne name)

/-! ## A call, step by step -/

/-- A command that acts at once, in front of the rest of a call. -/
theorem wp_act_step {step : RecreateStep} {e : HandlerError} {able : Node → Bool}
    {work : Node → Node} {k : Unit → Handler Unit} (hable : able n = true)
    (hheard : heard fate step = fate step)
    (hstops : ∀ f, fate step = f → f ≠ .done → (stops step f ↔ E (ending e f) (reached work f n)))
    (hk : Prog.wp (k ()) Q E (work n) ↔ Trial (heard fate) stops ends steps) :
    Prog.wp (checked e (act (fate step) able work) >>= k) Q E n ↔
      Trial (heard fate) stops ends (step :: steps) :=
  wp_step hable hheard (fun _ h => hstops _ h nofun) (fun _ h => hstops _ h nofun) hk

theorem wp_check_at {step : RecreateStep} {e : HandlerError} {k : Unit → Handler Unit}
    (hheard : heard fate step = fate step)
    (hstops : ∀ f, fate step = f → f ≠ .done → (stops step f ↔ E (ending e f) n))
    (hk : Prog.wp (k ()) Q E n ↔ Trial (heard fate) stops ends steps) :
    Prog.wp (check (fate step) e >>= k) Q E n ↔ Trial (heard fate) stops ends (step :: steps) :=
  wp_check_step hheard (fun _ h => hstops _ h nofun) (fun _ h => hstops _ h nofun) hk

/-- A removal of what is there. -/
theorem wp_remove_step {step : RecreateStep} {other : String} {k : Unit → Handler Unit}
    (hthere : (n.containers other).isSome) (hheard : heard fate step = fate step)
    (hstops : ∀ f, fate step = f → f ≠ .done →
      (stops step f ↔ E (ending .dockerError f) (reached (Node.remove other) f n)))
    (hk : Prog.wp (k ()) Q E (n.remove other) ↔ Trial (heard fate) stops ends steps) :
    Prog.wp (removeContainer (fate step) other >>= k) Q E n ↔
      Trial (heard fate) stops ends (step :: steps) := by
  unfold removeContainer containerExists
  rw [bind_assoc, Prog.wp_bind, Prog.wp_read, if_pos hthere]
  exact wp_act_step hthere hheard hstops hk

theorem wp_remove_nothing {f : Fate Extent} {other : String} {k : Unit → Handler Unit}
    (hnone : n.containers other = none) :
    Prog.wp (removeContainer f other >>= k) Q E n ↔ Prog.wp (k ()) Q E n := by
  unfold removeContainer containerExists
  rw [bind_assoc, Prog.wp_bind, Prog.wp_read, if_neg (by rw [hnone]; exact nofun)]
  rfl

/-- The last steps. -/
theorem wp_finish : Prog.wp (do
        if (n.containers name).isSome then removeContainer (fate .promote) (preserved name)
        markUnpatched (fate .mark) lab) Q E (renewed fate name n) ↔
      Trial (heard fate) (StopsWith fate rollback lab name E n)
        (Q () ((promoted fate name n).recordAptUpgrade lab 0))
        ((if (n.containers name).isSome then [.promote] else []) ++ [.mark]) := by
  have hmark : Prog.wp (markUnpatched (fate .mark) lab) Q E (promoted fate name n) ↔
      Trial (heard fate) (StopsWith fate rollback lab name E n)
        (Q () ((promoted fate name n).recordAptUpgrade lab 0)) [.mark] := by
    rw [← bind_pure (markUnpatched (fate .mark) lab)]
    exact wp_act_step rfl rfl (fun f hf hnot => Iff.rfl) Iff.rfl
  by_cases hsome : (n.containers name).isSome
  · obtain ⟨c, hc⟩ := Option.isSome_iff_exists.mp hsome
    obtain ⟨running, hold⟩ := aside_preserved fate hc
    have hthere : ((renewed fate name n).containers (preserved name)).isSome := by
      rw [renewed_preserved, hold]
      rfl
    unfold promoted at hmark
    rw [if_pos hsome] at hmark
    rw [if_pos hsome, if_pos hsome]
    unfold promoted
    rw [if_pos hsome]
    exact wp_remove_step hthere rfl (fun f hf hnot => Iff.rfl) hmark
  · unfold promoted at hmark ⊢
    rw [if_neg hsome] at hmark ⊢
    rw [if_neg hsome, if_neg hsome]
    exact hmark

/-- The candidate: where one of its steps fails, the handler withdraws it. -/
theorem wp_candidate {k : Unit → Handler Unit} (hk : Prog.wp (k ()) Q E (renewed fate name n) ↔
      Trial (heard fate) (StopsWith fate rollback lab name E n) ends steps) :
    Prog.wp (rescue (startCandidate fate name) (fun _ => do
        withdraw rollback name (n.containers name).isSome
        raise .dockerError) >>= k) Q E (aside fate name n) ↔
      Trial (heard fate) (StopsWith fate rollback lab name E n) ends (.run :: .ready :: steps) := by
  have hfree : ((aside fate name n).containers name).isNone := by rw [aside_name]; rfl
  have hanswers : (((aside fate name n).create name true).containers name).any Container.running =
      true := by
    rw [Node.containers_create_self]
    rfl
  unfold startCandidate createContainer
  rw [Prog.wp_bind, wp_rescue]
  refine wp_step hfree rfl (fun extent h => ?_) (fun extent h => Iff.rfl) ?_
  · show _ ↔ Prog.wp (do
        withdraw rollback name (n.containers name).isSome
        raise .dockerError) (fun b s' => Prog.wp (k b) Q E s') E (leftover name extent (aside fate name n))
    rw [Prog.wp_bind]
    exact Iff.rfl
  · unfold waitSshReady act
    rw [Prog.wp_bind]
    cases hf : fate .ready with
    | done =>
      rw [trial_done (show heard fate .ready = .done from hf), wp_attempt_done, if_pos hanswers]
      exact hk
    | fails extent =>
      rw [trial_fails (show heard fate .ready = .fails extent from hf), wp_attempt_fails]
      simp only [id_eq, ite_self]
      exact Prog.wp_bind _ _
    | dies extent =>
      rw [trial_dies (show heard fate .ready = .dies extent from hf), wp_attempt_dies]
      simp only [id_eq, ite_self]
      exact Iff.rfl

/-- The students: where one of them fails, the handler puts the container back. -/
theorem wp_students {k : Unit → Handler Unit} (hk : Prog.wp (k ()) Q E (aside fate name n) ↔
      Trial (heard fate) (StopsWith fate rollback lab name E n) ends steps) :
    Prog.wp (students.forM (fun username =>
        rescue (check (fate (.prepare username)) .storageError) fun _ => do
          restore rollback name (n.containers name).isSome
          raise .dockerError) >>= k) Q E (aside fate name n) ↔
      Trial (heard fate) (StopsWith fate rollback lab name E n) ends
        (students.map .prepare ++ steps) := by
  induction students with
  | nil => exact hk
  | cons username students ih =>
      rw [Prog.wp_bind] at ih
      rw [Prog.wp_bind, Prog.wp_forM_cons, wp_rescue, wp_check, List.map_cons, List.cons_append]
      cases hf : fate (.prepare username) with
      | done =>
        rw [trial_done (show heard fate (.prepare username) = .done from hf)]
        exact ih
      | fails extent =>
        rw [trial_fails (show heard fate (.prepare username) = .fails extent from hf)]
        exact Prog.wp_bind _ _
      | dies extent =>
        rw [trial_dies (show heard fate (.prepare username) = .dies extent from hf)]
        exact Iff.rfl

/-- Moving the container aside. -/
theorem wp_setAside {k : Unit → Handler Unit} (hsome : (n.containers name).isSome)
    (hk : Prog.wp (k ()) Q E (aside fate name n) ↔
      Trial (heard fate) (StopsWith fate rollback lab name E n) ends steps) :
    Prog.wp (setAside fate name >>= k) Q E n ↔
      Trial (heard fate) (StopsWith fate rollback lab name E n) ends (.stop ::
        ((if (n.containers (preserved name)).isSome then [.removeStale] else []) ++
          .rename :: steps)) := by
  have hrename : Prog.wp (renameContainer (fate .rename) name (preserved name) >>= k) Q E
      (cleared fate name n) ↔
      Trial (heard fate) (StopsWith fate rollback lab name E n) ends (.rename :: steps) := by
    obtain ⟨c, hc⟩ := Option.isSome_iff_exists.mp hsome
    obtain ⟨running, hc'⟩ := stopped_name fate hc
    refine wp_act_step ?_ rfl (fun f hf hnot => Iff.rfl) ?_
    · rw [cleared_name, cleared_preserved, hc']
      rfl
    · unfold aside at hk
      rwa [if_pos hsome] at hk
  have hclear : Prog.wp (do
        removeContainer (fate .removeStale) (preserved name)
        let x ← renameContainer (fate .rename) name (preserved name)
        k x) Q E (stopped fate name n) ↔
      Trial (heard fate) (StopsWith fate rollback lab name E n) ends
        ((if (n.containers (preserved name)).isSome then [.removeStale] else []) ++
          .rename :: steps) := by
    by_cases hstale : (n.containers (preserved name)).isSome
    · rw [if_pos hstale]
      refine wp_remove_step (by rwa [stopped_preserved]) rfl (fun f hf hnot => Iff.rfl) ?_
      unfold cleared at hrename
      rwa [if_pos hstale] at hrename
    · have hnone : (stopped fate name n).containers (preserved name) = none := by
        rw [stopped_preserved]
        exact Option.not_isSome_iff_eq_none.mp hstale
      rw [if_neg hstale, wp_remove_nothing hnone]
      unfold cleared at hrename
      rwa [if_neg hstale] at hrename
  unfold setAside stopContainer act
  simp only [bind_assoc]
  rw [Prog.wp_bind]
  unfold stopped reached at hclear
  cases hf : fate .stop with
  | done =>
    rw [trial_done (show heard fate .stop = .done by simp [heard, hf]), wp_attempt_done, if_pos hsome]
    rw [hf] at hclear
    exact hclear
  | fails extent =>
    rw [trial_done (show heard fate .stop = .done by simp [heard, hf]), wp_attempt_fails,
      if_pos hsome]
    rw [hf] at hclear
    exact hclear
  | dies extent =>
    rw [trial_dies (show heard fate .stop = .dies extent by simp [heard, hf]), wp_attempt_dies,
      if_pos hsome]
    unfold StopsWith stopped reached
    rw [hf]

/-- **A call is its steps**: it goes through all of them and leaves the candidate, or it stops at the
first one that does not go through. -/
theorem wp_recreate : Prog.wp (recreateContainer fate rollback lab name students) Q E n ↔
    Trial (heard fate) (StopsWith fate rollback lab name E n)
      (Q () ((promoted fate name n).recordAptUpgrade lab 0))
      (recreateSteps (n.containers name).isSome (n.containers (preserved name)).isSome students) := by
  have hrest : Prog.wp (do
        check (fate .lookup) .zfsError
        check (fate .list) .zfsError
        students.forM fun username =>
          rescue (check (fate (.prepare username)) .storageError) fun _ => do
            restore rollback name (n.containers name).isSome
            raise .dockerError
        rescue (startCandidate fate name) fun _ => do
          withdraw rollback name (n.containers name).isSome
          raise .dockerError
        if (n.containers name).isSome then removeContainer (fate .promote) (preserved name)
        markUnpatched (fate .mark) lab) Q E (aside fate name n) ↔
      Trial (heard fate) (StopsWith fate rollback lab name E n)
        (Q () ((promoted fate name n).recordAptUpgrade lab 0))
        (.lookup :: .list :: (students.map .prepare ++ .run :: .ready ::
          ((if (n.containers name).isSome then [.promote] else []) ++ [.mark]))) := by
    refine wp_check_at rfl (fun f hf hnot => Iff.rfl) ?_
    refine wp_check_at rfl (fun f hf hnot => Iff.rfl) ?_
    exact wp_students (wp_candidate wp_finish)
  unfold recreateContainer recreateSteps
  simp only [List.cons_append, List.nil_append, List.append_assoc]
  refine wp_check_at rfl (fun f hf hnot => Iff.rfl) ?_
  refine wp_check_at rfl (fun f hf hnot => Iff.rfl) ?_
  refine wp_check_at rfl (fun f hf hnot => Iff.rfl) ?_
  refine wp_check_at rfl (fun f hf hnot => Iff.rfl) ?_
  unfold containerExists
  rw [Prog.wp_bind, Prog.wp_read]
  by_cases hsome : (n.containers name).isSome
  · simp only [if_pos hsome, List.cons_append, List.append_assoc, List.nil_append] at hrest ⊢
    exact wp_setAside hsome hrest
  · unfold aside at hrest
    simp only [if_neg hsome, List.nil_append] at hrest ⊢
    exact hrest

theorem aside_nextId : (aside fate name n).nextId = n.nextId := by
  have hstop : (stopped fate name n).nextId = n.nextId := by
    unfold stopped
    rcases reached_cases (Node.setRunning name false) (fate .stop) n with h | h <;> rw [h]
    rfl
  unfold aside cleared
  split
  · split <;> exact hstop
  · rfl

end

/-! ## Where the container comes back -/

/-- The stop did not go through, and stopped nothing. -/
def StopIdle (fate : RecreateStep → Fate Extent) : Prop :=
  match fate .stop with
  | .done => False
  | .fails extent => extent.acted = false
  | .dies extent => extent.acted = false

/-- Where a call may stop so that the container `previous` runs under the name: before it touched it, or
where a handler puts it back. A call that dies does not raise. -/
def Covered (fate : RecreateStep → Fate Extent) (n : Node) (name : String) (previous : Nat)
    (step : RecreateStep) : Fate Extent → Prop
  | .done | .dies _ => True
  | .fails extent =>
    match step with
    | .options | .mounts | .nodeReady | .image => n.Runs name previous
    | .removeStale => n.Runs name previous ∧ StopIdle fate
    | .rename => n.Runs name previous ∧ StopIdle fate ∧ extent.acted = false
    | .prepare _ | .run | .ready => n.Holds name previous
    | .stop => True
    | .lookup | .list | .promote | .mark => False

/-- The first step that does not go through is one where the container is or comes back, if there is
such a step at all. -/
def Recovers (fate : RecreateStep → Fate Extent) (n : Node) (name : String) (students : List String)
    (previous : Nat) : Prop :=
  Trial (heard fate) (Covered fate n name previous) True
    (recreateSteps (n.containers name).isSome (n.containers (preserved name)).isSome students)

/-- The commands of the handlers go through. -/
abbrev rollsBack : RollbackStep → Fate Extent := fun _ => .done

/-- Where a call raises, the container runs under the name. -/
def KeptIfRaised (name : String) (previous : Nat) : Fault HandlerError → Node → Prop
  | .raised _, n => n.Runs name previous
  | .died, _ => True

section

variable {fate : RecreateStep → Fate Extent} {n : Node} {name lab : String} {previous : Nat}
variable {students : List String} {hadOld : Bool} {E : Fault HandlerError → Node → Prop}

/-- The handlers put back what is preserved, if there was something under the name. -/
theorem wp_restore (hname : n.containers name = none) (hsome : hadOld = true →
      (n.containers (preserved name)).isSome) :
    Prog.wp (restore rollsBack name hadOld) (fun _ n' => n'.Runs name previous) E n ↔
      hadOld = true ∧ n.Holds (preserved name) previous := by
  unfold restore containerExists renameContainer startContainer act
  cases hadOld with
  | false =>
    simp only [Prog.wp_bind, Prog.wp_read, Prog.wp_pure, Bool.false_and, Bool.false_eq_true, if_false,
      false_and, iff_false]
    simp [Node.Runs, hname]
  | true =>
    obtain ⟨⟨q, running⟩, hc⟩ := Option.isSome_iff_exists.mp (hsome rfl)
    have hback := Node.containers_rename_new (n := n) (preserved_ne name).symm
    rw [hc] at hback
    simp only [Prog.wp_bind, Prog.wp_read, Prog.wp_ite, wp_checked, wp_attempt_done, hc, hname, hback,
      Option.isSome_some, Option.isNone_none, Bool.true_and, if_true, true_and,
      Node.containers_setRunning_self, Node.Runs, Node.Holds, Option.map_some, Option.some.injEq,
      Container.mk.injEq, and_true, exists_and_left, exists_eq']

/-- The same where the candidate is in the way. -/
theorem wp_withdraw (hsome : hadOld = true → (n.containers (preserved name)).isSome) :
    Prog.wp (withdraw rollsBack name hadOld) (fun _ n' => n'.Runs name previous) E n ↔
      hadOld = true ∧ n.Holds (preserved name) previous := by
  unfold withdraw removeContainer containerExists act
  rw [Prog.wp_bind, wp_rescue, Prog.wp_bind, Prog.wp_read, Prog.wp_ite]
  by_cases hname : (n.containers name).isSome
  · have hkept : (n.remove name).containers (preserved name) = n.containers (preserved name) :=
      Node.containers_remove_of_ne (preserved_ne name)
    rw [if_pos hname, wp_checked, wp_attempt_done, if_pos hname, if_pos rfl,
      wp_restore Node.containers_remove_self (fun h => hkept ▸ hsome h), Node.Holds, Node.Holds,
      hkept]
  · rw [if_neg hname, Prog.wp_pure, wp_restore (Option.not_isSome_iff_eq_none.mp hname) hsome]

/-- After the stop the container runs only if the stop was idle. -/
theorem stopped_runs : (stopped fate name n).Runs name previous ↔
    n.Runs name previous ∧ StopIdle fate := by
  have hnot : ¬ (n.setRunning name false).Runs name previous := by
    rw [Node.Runs, Node.containers_setRunning_self]
    cases n.containers name <;> simp
  unfold stopped reached StopIdle
  cases fate .stop with
  | done => exact iff_of_false hnot And.right
  | fails extent => cases hacted : extent.acted <;> simp [hnot, hacted]
  | dies extent => cases hacted : extent.acted <;> simp [hnot, hacted]

theorem cleared_runs : (cleared fate name n).Runs name previous ↔
    n.Runs name previous ∧ StopIdle fate := by
  rw [Node.Runs, cleared_name]
  exact stopped_runs

theorem not_runs_aside : ¬ (aside fate name n).Runs name previous := by
  rw [Node.Runs, aside_name]
  exact nofun

/-- With the candidate under the name the container is not. -/
theorem not_runs_renewed (hnext : previous < n.nextId) :
    ¬ (renewed fate name n).Runs name previous := by
  rw [Node.Runs, renewed_name, aside_nextId]
  intro h
  simp only [Option.some.injEq, Container.mk.injEq, and_true] at h
  omega

theorem not_runs_promoted (hnext : previous < n.nextId) :
    ¬ (promoted fate name n).Runs name previous := by
  have hnot : ¬ (renewed fate name n).Runs name previous := not_runs_renewed hnext
  unfold promoted
  split
  · rwa [Node.Runs, Node.containers_remove_of_ne (preserved_ne name).symm]
  · exact hnot

theorem runs_reached_remove {f : Fate Extent} : (reached (Node.remove (preserved name)) f n).Runs name
    previous ↔ n.Runs name previous := by
  rcases reached_cases (Node.remove (preserved name)) f n with h | h
  · rw [h, Node.Runs, Node.Runs, Node.containers_remove_of_ne (preserved_ne name).symm]
  · rw [h]

/-- What was under the name is what the handlers find preserved. -/
theorem holds_iff_aside : n.Holds name previous ↔ (n.containers name).isSome = true ∧
    (aside fate name n).Holds (preserved name) previous := by
  cases hc : n.containers name with
  | none => simp [Node.Holds, hc]
  | some c =>
    obtain ⟨running, hold⟩ := aside_preserved fate hc
    obtain ⟨q, r⟩ := c
    simp [Node.Holds, hc, hold]

theorem aside_isSome (hsome : (n.containers name).isSome = true) :
    ((aside fate name n).containers (preserved name)).isSome := by
  obtain ⟨c, hc⟩ := Option.isSome_iff_exists.mp hsome
  obtain ⟨running, hold⟩ := aside_preserved fate hc
  rw [hold]
  rfl

theorem leftover_preserved {extent : Extent} :
    (leftover name extent n).containers (preserved name) = n.containers (preserved name) := by
  unfold leftover
  split
  · exact Node.containers_create_of_ne (preserved_ne name)
  · rfl

/-- What a call leads to that stops at a step. -/
theorem stopsWith_iff_covered (hnext : previous < n.nextId) {step : RecreateStep} {f : Fate Extent}
    (hnot : f ≠ .done) (hstop : step = .stop → ∃ extent, f = .dies extent) :
    StopsWith fate rollsBack lab name (KeptIfRaised name previous) n step f ↔
      Covered fate n name previous step f := by
  cases f with
  | done => exact absurd rfl hnot
  | dies extent => cases step <;> exact Iff.rfl
  | fails extent =>
    cases step with
    | options | mounts | nodeReady | image => exact Iff.rfl
    | stop =>
      obtain ⟨extent', h⟩ := hstop rfl
      cases h
    | removeStale => exact runs_reached_remove.trans stopped_runs
    | rename =>
      show (if extent.acted then (cleared fate name n).rename name (preserved name)
        else cleared fate name n).Runs name previous ↔ _
      cases hacted : extent.acted with
      | true =>
        have hgone : ¬ ((cleared fate name n).rename name (preserved name)).Runs name previous := by
          rw [Node.Runs, Node.containers_rename_old]
          exact nofun
        exact iff_of_false hgone fun h => absurd (hacted.symm.trans h.2.2) nofun
      | false => exact cleared_runs.trans ⟨fun h => ⟨h.1, h.2, hacted⟩, fun h => ⟨h.1, h.2.1⟩⟩
    | lookup | list => exact iff_of_false not_runs_aside id
    | prepare username =>
      exact (wp_restore aside_name aside_isSome).trans holds_iff_aside.symm
    | run =>
      have hsame : (leftover name extent (aside fate name n)).containers (preserved name) =
          (aside fate name n).containers (preserved name) := leftover_preserved
      refine (wp_withdraw fun hsome => hsame ▸ aside_isSome hsome).trans ?_
      rw [Node.Holds, hsame]
      exact holds_iff_aside.symm
    | ready =>
      refine (wp_withdraw fun hsome => renewed_preserved ▸ aside_isSome hsome).trans ?_
      rw [Node.Holds, renewed_preserved]
      exact holds_iff_aside.symm
    | promote => exact iff_of_false (fun h => not_runs_renewed hnext (runs_reached_remove.mp h)) id
    | mark =>
      have hpromoted : ¬ (promoted fate name n).Runs name previous := not_runs_promoted hnext
      refine iff_of_false (fun h => hpromoted ?_) id
      have h' : (reached (Node.recordAptUpgrade lab 0) (.fails extent)
        (promoted fate name n)).Runs name previous := h
      rcases reached_cases (Node.recordAptUpgrade lab 0) (.fails extent) (promoted fate name n) with
        hreached | hreached
      · rwa [hreached] at h'
      · rwa [hreached] at h'

end

/-! ## Crashed calls -/

/-- A call for the lab that dies, whatever its parameters and wherever it dies. -/
def Crashes (lab name : String) (n n' : Node) : Prop :=
  ∃ fate rollback students,
    (recreateContainer fate rollback lab name students).run n = (.error .died, n')

/-- Ids are given out in order. -/
def Node.Ages (n n' : Node) : Prop := n.nextId ≤ n'.nextId

instance : IsPreorder Node Node.Ages where
  refl n := Nat.le_refl n.nextId
  trans _ _ _ h h' := Nat.le_trans h h'

theorem movesAside_ages {name : String} : MovesAside Node.Ages name where
  remove _ := Nat.le_refl _
  create _ _ := Nat.le_succ _
  setRunning _ _ := Nat.le_refl _
  clear _ := Nat.le_refl _
  aside _ := Nat.le_refl _
  back _ := Nat.le_refl _

theorem Crashes.ages {lab name : String} {n n' : Node} (h : Crashes lab name n n') : n.Ages n' := by
  obtain ⟨fate, rollback, students, hrun⟩ := h
  have hages : n.Ages ((recreateContainer fate rollback lab name students).run n).2 :=
    respects_recreate movesAside_ages (fun _ => Nat.le_refl _) n
  rwa [hrun] at hages

/-- A node with the container of one lab. -/
def bioNode : Node where
  containers name := if name = "bio-n" then some ⟨0, true⟩ else none
  nextId := 1
  lastAptUpgrade _ := none
  fresh name c hc := by
    by_cases hname : name = "bio-n"
    · rw [if_pos hname] at hc
      obtain rfl := Option.some.inj hc
      exact Nat.zero_lt_one
    · rw [if_neg hname] at hc
      cases hc

/-- One step fails, the others go through. -/
def failing (step : RecreateStep) : RecreateStep → Fate Extent :=
  fun s => if s = step then .fails {} else .done

end MassDeployment.Agent

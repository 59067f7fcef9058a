import MassDeployment.Controller.PiRoster
import MassDeployment.Lib.Refusal

set_option autoImplicit false

/-! # Refused operations

The operations of the admin pages check their input and throw an `Error` with a text for the
form. None of them runs in a transaction as a whole, so whether a refusal leaves a trace
depends on where the checks stand. They stand before the first write, but for one: the form
that designates a PI creates the student before it finds out that the lab has another PI.
-/

namespace MassDeployment

open Js Prog

/-- The refusals of the code itself: `throw new Error(…)`. -/
def Error.Refusal (e : Error) : Prop := ∃ message, e = .error message

/-- Every table and every queue is what it was. -/
structure Untouched (s s' : Controller) : Prop where
  db : s'.db = s.db
  queues : s'.queues = s.queues

instance : IsPreorder Controller Untouched where
  refl _ := ⟨rfl, rfl⟩
  trans _ _ _ h h' := ⟨h'.db.trans h.db, h'.queues.trans h.queues⟩

/-! ## What follows the checks -/

/-- A refusal is not what the database throws. -/
theorem not_refusal_sqlite (message : String) : ¬ Error.Refusal (.sqliteError message) := nofun

theorem spares_update {ρ : Type} [Row ρ] (t : Slot ρ) (p : ρ → Bool) (f : ρ → ρ)
    (h : Row.Keeps p f) : Spares Error.Refusal (t.update p f h) := .write _ _

theorem spares_delete {ρ : Type} [Row ρ] (t : Slot ρ) (p : ρ → Bool) :
    Spares Error.Refusal (t.delete p) := .write _ _

theorem spares_insert {ρ : Type} [Row ρ] (t : Slot ρ) (mk : Nat → ρ)
    (hmk : ∀ i, Row.id (mk i) = i) : Spares Error.Refusal (t.insert mk hmk) := by
  refine .exchange fun s e h => ?_
  split at h
  · cases h
  · cases h
    exact not_refusal_sqlite _

theorem spares_draw {α : Type} (f : Host → Nat → α) : Spares Error.Refusal (Op.draw f) :=
  .exchange fun _ _ h => nomatch h

theorem spares_audit (actor : Option String) (action : String) (target detail : Option String) :
    Spares Error.Refusal (audit actor action target detail) :=
  .bind (.read _) fun _ => .write _ _

theorem spares_enqueueTask (node : String) (action : Action) (params : Params)
    (requestedBy : Option String) :
    Spares Error.Refusal (enqueueTask node action params requestedBy) := by
  intro s e h
  simp only [enqueueTask] at h
  split at h
  · cases h
  · cases h
    exact not_refusal_sqlite _

theorem spares_touch (placementId : Nat) : Spares Error.Refusal (touch placementId) :=
  .bind (.read _) fun _ => spares_update _ _ _ _

theorem spares_insertMember (placementId studentId : Nat) (secret : String) :
    Spares Error.Refusal (insertMember placementId studentId secret) := by
  refine .bind (.read _) fun s => ?_
  split
  · exact .bind (spares_insert _ _ _) fun _ => .pure _
  · exact .throw (not_refusal_sqlite _)

theorem spares_insertLabMember (labId studentId : Nat) :
    Spares Error.Refusal (insertLabMember labId studentId) := by
  refine .bind (.read _) fun s => ?_
  split
  · exact .bind (spares_insert _ _ _) fun _ => .pure _
  · exact .throw (not_refusal_sqlite _)

theorem spares_provisionMember (placement : Placement) (student : ProvisionStudent)
    (actor : Option String) :
    Spares Error.Refusal (provisionMemberOnPlacement placement student actor) := by
  refine .bind (.read _) fun existing => .ite (.pure _) ?_
  refine .bind (spares_draw _) fun password => .bind (spares_draw _) fun secret => ?_
  refine .bind (spares_insertMember _ _ _) fun _ => ?_
  exact .bind (spares_enqueueTask _ _ _ _) fun _ => .pure _

theorem spares_provisionRoster (placement : Placement) (students : List ProvisionStudent)
    (actor : Option String) :
    Spares Error.Refusal (provisionRoster placement students actor) := by
  cases students with
  | nil => exact .pure _
  | cons student rest => exact .bind (spares_provisionMember _ _ _) fun _ => .pure _

theorem spares_provisionOn (placements : List Placement) (student : ProvisionStudent)
    (actor : Option String) : Spares Error.Refusal (provisionOn placements student actor) := by
  cases placements with
  | nil => exact .pure _
  | cons placement rest => exact .bind (spares_provisionMember _ _ _) fun _ => .pure _

theorem spares_reprovisionMembers (placement : Placement) (actor : Option String) :
    Spares Error.Refusal (reprovisionPlacementMembers placement actor) := by
  refine .bind (.read _) fun members => .forM _ fun m => ?_
  refine .bind (spares_draw _) fun password => .bind (spares_draw _) fun secret => ?_
  refine .bind (.read _) fun now => .bind (spares_update _ _ _ _) fun _ => ?_
  exact .bind (spares_enqueueTask _ _ _ _) fun _ => .pure _

theorem spares_deletePlacements (victim : PlacementRow → Bool) :
    Spares Error.Refusal (deletePlacements victim) := by
  refine .bind (.read _) fun ids => .bind (spares_delete _ _) fun _ => ?_
  exact .bind (spares_delete _ _) fun _ => .write _ _

theorem spares_removeMember (placement : Placement) (studentId : Nat) (username : String)
    (deleteData : Bool) (actor : Option String) (removal : Option (String × List String)) :
    Spares Error.Refusal
      (removeMemberFromPlacement placement studentId username deleteData actor removal) :=
  .bind (spares_enqueueTask _ _ _ _) fun _ => spares_delete _ _

theorem spares_suspend (waiting : Thread) : Spares Error.Refusal (suspend waiting) :=
  .ite (.pure _) (.write _ _)

/-! ## The checks -/

theorem untouched_validateContainerConfig (image : String) (opts : ContainerOptions) :
    Respects Untouched (validateContainerConfig image opts) := by
  unfold validateContainerConfig
  iterate 6 refine .ite (fun _ => .throw _) fun _ => ?_
  exact .pure _

theorem untouched_checkSmbClient (labId : Nat) (node : NodeRow) :
    Respects Untouched (checkSmbClient labId node) := by
  unfold checkSmbClient
  dsimp only
  split
  · exact .throw _
  · refine .bind (.read _) fun owner => ?_
    split
    · exact .throw _
    · refine .bind (.read _) fun ownerPlacement => ?_
      split
      · exact .throw _
      · refine .ite (fun _ => .throw _) fun _ => .ite (fun _ => .throw _) fun _ => ?_
        exact .ite (fun _ => .throw _) fun _ => .pure _

theorem untouched_checkColdStorage (input : CreatePlacementInput) (node : NodeRow) :
    Respects Untouched (createPlacement.checkColdStorage input node) := by
  refine .ite (fun _ => untouched_checkSmbClient _ _) fun _ => ?_
  exact .ite (fun _ => .throw _) fun _ => .pure _

theorem untouched_assertNoSmbDependents (p : Placement) :
    Respects Untouched (assertNoSmbDependents p) := by
  refine .ite (fun _ => .pure _) fun _ => .bind (.read _) fun dependents => ?_
  exact .ite (fun _ => .pure _) fun _ => .throw _

theorem untouched_coldOwner (name : String) (backend : ColdBackend) (ownerName : Option String)
    (node : NodeRow) :
    Respects Untouched (setNodeColdStorage.coldOwner name backend ownerName node) := by
  unfold setNodeColdStorage.coldOwner
  split
  · exact .pure _
  · split
    · exact .throw _
    · refine .ite (fun _ => .throw _) fun _ => .bind (.read _) fun owner => ?_
      split
      · exact .throw _
      · refine .bind (.read _) fun dependents => .ite (fun _ => .throw _) fun _ => ?_
        refine .ite (fun _ => .throw _) fun _ => .ite (fun _ => .throw _) fun _ => ?_
        exact .pure _

/-! ## The operations that check before they write -/

/-- A refusal of `x` changes neither a table nor a queue. -/
abbrev RefusesClean {α : Type} (x : Op α) : Prop := Prog.Refuses Error.Refusal Untouched x

theorem refuses_start {x : Op Thread} (hx : RefusesClean x) : RefusesClean (start x) :=
  hx.before spares_suspend

theorem refuses_createPlacement (input : CreatePlacementInput) (actor : Option String) :
    RefusesClean (createPlacement input actor) := by
  refine .read fun node => ?_
  cases node with
  | none => exact .throw _
  | some node =>
      refine .after (untouched_validateContainerConfig _ _) fun _ => ?_
      refine .after (untouched_checkColdStorage _ _) fun _ => ?_
      refine .ite (.throw _) (.ite (.throw _) (.read fun now => Spares.refuses ?_))
      refine .bind ?_ fun id => .bind (.read _) fun placement => ?_
      · refine .bind (.read _) fun s => ?_
        split
        · exact spares_insert _ _ _
        · exact .throw (not_refusal_sqlite _)
      · cases placement with
        | none => exact .throw nofun
        | some placement =>
            refine .bind (.bind (spares_enqueueTask _ _ _ _) fun _ => .pure _) fun _ => ?_
            refine .bind (spares_audit _ _ _ _) fun _ => .bind (.read _) fun roster => ?_
            exact spares_provisionRoster _ _ _

theorem refuses_updatePlacementQuota (placementId : Nat) (fastQuotaBytes : Option Int)
    (coldQuotaBytes : Option (Option Int)) (actor : Option String) :
    RefusesClean (updatePlacementQuota placementId fastQuotaBytes coldQuotaBytes actor) := by
  refine .read fun p => ?_
  cases p with
  | none => exact .throw _
  | some p =>
      refine .read fun capacity => .ite (.throw _) (.ite (.throw _) (Spares.refuses ?_))
      refine .bind (.optionForM _ fun q => spares_update _ _ _ _) fun _ => ?_
      refine .bind (.optionForM _ fun q => spares_update _ _ _ _) fun _ => ?_
      refine .bind (spares_touch _) fun _ => .bind (spares_enqueueTask _ _ _ _) fun _ => ?_
      exact .bind (.read _) fun _ => spares_audit _ _ _ _

theorem refuses_recreatePlacement (placementId : Nat) (input : RecreateInput)
    (actor : Option String) : RefusesClean (recreatePlacement placementId input actor) := by
  refine .read fun p => ?_
  cases p with
  | none => exact .throw _
  | some p =>
      refine .after (untouched_validateContainerConfig _ _) fun _ => ?_
      refine .ite (.throw _) (.ite (.throw _) (.ite (.throw _) (Spares.refuses ?_)))
      refine .bind (spares_update _ _ _ _) fun _ => .bind (spares_touch _) fun _ => ?_
      refine .bind (spares_update _ _ _ _) fun _ => .bind (.read _) fun fresh => ?_
      cases fresh with
      | none => exact .throw nofun
      | some fresh =>
          refine .bind (spares_enqueueTask _ _ _ _) fun _ => ?_
          exact .bind (spares_reprovisionMembers _ _) fun _ => spares_audit _ _ _ _

theorem refuses_retryPlacement (placementId : Nat) (actor : Option String) :
    RefusesClean (retryPlacement placementId actor) := by
  refine .read fun p => ?_
  cases p with
  | none => exact .throw _
  | some p =>
      refine .ite (.throw _) (.read fun now => Spares.refuses ?_)
      refine .bind (spares_update _ _ _ _) fun _ => ?_
      refine .bind (.bind (spares_enqueueTask _ _ _ _) fun _ => .pure _) fun _ => ?_
      exact spares_audit _ _ _ _

theorem refuses_destroyPlacement (placementId : Nat) (actor : Option String) :
    RefusesClean (destroyPlacement placementId actor) := by
  refine .read fun p => ?_
  cases p with
  | none => exact Prog.Refuses.of_respects (.pure _)
  | some p =>
      refine .after (untouched_assertNoSmbDependents p) fun _ => .read fun now => ?_
      refine Spares.refuses (.bind (spares_update _ _ _ _) fun _ => ?_)
      exact .bind (spares_enqueueTask _ _ _ _) fun _ => spares_audit _ _ _ _

theorem refuses_forceDeletePlacement (placementId : Nat) (actor : Option String) :
    RefusesClean (forceDeletePlacement placementId actor) := by
  refine .read fun p => ?_
  cases p with
  | none => exact Prog.Refuses.of_respects (.pure _)
  | some p =>
      refine .ite (.throw _) (.after (untouched_assertNoSmbDependents p) fun _ => ?_)
      refine Spares.refuses (.bind (spares_enqueueTask _ _ _ _) fun _ => ?_)
      exact .bind (spares_deletePlacements _) fun _ => spares_audit _ _ _ _

theorem refuses_removeStudentFromLab (labId studentId : Nat) (deleteData : Bool)
    (actor : Option String) :
    RefusesClean (removeStudentFromLab labId studentId deleteData actor) := by
  refine .read fun lab => ?_
  cases lab with
  | none => exact .throw _
  | some lab =>
      refine .ite (.throw _) (.read fun member => ?_)
      cases member with
      | none => exact .throw _
      | some member =>
          refine .read fun placements => Spares.refuses ?_
          refine .bind (.ite (.bind (spares_draw _) fun _ => .pure _) (.pure _)) fun removal => ?_
          refine .bind (.forM _ fun p => spares_removeMember _ _ _ _ _ _) fun _ => ?_
          refine .bind (spares_delete _ _) fun _ => .bind (spares_audit _ _ _ _) fun _ => ?_
          unfold removeStudentFromLab.notify
          split
          · exact .ite (.pure _) (.write _ _)
          · exact .pure _

theorem refuses_setNodeColdStorage (name : String) (backend : ColdBackend)
    (ownerName actor : Option String) :
    RefusesClean (setNodeColdStorage name backend ownerName actor) := by
  refine .read fun node => ?_
  cases node with
  | none => exact .throw _
  | some node =>
      refine .read fun placementCount => .ite (.throw _) ?_
      refine .after (untouched_coldOwner _ _ _ _) fun ownerId => Spares.refuses ?_
      exact .bind (spares_update _ _ _ _) fun _ => spares_audit _ _ _ _

theorem refuses_deleteNode (name : String) (actor : Option String) (force : Bool) :
    RefusesClean (deleteNode name actor force) := by
  refine .read fun row => ?_
  cases row with
  | none => exact .throw _
  | some row =>
      refine .ite (.throw _) (.read fun placementCount => .read fun dependents => ?_)
      refine .ite (.throw _) (.ite (.throw _) (Prog.Refuses.before (.atomically _) fun _ => ?_))
      exact spares_audit _ _ _ _

/-! ## The operations that may create a student first -/

/-- The students that rosters and labs name are there. -/
structure Db.StudentKeys (d : Db) : Prop where
  roster : d.RosterKeys
  pi : ∀ l ∈ d.labs.rows, ∀ sid, l.piStudentId = some sid → ∃ r ∈ d.students.rows, r.id = sid

theorem Db.Enrolled.studentKeys {d : Db} (h : d.Enrolled) : d.StudentKeys where
  roster := h.roster
  pi l hl sid hsid := by
    obtain ⟨m, hm, _, hms⟩ := Db.isMember_eq_true.mp (h.pi l hl sid hsid)
    obtain ⟨r, hr, hid⟩ := h.roster m hm
    exact ⟨r, hr, hid.trans hms⟩

/-- The input means no student yet, and a student can be created from it. -/
structure StudentInput.Creates (input : StudentInput) (s : Controller) : Prop where
  unknown : s.db.knownStudent s.host input = none
  uid : s.db.freeUids ≠ []
  studentId : ∀ sid, input.studentId = some sid →
    ∀ r ∈ s.db.students.rows, r.studentId ≠ some sid

/-- The id of a new student is new. -/
theorem fresh_student {T T' : Table StudentRow} {r : StudentRow} (h : T'.rows = T.rows ++ [r]) :
    ∀ r' ∈ T.rows, r'.id ≠ r.id := by
  intro r' hr' heq
  have hsorted := T'.sorted
  rw [h, List.pairwise_append] at hsorted
  exact absurd heq (Nat.ne_of_lt (hsorted.2.2 r' hr' r (List.mem_singleton_self _)))

/-- **A student is created from exactly those inputs.** -/
theorem findOrCreateStudent_cases (input : StudentInput) (s : Controller) :
    (input.Creates s ∧ ∃ r T, (findOrCreateStudent input).run s = (.ok r, Slot.students.set s T) ∧
      T.rows = s.db.students.rows ++ [r]) ∨
    (¬ input.Creates s ∧ ((findOrCreateStudent input).run s).2 = s) := by
  cases hk : s.db.knownStudent s.host input with
  | some r =>
      refine .inr ⟨fun h => ?_, by rw [(findOrCreateStudent_known hk).1]⟩
      cases hk.symm.trans h.unknown
  | none =>
      by_cases hnew : input.Creates s
      · have hname := Db.studentByName_eq_none.mp (Db.knownStudent_eq_none hk).2
        rcases insertStudent_run (normalizeEmail s.host input.email) input.name hname
          hnew.studentId with ⟨hnone, _⟩ | ⟨_, _, r, T, _, hrun, hrows, _⟩
        · exact absurd hnone hnew.uid
        · refine .inl ⟨hnew, r, T, ?_, hrows⟩
          rw [findOrCreateStudent_run hk, run_atomically, hrun]
      · refine .inr ⟨hnew, ?_⟩
        rcases findOrCreateStudent_unknown hk with ⟨e, hrun⟩ | ⟨r, T, hrun, hrows, huid, hsid, _⟩
        · rw [hrun]
        · -- the table would not have taken the row
          refine absurd ⟨hk, List.ne_nil_of_mem huid, fun sid hinput r' hr' heq => ?_⟩ hnew
          have hclash : Row.clash r' r :=
            .inr (.inr ⟨heq.trans (hinput.symm.trans hsid.symm), by rw [heq]; nofun⟩)
          refine fresh_student hrows r' hr' ?_
          have hsame : r' = r := T.eq_of_clash (hrows ▸ List.mem_append_left _ hr')
            (hrows ▸ List.mem_append_right _ (List.mem_singleton_self _)) hclash
          rw [hsame]

/-- A new student is on no roster. -/
theorem Db.StudentKeys.fresh_member {d : Db} (h : d.StudentKeys) {T : Table StudentRow}
    {r : StudentRow} (hrows : T.rows = d.students.rows ++ [r]) (labId : Nat) :
    d.isMember labId r.id = false := by
  refine Bool.eq_false_iff.mpr fun hmember => ?_
  obtain ⟨m, hm, _, hms⟩ := Db.isMember_eq_true.mp hmember
  obtain ⟨r', hr', hid⟩ := h.roster m hm
  exact fresh_student hrows r' hr' (hid.trans hms)

/-- **A new student is not refused**, so its creation is no trace of a refusal. -/
theorem refuses_addStudentToLab (labId : Nat) (student : StudentInput) (actor : Option String)
    {s : Controller} (hs : s.db.StudentKeys) {e : Js.Error}
    (h : ((addStudentToLab labId student actor).run s).1 = .error e) (he : Error.Refusal e) :
    Untouched s ((addStudentToLab labId student actor).run s).2 := by
  have henrolls : ∀ (lab : LabRow) (record : StudentRow), Spares Error.Refusal (do
      insertLabMember labId record.id
      audit actor "member.add" (some s!"{lab.name}/{record.username}") none
      let placements ← Op.query fun d => d.listPlacements labId
      provisionOn placements (.ofRow record) actor : Op Thread) := fun lab record =>
    .bind (spares_insertLabMember _ _) fun _ => .bind (spares_audit _ _ _ _) fun _ =>
      .bind (.read _) fun _ => spares_provisionOn _ _ _
  unfold addStudentToLab at h ⊢
  rw [Op.query, run_read_bind] at h ⊢
  cases hlab : s.db.labs.get labId with
  | none => exact ⟨rfl, rfl⟩
  | some lab =>
      rw [hlab] at h
      dsimp only at h ⊢
      rcases findOrCreateStudent_cases student s with ⟨_, r, T, hrun, hrows⟩ | ⟨_, hsame⟩
      · rw [run_bind_ok hrun, Op.query, run_read_bind] at h
        have hnot : (Slot.students.set s T).db.isMember labId r.id = false :=
          hs.fresh_member hrows labId
        rw [hnot, if_neg Bool.false_ne_true] at h
        exact absurd he (henrolls lab r _ e h)
      · refine Prog.Refuses.after_at (by rw [hsame]; exact refl_of Untouched s) (fun record => ?_) h he
        exact .read fun member => .ite (.throw _) (henrolls lab record).refuses

/-- The rest of `ensurePiAccess`, once the PI is known to be the one of the lab. -/
theorem spares_designate (labId : Nat) (lab : LabRow) (record : StudentRow)
    (email name actor : Option String) (now : Nat) : Spares Error.Refusal (do
      Slot.students.update (fun r => r.id == record.id)
        (fun r => { r with email := email, name := name, updatedAt := now })
        (keeps_student _ _ fun _ => ⟨rfl, rfl, rfl, rfl⟩)
      updateLab labId fun l =>
        { l with
          piStudentId := some record.id, piName := name, piEmail := email, updatedAt := now }
      ensurePiAccess.enroll labId record.id
      audit actor "pi.access.ensure" (some s!"{lab.name}/{record.username}") none
      let placements ← Op.query fun d => d.listPlacements labId
      provisionOn placements (.ofRow record) actor : Op Thread) := by
  refine .bind (spares_update _ _ _ _) fun _ => .bind (spares_update _ _ _ _) fun _ => ?_
  refine .bind (.bind (.read _) fun _ => .ite (.pure _) (spares_insertLabMember _ _)) fun _ => ?_
  refine .bind (spares_audit _ _ _ _) fun _ => .bind (.read _) fun _ => ?_
  exact spares_provisionOn _ _ _

/-- **The form creates a student for a lab that has another PI.** -/
structure StudentInput.Misnames (input : StudentInput) (labId : Nat) (s : Controller) : Prop where
  lab : ∃ lab, s.db.labs.get labId = some lab ∧ lab.piStudentId ≠ none
  named : s.host.trim input.username ≠ ""
  creates : input.Creates s

theorem ensurePiAccess_refuses (labId : Nat) (input : StudentInput) (actor : Option String)
    {s : Controller} (hs : s.db.StudentKeys) :
    (∀ e, ((ensurePiAccess labId input actor).run s).1 = .error e → Error.Refusal e →
      Untouched s ((ensurePiAccess labId input actor).run s).2) ↔ ¬ input.Misnames labId s := by
  unfold ensurePiAccess
  rw [Op.query, run_read_bind]
  cases hlab : s.db.labs.get labId with
  | none =>
      refine iff_of_true (fun e _ _ => ⟨rfl, rfl⟩) fun hmis => ?_
      obtain ⟨_, hget, _⟩ := hmis.lab
      cases hlab.symm.trans hget
  | some lab =>
      obtain ⟨hmem, _⟩ := Table.get_eq_some.mp hlab
      dsimp only
      rw [run_read_bind]
      by_cases hblank : s.host.trim input.username = ""
      · rw [if_pos hblank]
        exact iff_of_true (fun e _ _ => ⟨rfl, rfl⟩) fun hmis => hmis.named hblank
      · rw [if_neg hblank]
        rcases findOrCreateStudent_cases input s with ⟨hnew, r, T, hrun, hrows⟩ | ⟨hold, hsame⟩
        · rw [run_bind_ok hrun]
          cases hpi : lab.piStudentId with
          | none =>
              rw [Option.any_none, if_neg Bool.false_ne_true]
              refine iff_of_true (fun e h he => ?_) fun hmis => ?_
              · exact absurd he ((Spares.bind (.read _) fun now =>
                  spares_designate labId lab r _ _ actor now) _ e h)
              · obtain ⟨_, hget, hne⟩ := hmis.lab
                obtain rfl := Option.some.inj (hlab.symm.trans hget)
                exact hne hpi
          | some sid =>
              -- the new student is not the PI, so its creation is what the refusal leaves
              have hother : (Option.any (fun x => decide (x ≠ r.id)) (some sid)) = true := by
                obtain ⟨r', hr', hid⟩ := hs.pi lab hmem sid hpi
                rw [Option.any_some, decide_eq_true_eq, ← hid]
                exact fresh_student hrows r' hr'
              rw [if_pos hother]
              refine iff_of_false (fun h => ?_) fun hnot => hnot ⟨⟨lab, hlab, ?_⟩, hblank, hnew⟩
              · have hsame : T = s.db.students :=
                  congrArg Db.students (h _ rfl ⟨_, rfl⟩).db
                rw [hsame] at hrows
                simp at hrows
              · rw [hpi]
                exact Option.some_ne_none sid
        · refine iff_of_true (fun e h he => ?_) fun hmis => hold hmis.creates
          refine Prog.Refuses.after_at (by rw [hsame]; exact refl_of Untouched s) (fun record => ?_) h he
          exact .ite (.throw _) (.read fun now =>
            (spares_designate labId lab record _ _ actor now).refuses)

/-! ## All of them -/

/-- The operations that check their input. -/
def Act.Checks : Act → Prop
  | .createPlacement .. | .updatePlacementQuota .. | .recreatePlacement .. | .retryPlacement ..
  | .destroyPlacement .. | .forceDeletePlacement .. | .addStudentToLab .. | .ensurePiAccess ..
  | .removeStudentFromLab .. | .setNodeColdStorage .. | .deleteNode .. => True
  | _ => False

/-- The form that designates a PI is given a new student for a lab that has one. -/
def Act.Misnames (s : Controller) : Act → Prop
  | .ensurePiAccess labId input _ => input.Misnames labId s
  | _ => False

/-- What is left of these operations after an `await`. -/
def Await.Provisions : Await → Prop
  | .provisionRoster .. | .provisionOn .. => True
  | _ => False

/-- A call throws before its first `await`, or not at all. -/
theorem start_untouched (x : Op Thread) (s : Controller) :
    (∀ message, ((start x).run s).1 = .error (.error message) →
      Untouched s ((start x).after s)) ↔
    ∀ e, (x.run s).1 = .error e → Error.Refusal e → Untouched s (x.run s).2 := by
  have hsuspend : ∀ (waiting : Thread) (s : Controller),
      ((suspend waiting).run s).1 = .ok () := by
    intro waiting s
    unfold suspend
    split <;> rfl
  unfold start Prog.after
  rw [run_bind]
  rcases x.run s with ⟨e | waiting, s'⟩
  · rw [andThen_error]
    constructor
    · rintro h _ ⟨⟩ ⟨message, rfl⟩
      exact h message rfl
    · rintro h message ⟨⟩
      exact h _ rfl ⟨message, rfl⟩
  · rw [andThen_ok]
    refine iff_of_true (fun message h => ?_) nofun
    cases (hsuspend waiting s').symm.trans h

/-- **Refused operations change nothing**, but for the student that the form for a PI creates
before it finds that the lab has another. No operation is refused after an `await`. -/
theorem refused_untouched {s : Controller} (hs : s.db.StudentKeys) {a : Act} (ha : a.Checks) :
    ((∀ message, (a.run.run s).1 = .error (.error message) → Untouched s (step s a)) ↔
      ¬ a.Misnames s) ∧
    ∀ (await : Await) (answer : Answer), await.Provisions → ∀ s message,
      ((await.resume answer).run s).1 ≠ .error (.error message) := by
  constructor
  · have hclean : RefusesClean a.run →
        ∀ message, (a.run.run s).1 = .error (.error message) → Untouched s (step s a) :=
      fun h message hrun => h s _ hrun ⟨message, rfl⟩
    cases a with
    | addStudentToLab labId student actor =>
        refine iff_of_true ((start_untouched _ s).mpr fun e h he => ?_) not_false
        exact refuses_addStudentToLab labId student actor hs h he
    | ensurePiAccess labId input actor =>
        exact (start_untouched _ s).trans (ensurePiAccess_refuses labId input actor hs)
    | createPlacement input actor =>
        exact iff_of_true (hclean (refuses_start (refuses_createPlacement _ _))) not_false
    | updatePlacementQuota placementId fast cold actor =>
        exact iff_of_true (hclean (refuses_updatePlacementQuota _ _ _ _)) not_false
    | recreatePlacement placementId input actor =>
        exact iff_of_true (hclean (refuses_recreatePlacement _ _ _)) not_false
    | retryPlacement placementId actor =>
        exact iff_of_true (hclean (refuses_retryPlacement _ _)) not_false
    | destroyPlacement placementId actor =>
        exact iff_of_true (hclean (refuses_destroyPlacement _ _)) not_false
    | forceDeletePlacement placementId actor =>
        exact iff_of_true (hclean (refuses_forceDeletePlacement _ _)) not_false
    | removeStudentFromLab labId studentId deleteData actor =>
        exact iff_of_true (hclean (refuses_removeStudentFromLab _ _ _ _)) not_false
    | setNodeColdStorage name backend ownerName actor =>
        exact iff_of_true (hclean (refuses_setNodeColdStorage _ _ _ _)) not_false
    | deleteNode name actor force =>
        exact iff_of_true (hclean (refuses_deleteNode _ _ _)) not_false
    | _ => exact ha.elim
  · intro await answer hp s message h
    cases await with
    | provisionRoster placement rest actor =>
        exact spares_provisionRoster _ _ _ s _ h ⟨message, rfl⟩
    | provisionOn rest student actor => exact spares_provisionOn _ _ _ s _ h ⟨message, rfl⟩
    | _ => exact hp.elim

/-- A lab with a PI refuses another one, who stays as a student without a lab. -/
def misnamed : Act := .ensurePiAccess 1 { username := "bob" } none

theorem misnamed_leaves_student :
    (misnamed.run.run (Run.run step (.init .plain) formPi)).1 = .error (.error
      "The PI login username cannot be changed after it has been provisioned") ∧
    ¬ Untouched (Run.run step (.init .plain) formPi)
      (step (Run.run step (.init .plain) formPi) misnamed) := by
  refine ⟨by decide +kernel, fun h => ?_⟩
  have hlen : (step (Run.run step (.init .plain) formPi) misnamed).db.students.rows.length ≠
      (Run.run step (.init .plain) formPi).db.students.rows.length := by decide +kernel
  exact hlen (by rw [h.db])

/-- The student of the form is a member already: the call is refused, and nothing changes. -/
theorem refused_untouched_member :
    ((Act.addStudentToLab 1 { username := "alice" } none).run.run
        (Run.run step (.init .plain) formPi)).1 =
          .error (.error "alice is already a member of lab") ∧
      Untouched (Run.run step (.init .plain) formPi)
        (step (Run.run step (.init .plain) formPi)
          (.addStudentToLab 1 { username := "alice" } none)) := by
  have hrefused : ((Act.addStudentToLab 1 { username := "alice" } none).run.run
      (Run.run step (.init .plain) formPi)).1 =
        .error (.error "alice is already a member of lab") := by decide +kernel
  refine ⟨hrefused, ?_⟩
  exact (refused_untouched (a := .addStudentToLab 1 { username := "alice" } none)
    (enrolled_run .plain formPi).studentKeys trivial).1.mpr not_false _ hrefused

end MassDeployment

import MassDeployment.Controller.Enrols

set_option autoImplicit false

/-! # The claim of a completion mail

One column of a placement says where its completion mail stands: `NULL`, `-1` while a call has
claimed it and waits for the mailer, or the time it was sent at. `Unclaimed columns p` relates the
states around a write that claims nothing for the placement `p`, waits for no answer about it and
hands nothing about it to the mailer. Every write of the controller respects it but the claim, its
answer, and the reset of the column by a recreate, which is the only one left where the columns are
not looked at.
-/

namespace MassDeployment

open Js Prog

/-- The call waits for the mailer's answer about the completion mail of the placement. -/
def Await.completes (p : Nat) : Await → Bool
  | .completionSent placementId _ _ => placementId == p
  | _ => false

/-- The completion mail of the placement is handed to the mailer. -/
def Event.completes (p : Nat) : Event → Bool
  | .completionMail placementId .. => placementId == p
  | _ => false

namespace Controller

/-- How many calls wait for the answer about the completion mail of a placement. -/
def awaited (s : Controller) (p : Nat) : Nat :=
  (s.threads.map fun t : Thread => t.countP (Await.completes p)).sum

/-- How many completion mails of a placement were handed to the mailer. -/
def completionMails (s : Controller) (p : Nat) : Nat := s.trace.countP (Event.completes p)

/-- A claim of the placement would succeed, now or once the placement is made. -/
def Claimable (s : Controller) (p : Nat) : Prop :=
  s.db.labPlacements.seq < p ∨
    ∃ r ∈ s.db.labPlacements.rows, r.id = p ∧ r.completionEmailSentAt = none

instance (s : Controller) (p : Nat) : Decidable (s.Claimable p) :=
  inferInstanceAs (Decidable (_ ∨ _))

/-- The placement has the timestamp of a mail. -/
def Stamped (s : Controller) (p : Nat) : Prop :=
  ∃ r ∈ s.db.labPlacements.rows, r.id = p ∧ ∃ t ∈ r.completionEmailSentAt, 0 < t

end Controller

/-- Nothing was claimed for the placement. -/
structure Unclaimed (columns : Prop) (p : Nat) (s s' : Controller) : Prop where
  claimable : columns → s'.Claimable p → s.Claimable p
  stamped : columns → s'.Stamped p → s.Stamped p
  awaited : s'.awaited p ≤ s.awaited p
  mails : s'.completionMails p = s.completionMails p

instance (columns : Prop) (p : Nat) : IsPreorder Controller (Unclaimed columns p) where
  refl _ := ⟨fun _ => id, fun _ => id, le_rfl, rfl⟩
  trans _ _ _ h h' :=
    ⟨fun hc => h.claimable hc ∘ h'.claimable hc, fun hc => h.stamped hc ∘ h'.stamped hc,
      h'.awaited.trans h.awaited, h'.mails.trans h.mails⟩

variable {columns : Prop} {p : Nat}

/-- A write that leaves the columns of the placement alone, or makes it with an empty one. -/
theorem Unclaimed.of_rows {s s' : Controller}
    (hseq : columns → s.db.labPlacements.seq ≤ s'.db.labPlacements.seq)
    (hrows : columns → ∀ r' ∈ s'.db.labPlacements.rows, r'.id = p →
      (∃ r ∈ s.db.labPlacements.rows, r.id = p ∧
        r'.completionEmailSentAt = r.completionEmailSentAt) ∨
      (s.db.labPlacements.seq < p ∧ r'.completionEmailSentAt = none))
    (hawaited : s'.awaited p ≤ s.awaited p) (hmails : s'.completionMails p = s.completionMails p) :
    Unclaimed columns p s s' where
  claimable hc h := by
    rcases h with h | ⟨r', hr', hid, hnone⟩
    · exact .inl ((hseq hc).trans_lt h)
    · rcases hrows hc r' hr' hid with ⟨r, hr, hid, hsame⟩ | ⟨hlt, -⟩
      · exact .inr ⟨r, hr, hid, hsame ▸ hnone⟩
      · exact .inl hlt
  stamped hc h := by
    obtain ⟨r', hr', hid, t, ht, hpos⟩ := h
    rcases hrows hc r' hr' hid with ⟨r, hr, hid, hsame⟩ | ⟨-, hnone⟩
    · exact ⟨r, hr, hid, t, hsame ▸ ht, hpos⟩
    · rw [hnone] at ht
      cases ht
  awaited := hawaited
  mails := hmails

/-- A write to something else. -/
theorem Unclaimed.frame {s s' : Controller} (hplacements : s'.db.labPlacements = s.db.labPlacements)
    (hthreads : s'.threads = s.threads) (htrace : s'.trace = s.trace) :
    Unclaimed columns p s s' := by
  refine .of_rows (fun _ => hplacements ▸ le_rfl) (fun _ r hr hid => ?_) ?_ ?_
  · exact .inl ⟨r, hplacements ▸ hr, hid, rfl⟩
  · exact le_of_eq (congrArg (fun ts : List Thread => (ts.map _).sum) hthreads)
  · exact congrArg (List.countP _) htrace

/-! ## The primitive writes -/

theorem unclaimed_nodes (s : Controller) (T : Table NodeRow) :
    Unclaimed columns p s (Slot.nodes.set s T) := .frame rfl rfl rfl

theorem unclaimed_labs (s : Controller) (T : Table LabRow) :
    Unclaimed columns p s (Slot.labs.set s T) := .frame rfl rfl rfl

theorem unclaimed_students (s : Controller) (T : Table StudentRow) :
    Unclaimed columns p s (Slot.students.set s T) := .frame rfl rfl rfl

theorem unclaimed_labMembers (s : Controller) (T : Table LabMemberRow) :
    Unclaimed columns p s (Slot.labMembers.set s T) := .frame rfl rfl rfl

theorem unclaimed_placementMembers (s : Controller) (T : Table PlacementMemberRow) :
    Unclaimed columns p s (Slot.placementMembers.set s T) := .frame rfl rfl rfl

theorem unclaimed_lists (f : Db → Db) (h) : Respects (Unclaimed columns p) (Op.writeLists f h) :=
  fun s => .frame (h s.db).2.2.2.2.1 rfl rfl

theorem unclaimed_draw {α : Type} (f : Host → Nat → α) :
    Respects (Unclaimed columns p) (Op.draw f) := fun _ => .frame rfl rfl rfl

theorem unclaimed_emit (e : Event) (he : e.completes p = false) :
    Respects (Unclaimed columns p) (Op.emit e) := by
  refine fun s => .of_rows (fun _ => le_rfl) (fun _ r hr hid => .inl ⟨r, hr, hid, rfl⟩) le_rfl ?_
  exact List.countP_cons_of_neg (by rw [he]; exact nofun)

theorem awaited_append (s : Controller) (t : Thread) :
    ({ s with threads := s.threads ++ [t] } : Controller).awaited p =
      s.awaited p + t.countP (Await.completes p) := by
  simp [Controller.awaited]

theorem unclaimed_spawn (t : Thread) (ht : t.countP (Await.completes p) = 0) :
    Respects (Unclaimed columns p) (Op.spawn t) := by
  refine fun s => .of_rows (fun _ => le_rfl) (fun _ r hr hid => .inl ⟨r, hr, hid, rfl⟩) ?_ rfl
  show ({ s with threads := s.threads ++ [t] } : Controller).awaited p ≤ _
  rw [awaited_append, ht]
  exact le_rfl

theorem Thread.Working.completes {t : Thread} (h : Thread.Working t) :
    t.countP (Await.completes p) = 0 := by
  refine List.countP_eq_zero.mpr fun await hmem => ?_
  have hworking := h await hmem
  cases await with
  | completionSent placementId node lab => exact hworking.elim
  | _ => exact nofun

/-- The call that is taken off the list waits no longer. -/
theorem awaited_takeThread {s : Controller} {i : Nat} {t : Thread} (ht : s.threads[i]? = some t) :
    ((takeThread i).after s).awaited p + t.countP (Await.completes p) = s.awaited p := by
  obtain ⟨hlt, rfl⟩ := List.getElem?_eq_some_iff.mp ht
  show ((s.threads.eraseIdx i).map _).sum + _ = (s.threads.map _).sum
  have hperm := (List.getElem_cons_eraseIdx_perm hlt).map
    fun t : Thread => t.countP (Await.completes p)
  have hsum := hperm.sum_eq
  rw [List.map_cons, List.sum_cons] at hsum
  omega

theorem unclaimed_takeThread (i : Nat) : Respects (Unclaimed columns p) (takeThread i) := by
  refine fun s => .of_rows (fun _ => le_rfl) (fun _ r hr hid => .inl ⟨r, hr, hid, rfl⟩) ?_ rfl
  cases ht : s.threads[i]? with
  | some t =>
      have hsum := awaited_takeThread (p := p) ht
      exact Nat.le.intro hsum
  | none =>
      show ((s.threads.eraseIdx i).map _).sum ≤ _
      rw [List.eraseIdx_of_length_le (List.getElem?_eq_none_iff.mp ht)]
      exact le_rfl

theorem unclaimed_updatePlacements (q : PlacementRow → Bool) (f : PlacementRow → PlacementRow) (h)
    (hf : columns → ∀ r, q r = true → r.id = p → (f r).completionEmailSentAt = r.completionEmailSentAt) :
    Respects (Unclaimed columns p) (Slot.labPlacements.update q f h) := by
  refine fun s => .of_rows (fun _ => le_rfl) (fun hc r' hr' hid => .inl ?_) le_rfl rfl
  obtain ⟨r, hr, rfl⟩ := (Table.mem_update (h := h)).mp hr'
  refine ⟨r, hr, ?_⟩
  by_cases hq : q r = true
  · rw [if_pos hq] at hid ⊢
    have hsame : r.id = p := (Row.grows_id _ _ (h.grows r hq)).symm.trans hid
    exact ⟨hsame, hf hc r hq hsame⟩
  · rw [if_neg hq] at hid ⊢
    exact ⟨hid, rfl⟩

theorem unclaimed_deletePlacements (victim : PlacementRow → Bool) :
    Respects (Unclaimed columns p) (deletePlacements victim) := by
  refine .bind (.read _) fun _ => .bind (fun s => ?_) fun _ =>
    .bind (respects_delete unclaimed_placementMembers _) fun _ => unclaimed_lists _ _
  refine .of_rows (fun _ => le_rfl) (fun _ r hr hid => .inl ⟨r, ?_, hid, rfl⟩) le_rfl rfl
  exact (Table.mem_delete.mp hr).1

theorem unclaimed_insertPlacement (labId nodeId : Nat) (mk : Nat → PlacementRow)
    (hmk : ∀ i, (mk i).id = i) (hnone : ∀ i, (mk i).completionEmailSentAt = none) :
    Respects (Unclaimed columns p) (insertPlacement labId nodeId mk hmk) := by
  refine .bind (.read _) fun s₀ => ?_
  split
  · intro s
    rcases Slot.insert_cases Slot.labPlacements mk hmk s with hrun | ⟨T, hrun, hrows, hseq⟩
    · rw [hrun]
      exact refl_of _ s
    · rw [hrun]
      have hseq : T.seq = s.db.labPlacements.seq + 1 := hseq
      refine .of_rows (fun _ => ?_) (fun _ r hr hid => ?_) le_rfl rfl
      · show s.db.labPlacements.seq ≤ T.seq
        omega
      · have hr : r ∈ s.db.labPlacements.rows ++ [mk T.seq] := hrows ▸ hr
        rcases List.mem_append.mp hr with hr | hr
        · exact .inl ⟨r, hr, hid, rfl⟩
        · -- the new placement
          obtain rfl := List.mem_singleton.mp hr
          rw [hmk] at hid
          exact .inr ⟨by omega, hnone _⟩
  · exact .throw _

/-! ## The functions with guards of their own -/

theorem unclaimed_enqueueTask (node : String) (action : Action) (params : Params)
    (requestedBy : Option String) :
    Respects (Unclaimed columns p) (enqueueTask node action params requestedBy) := by
  intro s
  simp only [enqueueTask]
  split <;> exact .frame rfl rfl rfl

theorem unclaimed_claimTask (node workerId : String) :
    Respects (Unclaimed columns p) (claimTask node workerId) := by
  refine .bind (.read _) fun claimed => ?_
  split
  · exact .pure _
  · exact .bind (fun _ => .frame rfl rfl rfl) fun _ => .bind (respects_lift _) fun _ => .pure _

theorem unclaimed_audit (actor : Option String) (action : String) (target detail : Option String) :
    Respects (Unclaimed columns p) (audit actor action target detail) :=
  .bind (.read _) fun _ => unclaimed_lists _ _

theorem unclaimed_provisionMember (placement : Placement) (student : ProvisionStudent)
    (actor : Option String) :
    Respects (Unclaimed columns p) (provisionMemberOnPlacement placement student actor) := by
  refine .bind (.read _) fun _ => .ite (fun _ => .pure _) fun _ => .bind (unclaimed_draw _) fun _ =>
    .bind (unclaimed_draw _) fun _ => .bind (.bind (.read _) fun s => ?_) fun _ =>
      .bind (unclaimed_enqueueTask _ _ _ _) fun _ => .pure _
  split
  · exact .bind (respects_insert unclaimed_placementMembers _ _) fun _ => .pure _
  · exact .throw _

theorem unclaimed_reprovisionMember (placement : Placement) (actor : Option String)
    (m : PlacementMemberRow × StudentRow) :
    Respects (Unclaimed columns p) (reprovisionMember placement actor m) :=
  .bind (unclaimed_draw _) fun _ => .bind (unclaimed_draw _) fun _ => .bind (.read _) fun _ =>
    .bind (respects_update unclaimed_placementMembers _ _ _) fun _ =>
      .bind (unclaimed_enqueueTask _ _ _ _) fun _ => .pure _

theorem unclaimed_clearCredential (memberId : Nat) :
    Respects (Unclaimed columns p) (clearCredential memberId) :=
  .bind (.read _) fun _ => respects_update unclaimed_placementMembers _ _ _

/-- The delivery of a credential hands another mail to the mailer, and waits for another answer. -/
theorem unclaimed_startCredentialMail (labName : Value) (node : String) (username : Value) :
    Respects (Unclaimed columns p) (startCredentialMail labName node username) := by
  have deliver : Respects (Unclaimed columns p)
      (deliverPlacementCredential labName node username) := by
    refine .bind (.bind (.read _) fun _ => respects_lift _) fun pending => ?_
    split
    · exact .pure _
    · split
      · refine .bind (.read _) fun _ => .ite (fun _ => .pure _) fun _ => ?_
        exact .bind (unclaimed_emit _ rfl) fun _ => .pure _
      · exact .pure _
  have waits : Returns (fun t : Thread => t.countP (Await.completes p) = 0)
      (deliverPlacementCredential labName node username) := by
    refine .bind fun pending => ?_
    split
    · exact .pure rfl
    · split
      · exact .bind fun _ => .ite (.pure rfl) (.bind fun _ => .pure rfl)
      · exact .pure rfl
  refine .bind_returns (.tryCatch deliver fun e => ?_)
    (.tryCatch waits fun e => .bind fun _ => .pure rfl) fun t ht =>
      .ite (fun _ => .pure _) fun _ => unclaimed_spawn t ht
  refine .bind (.bind (.read _) fun _ => ?_) fun _ => .pure _
  split
  · exact unclaimed_lists _ _
  · exact .pure _

theorem unclaimed_deleteLabRow (labId : Nat) :
    Respects (Unclaimed columns p) (deleteLabRow labId) :=
  .bind (unclaimed_deletePlacements _) fun _ => .bind (respects_delete unclaimed_labMembers _) fun _ =>
    .bind (unclaimed_lists _ _) fun _ => respects_delete unclaimed_labs _

theorem unclaimed_deleteStudentRow (studentId : Nat) :
    Respects (Unclaimed columns p) (deleteStudentRow studentId) :=
  .bind (.read _) fun _ => .ite (fun _ => .throw _) fun _ =>
    .bind (respects_delete unclaimed_labMembers _) fun _ =>
      .bind (respects_delete unclaimed_placementMembers _) fun _ =>
        .bind (unclaimed_lists _ _) fun _ => respects_delete unclaimed_students _

/-! ## Every act -/

/-- **Nothing else claims a completion mail.** -/
theorem unclaimedEnrols : Enrols (fun _ _ => True) (Unclaimed columns p) where
  lists f h _ := unclaimed_lists f h
  emit e he := unclaimed_emit e (by cases e <;> first | exact he.elim | rfl)
  alertState _ _ _ := .frame rfl rfl rfl
  gpuMailState _ _ _ := .frame rfl rfl rfl
  draw := unclaimed_draw
  spawn t ht := unclaimed_spawn t ht.completes
  takeThread := unclaimed_takeThread
  clock f h hf s := by
    obtain ⟨now, settings, -, he⟩ := hf s
    show Unclaimed columns p s (f s)
    rw [he]
    exact .frame rfl rfl rfl
  claimTask := unclaimed_claimTask
  ackTask _ _ _ _ := .frame rfl rfl rfl
  retryTask _ _ _ := .bind (.read _) fun _ _ => .frame rfl rfl rfl
  updateTasks _ _ _ _ _ := .frame rfl rfl rfl
  enqueueTask node action params requestedBy _ := unclaimed_enqueueTask node action params requestedBy
  updateNode _ _ _ _ _ := .frame rfl rfl rfl
  updateLab _ _ _ _ := respects_update unclaimed_labs _ _ _
  insertLab mk hmk _ := respects_insert unclaimed_labs mk hmk
  updateStudents := respects_update unclaimed_students
  tryUpdateStudents := respects_tryUpdate unclaimed_students
  insertStudentRow := respects_insert unclaimed_students
  insertLabMember := respects_insertLabMember (respects_insert unclaimed_labMembers)
  updatePlacements q f h _ _ hf := unclaimed_updatePlacements q f h fun _ r _ _ => hf r
  createPlacement _ := respects_createPlacement (fun _ _ _ _ _ => unclaimed_enqueueTask _ _ _ _)
    unclaimed_audit
    (fun labId nodeId mk hmk h => unclaimed_insertPlacement labId nodeId mk hmk fun i => (h i).2.2.2)
    unclaimed_provisionMember
  retryPlacement _ := respects_retryPlacement (fun _ _ _ _ _ => unclaimed_enqueueTask _ _ _ _)
    unclaimed_audit fun s _ _ _ => by
      refine unclaimed_updatePlacements _ _ _ (fun _ r _ _ => ?_) s
      rfl
  forceDeletePlacement _ := respects_forceDeletePlacement
    (fun _ _ _ _ _ => unclaimed_enqueueTask _ _ _ _) unclaimed_audit unclaimed_deletePlacements
  provisionMember _ := unclaimed_provisionMember
  reprovisionMember _ := unclaimed_reprovisionMember
  deleteLabRow := unclaimed_deleteLabRow
  deleteStudentRow := unclaimed_deleteStudentRow
  startCredentialMail := unclaimed_startCredentialMail

theorem unclaimedWalk : Walk (fun _ _ => True) (Unclaimed columns p) := unclaimedEnrols.toWalk

end MassDeployment

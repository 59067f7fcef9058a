import MassDeployment.Controller.Claims
import MassDeployment.Controller.Refusals
import MassDeployment.Controller.Results

set_option autoImplicit false

/-! # Completion mail, once a cycle

A recreate opens a new cycle of a placement: it resets the column to `NULL`, and the next call
that finds everything active claims the column and hands a mail to the mailer. A call that waits
for the mailer's answer across the recreate still writes its answer down, and that answer belongs
to the new cycle.

What can still be sent in a cycle is the number of calls that wait, and one more where the column
is free. A claim moves a mail from the second term to the first, and an answer takes it away.
-/

namespace MassDeployment

open Js Prog

/-- The placement and all of its members are active. -/
def Controller.Completed (s : Controller) (p : Nat) : Prop :=
  (∃ r ∈ s.db.labPlacements.rows, r.id = p ∧ r.state = .active) ∧
    ∀ m ∈ s.db.placementMembers.rows, m.placementId = p → m.state = .active

/-- The completion mail of the placement was claimed, and a call waits for the answer. -/
structure Claimed (p : Nat) (s s' : Controller) : Prop where
  claimable : s.Claimable p
  taken : ¬ s'.Claimable p
  unstamped : ¬ s'.Stamped p
  awaited : s'.awaited p ≤ s.awaited p + 1
  mails : s'.completionMails p = s.completionMails p + 1
  completed : s'.db.Linked → s'.Completed p

/-- Nothing was written that a claim looks at. -/
structure Bystander (s s' : Controller) : Prop where
  linked : s'.db.Linked → s.db.Linked
  labPlacements : s'.db.labPlacements = s.db.labPlacements
  placementMembers : s'.db.placementMembers = s.db.placementMembers
  threads : s'.threads = s.threads
  trace : s'.trace = s.trace

variable {p : Nat}

theorem Claimed.of_unclaimed {s s' s'' : Controller} (h : Unclaimed True p s s')
    (h' : Claimed p s' s'') : Claimed p s s'' where
  claimable := h.claimable trivial h'.claimable
  taken := h'.taken
  unstamped := h'.unstamped
  awaited := h'.awaited.trans (Nat.add_le_add_right h.awaited 1)
  mails := h'.mails.trans (by rw [h.mails])
  completed := h'.completed

theorem Claimed.bystander {s s' s'' : Controller} (h : Claimed p s s') (h' : Bystander s' s'') :
    Claimed p s s'' where
  claimable := h.claimable
  taken hc := h.taken (by rwa [Controller.Claimable, ← h'.labPlacements])
  unstamped hs := h.unstamped (by rwa [Controller.Stamped, ← h'.labPlacements])
  awaited := by
    rw [Controller.awaited, h'.threads]
    exact h.awaited
  mails := by
    rw [Controller.completionMails, h'.trace]
    exact h.mails
  completed hl := by
    have hc := h.completed (h'.linked hl)
    rwa [Controller.Completed, h'.labPlacements, h'.placementMembers]

/-! ## The column of a placement -/

theorem mem_updatePlacement {i : Nat} {f : PlacementRow → PlacementRow} (h) {s : Controller}
    {r : PlacementRow} (hr : r ∈ s.db.labPlacements.rows) (hid : r.id = i) :
    f r ∈ ((updatePlacement i f h).after s).db.labPlacements.rows := by
  refine (Table.mem_update (h := keeps_placement _ f h)).mpr ⟨r, hr, ?_⟩
  rw [if_pos (beq_iff_eq.mpr hid)]

theorem updatePlacement_mem {i : Nat} {f : PlacementRow → PlacementRow} {h} {s : Controller}
    {r' : PlacementRow} (hr' : r' ∈ ((updatePlacement i f h).after s).db.labPlacements.rows)
    (hid : r'.id = i) : ∃ r ∈ s.db.labPlacements.rows, r.id = i ∧ r' = f r := by
  obtain ⟨r, hr, rfl⟩ := (Table.mem_update (h := keeps_placement _ f h)).mp hr'
  by_cases hq : r.id = i
  · exact ⟨r, hr, hq, if_pos (beq_iff_eq.mpr hq)⟩
  · rw [if_neg (mt beq_iff_eq.mp hq)] at hid
    exact absurd hid hq

/-- The row of the placement after the column is written. -/
theorem column_after {i : Nat} {v : Option Int} {s : Controller} {r' : PlacementRow}
    (hr' : r' ∈ ((updatePlacement i fun r =>
      { r with completionEmailSentAt := v }).after s).db.labPlacements.rows)
    (hid : r'.id = i) : r'.completionEmailSentAt = v := by
  obtain ⟨r, -, -, rfl⟩ := updatePlacement_mem hr' hid
  rfl

/-! ## One claim -/

/-- What `maybeDeliverPlacementCompletion` does: nothing, or the claim, the mail and the wait. -/
theorem maybeDeliverPlacementCompletion_run (labName : Value) (nodeName : String)
    (s : Controller) :
    (∃ out, (maybeDeliverPlacementCompletion labName nodeName).run s = (out, s) ∧
      ∀ waiting, out = .ok waiting → waiting = []) ∨
    ∃ row ∈ s.db.placements, row.state = .active ∧ row.completionEmailSentAt = none ∧
      (∀ m ∈ s.db.memberStates row.id, m.2 = .active) ∧
      ∃ email usernames, (maybeDeliverPlacementCompletion labName nodeName).run s =
        (.ok [.completionSent row.id nodeName labName],
          (Op.emit (.completionMail row.id row.labName nodeName email usernames)).after
            ((updatePlacement row.id fun r => { r with completionEmailSentAt := some (-1) }).after
              s)) := by
  unfold maybeDeliverPlacementCompletion
  rw [run_bind, getPlacementByLabNode_run]
  rcases hfound : s.db.lookupPlacement s.host.conversions labName nodeName with e | _ | row
  · exact .inl ⟨_, rfl, nofun⟩
  · exact .inl ⟨_, rfl, fun _ h => (Except.ok.inj h).symm⟩
  · obtain ⟨_, _, hrow, _⟩ := Db.lookupPlacement_eq_some hfound
    have idle : ∃ out, (pure [] : Op Thread).run s = (out, s) ∧
        ∀ waiting, out = .ok waiting → waiting = [] :=
      ⟨_, rfl, fun _ h => (Except.ok.inj h).symm⟩
    rw [andThen_ok]
    simp only [run_read_bind, id]
    split
    · split
      · exact .inl idle
      · rename_i email _ _ _ hcolumn
        split
        · exact .inl idle
        · rename_i hmembers
          simp only [ne_eq, not_or, not_not] at hcolumn hmembers
          refine .inr ⟨row, hrow, hcolumn.1, hcolumn.2.1, fun m hm => ?_, email, _, rfl⟩
          by_contra hinactive
          refine hmembers.2 (List.any_eq_true.mpr ⟨m, hm, ?_⟩)
          exact decide_eq_true hinactive
    · exact .inl idle

theorem mem_memberStates {d : Db} (hl : d.Linked) {m : PlacementMemberRow}
    (hm : m ∈ d.placementMembers.rows) (hp : m.placementId = p) :
    ∃ x ∈ d.memberStates p, x.2 = m.state := by
  obtain ⟨r, hr, hid⟩ := hl.student m hm
  refine ⟨(r.username, m.state), List.mem_map.mpr ⟨(m, r), ?_, rfl⟩, rfl⟩
  refine (orderBy_perm _ _).mem_iff.mpr (List.mem_filterMap.mpr ⟨m, ?_, ?_⟩)
  · exact Table.mem_select.mpr ⟨hm, beq_iff_eq.mpr hp⟩
  · rw [Table.get_eq_some.mpr ⟨hr, hid⟩]
    rfl

/-- A claim keeps the keys of the placement. -/
theorem keeps_claimed (r : PlacementRow) :
    let r' : PlacementRow := { r with completionEmailSentAt := some (-1) }
    r'.id = r.id ∧ r'.labId = r.labId ∧ r'.nodeId = r.nodeId ∧ r'.sshPort = r.sshPort :=
  ⟨rfl, rfl, rfl, rfl⟩

/-- The writes of a claim: the column, the mail, and the call that waits. -/
def claimCompletion (i : Nat) (lab node recipient : String) (usernames : List String)
    (thread : Thread) : Op Unit := do
  updatePlacement i (fun r => { r with completionEmailSentAt := some (-1) }) keeps_claimed
  Op.emit (.completionMail i lab node recipient usernames)
  Op.spawn thread

/-- **The claim.** It is made of a free column, and of a placement that is complete. -/
theorem claimed_placement {s : Controller} {row : Placement} (hrow : row ∈ s.db.placements)
    (hstate : row.state = .active) (hfree : row.completionEmailSentAt = none)
    (hmembers : ∀ m ∈ s.db.memberStates row.id, m.2 = .active) (lab node recipient : String)
    (usernames : List String) (thread : Thread)
    (hthread : thread.countP (Await.completes row.id) ≤ 1) :
    Claimed row.id s ((claimCompletion row.id lab node recipient usernames thread).after s) := by
  have hmem := (Db.mem_placements.mp hrow).1
  have hbound := s.db.labPlacements.bounded _ hmem
  refine ⟨.inr ⟨row.toPlacementRow, hmem, rfl, hfree⟩, ?_, ?_, ?_, ?_, fun hl => ⟨?_, ?_⟩⟩
  · rintro (hlt | ⟨r, hr, hid, hnone⟩)
    · exact absurd hlt (Nat.not_lt.mpr hbound)
    · rw [column_after hr hid] at hnone
      cases hnone
  · rintro ⟨r, hr, hid, t, ht, hpos⟩
    rw [column_after hr hid] at ht
    cases ht
    exact absurd hpos (by decide)
  · refine (awaited_append _ thread).trans_le ?_
    exact Nat.add_le_add_left hthread _
  · exact List.countP_cons_of_pos (beq_self_eq_true _)
  · exact ⟨_, mem_updatePlacement (f := fun r => { r with completionEmailSentAt := some (-1) })
      (fun _ => ⟨rfl, rfl, rfl, rfl⟩) hmem rfl, rfl, hstate⟩
  · intro m hm hid
    obtain ⟨x, hx, hstate⟩ := mem_memberStates hl hm hid
    exact hstate ▸ hmembers x hx

/-- The claim of another placement. -/
theorem unclaimed_claimCompletion {i : Nat} (hi : i ≠ p) (lab node recipient : String)
    (usernames : List String) (thread : Thread)
    (hthread : thread.countP (Await.completes p) = 0) :
    Respects (Unclaimed True p) (claimCompletion i lab node recipient usernames thread) := by
  refine .bind (unclaimed_updatePlacements _ _ _ fun _ r hq hid => ?_) fun _ =>
    .bind (unclaimed_emit _ (beq_eq_false_iff_ne.mpr hi)) fun _ => unclaimed_spawn _ hthread
  exact absurd ((beq_iff_eq.mp hq).symm.trans hid) hi

/-! ## One call -/

/-- The call claims the completion mail of the placement once, or not at all. -/
def Turns {α : Type} (p : Nat) (x : Op α) : Prop :=
  ∀ s, Unclaimed True p s (x.after s) ∨ Claimed p s (x.after s)

namespace Turns

variable {α β : Type}

theorem of_unclaimed {x : Op α} (h : Respects (Unclaimed True p) x) : Turns p x := fun s => .inl (h s)

/-- What comes before the claim. -/
theorem bind {x : Op α} {f : α → Op β} (hx : Respects (Unclaimed True p) x)
    (hf : ∀ a, Turns p (f a)) : Turns p (x >>= f) := by
  intro s
  have hfirst := hx s
  unfold Prog.after at *
  rw [run_bind]
  rcases hr : x.run s with ⟨e | a, s'⟩
  · rw [hr] at hfirst
    exact .inl hfirst
  · rw [hr] at hfirst
    rcases hf a s' with hrest | hrest
    · exact .inl (trans_of (Unclaimed True p) hfirst hrest)
    · exact .inr (hrest.of_unclaimed hfirst)

/-- What comes after it. -/
theorem before {x : Op α} {f : α → Op β} (hx : Turns p x)
    (hf : ∀ a, Respects (Unclaimed True p) (f a))
    (hlast : ∀ a s, Bystander s ((f a).after s)) : Turns p (x >>= f) := by
  intro s
  have hfirst := hx s
  unfold Prog.after at *
  rw [run_bind]
  rcases hr : x.run s with ⟨e | a, s'⟩
  · rw [hr] at hfirst
    exact hfirst
  · rw [hr] at hfirst
    rcases hfirst with hfirst | hfirst
    · exact .inl (trans_of (Unclaimed True p) hfirst (hf a s'))
    · exact .inr (hfirst.bystander (hlast a s'))

theorem ite {c : Prop} [Decidable c] {x y : Op α} (hx : Turns p x) (hy : Turns p y) :
    Turns p (if c then x else y) := by
  split
  · exact hx
  · exact hy

end Turns

theorem turns_startCompletionMail (labName : Value) (node : String) :
    Turns p (startCompletionMail labName node) := by
  intro s
  rcases maybeDeliverPlacementCompletion_run labName node s with ⟨out, hrun, hidle⟩ |
    ⟨row, hrow, hstate, hfree, hmembers, email, usernames, hrun⟩
  · -- no claim
    refine .inl ?_
    unfold startCompletionMail Prog.after
    cases out with
    | error e =>
        rw [run_bind, run_tryCatch_error hrun]
        have idle : Returns (fun waiting : Thread => waiting = []) (do
            logMailFailure "placement-completion" "PI completion email failed" node labName
              (some .null) e
            return []) := .bind fun _ => .pure rfl
        refine Respects.bind_returns (.bind (walk_logMailFailure unclaimedWalk _ _ _ _ _ _)
          fun _ => .pure _) idle ?_ s
        rintro _ rfl
        exact .pure _
    | ok waiting =>
        obtain rfl := hidle waiting rfl
        rw [run_bind_ok (run_tryCatch_ok hrun _)]
        exact refl_of (Unclaimed True p) s
  · have hstart : (startCompletionMail labName node).after s =
        (claimCompletion row.id row.labName node email usernames
          [.completionSent row.id node labName]).after s := by
      unfold startCompletionMail
      rw [Prog.after, run_bind_ok (run_tryCatch_ok hrun _)]
      rfl
    rw [hstart]
    by_cases hid : row.id = p
    · subst hid
      refine .inr (claimed_placement hrow hstate hfree hmembers _ _ _ _ _ ?_)
      exact List.countP_le_length
    · refine .inl (unclaimed_claimCompletion hid _ _ _ _ _ ?_ s)
      rw [List.countP_singleton, Await.completes, if_neg (mt beq_iff_eq.mp hid)]

/-! ## The result of a task -/

theorem bystander_logResult (frame : ResultFrame) (s : Controller) :
    Bystander s ((logResult frame).after s) := by
  unfold logResult
  split
  · exact ⟨id, rfl, rfl, rfl, rfl⟩
  · split
    · exact ⟨id, rfl, rfl, rfl, rfl⟩
    · exact ⟨fun h => ⟨h.labName, h.lab, h.node, h.placement, h.student⟩, rfl, rfl, rfl, rfl⟩

theorem turns_applyLifecycle (node : String) (frame : ResultFrame) (t : TaskRow) :
    Turns p (applyLifecycle node frame t) := by
  have placement : ∀ lab state error, Respects (Unclaimed True p)
      (markPlacementStateByLabNode lab node state error) :=
    respects_markPlacement node fun i f h _ hc =>
      unclaimed_updatePlacements _ f _ fun _ r _ _ => hc r
  have member : ∀ lab username state error, Respects (Unclaimed True p)
      (markPlacementMemberState lab node username state error) :=
    respects_markMember node fun _ _ _ _ =>
      respects_update unclaimed_placementMembers _ _ _
  refine .bind (respects_lift _) fun lab => .ite ?_ (.ite ?_ (.ite ?_ (.ite ?_ (.ite ?_ ?_))))
  · exact .of_unclaimed (walk_storeCapabilities unclaimedWalk _ _)
  · exact .of_unclaimed (walk_storeCapabilities unclaimedWalk _ _)
  · exact .of_unclaimed (placement _ _ _)
  · exact .ite (.of_unclaimed (respects_confirmDestroyed node unclaimed_deletePlacements _))
      (.of_unclaimed (placement _ _ _))
  · exact .of_unclaimed (.pure _)
  · refine .bind (respects_lift _) fun username => .ite ?_ (.ite ?_ (.of_unclaimed (.pure _)))
    · -- the branch that may claim
      refine .bind (member _ _ _ _) fun _ => .ite ?_ (.of_unclaimed (.pure _))
      exact .bind (unclaimed_startCredentialMail _ _ _) fun _ => turns_startCompletionMail _ _
    · exact .of_unclaimed (walk_completeStudentRemoval unclaimedWalk (fun _ _ _ => trivial) _)

theorem turns_handleResult (node : String) (frame : ResultFrame) :
    Turns p (handleResult node frame) := by
  refine .bind (respects_markDone (fun _ _ _ _ => .frame rfl rfl rfl) node frame)
    fun changed => .ite ?_ (.of_unclaimed (.pure _))
  refine .bind (unclaimed_emit _ rfl) fun _ => .before (.bind (.read _) fun t => ?_)
    (fun _ => walk_logResult unclaimedWalk _) fun _ => bystander_logResult _
  split
  · exact .of_unclaimed (.pure _)
  · exact .bind (walk_alertFailure unclaimedWalk _ _) fun _ => turns_applyLifecycle _ _ _

/-! ## The answer of the mailer -/

theorem awaited_suspend (waiting : Thread) (s : Controller) :
    ((suspend waiting).after s).awaited p =
      s.awaited p + waiting.countP (Await.completes p) := by
  cases waiting with
  | nil => rfl
  | cons await rest => exact awaited_append s _

/-- A call that continues leaves the list, writes what it writes, and its callers wait on. -/
theorem resumeThread_after {s : Controller} {i : Nat} {await : Await} {callers : Thread}
    (ht : s.threads[i]? = some (await :: callers)) (answer : Answer) :
    ((resumeThread i answer).after s).db.labPlacements =
        ((await.resume answer).after ((takeThread i).after s)).db.labPlacements ∧
      ((resumeThread i answer).after s).trace =
        ((await.resume answer).after ((takeThread i).after s)).trace ∧
      ((resumeThread i answer).after s).awaited p ≤
        ((await.resume answer).after ((takeThread i).after s)).awaited p +
          callers.countP (Await.completes p) := by
  have hworking := resume_working answer await ((takeThread i).after s)
  have hrun : (resumeThread i answer).after s =
      ((await.resume answer) >>= fun waiting => suspend (waiting ++ callers)).after
        ((takeThread i).after s) := by
    unfold resumeThread
    rw [Prog.after, run_read_bind, ht]
    rfl
  rw [hrun]
  unfold Prog.after
  rw [run_bind]
  rcases hx : (await.resume answer).run ((takeThread i).run s).2 with ⟨e | waiting, s'⟩
  · exact ⟨rfl, rfl, Nat.le_add_right _ _⟩
  · have hnone := (hworking waiting (by rw [Prog.after, hx])).completes (p := p)
    rw [andThen_ok]
    refine ⟨?_, ?_, ?_⟩
    · cases waiting ++ callers <;> rfl
    · cases waiting ++ callers <;> rfl
    · refine (awaited_suspend _ s').trans_le ?_
      rw [List.countP_append, hnone, Nat.zero_add]

/-- The answer that some other call waits for. -/
theorem unclaimed_resume {columns : Prop} {await : Await}
    (h : columns → await.completes p = false) (answer : Answer) :
    Respects (Unclaimed columns p) (await.resume answer) := by
  by_cases hburns : await.Burns answer
  · obtain ⟨memberId, password, node, lab, username, rfl, rfl⟩ := hburns.sent
    exact .bind (unclaimed_emit _ rfl) fun _ => .bind (unclaimed_clearCredential _) fun _ => .pure _
  · refine walk_resume unclaimedEnrols (fun _ _ _ => trivial) hburns ?_
    rintro placementId node lab rfl v
    refine unclaimed_updatePlacements _ _ _ fun hc r hq hid => ?_
    have hsame : placementId = p := (beq_iff_eq.mp hq).symm.trans hid
    exact absurd hsame (beq_eq_false_iff_ne.mp (h hc))

/-- The mailer's answer about the placement, written down. -/
structure Answered (sent : Prop) (p : Nat) (s s' : Controller) : Prop where
  claimable : sent → s'.Claimable p → s.Claimable p
  stamped : ¬ sent → s'.Stamped p → s.Stamped p
  awaited : s'.awaited p < s.awaited p
  mails : s'.completionMails p = s.completionMails p

/-- The act that brings the answer that a completion mail of the placement was sent. -/
def Act.delivers (s : Controller) (p : Nat) : Act → Bool
  | .resume i .sent =>
    match s.threads[i]? with
    | some (await :: _) => await.completes p
    | _ => false
  | _ => false

/-- A call that waits for something else continues. -/
theorem unclaimed_resumeThread {s : Controller} {i : Nat} {await : Await} {callers : Thread}
    (ht : s.threads[i]? = some (await :: callers)) (h : await.completes p = false)
    (answer : Answer) : Unclaimed True p s ((resumeThread i answer).after s) := by
  obtain ⟨hplacements, htrace, hawaited⟩ := resumeThread_after (p := p) ht answer
  have hsum := awaited_takeThread (p := p) ht
  have hresume := unclaimed_resume (p := p) (fun _ : True => h) answer ((takeThread i).after s)
  have htake : Unclaimed True p s ((takeThread i).after s) := unclaimed_takeThread i s
  rw [List.countP_cons_of_neg (by rw [h]; exact nofun)] at hsum
  refine ⟨fun _ hc => ?_, fun _ hs => ?_, ?_, ?_⟩
  · refine htake.claimable trivial (hresume.claimable trivial ?_)
    rwa [Controller.Claimable, hplacements] at hc
  · refine htake.stamped trivial (hresume.stamped trivial ?_)
    rwa [Controller.Stamped, hplacements] at hs
  · have hrest := hresume.awaited
    unfold Prog.after at *
    omega
  · rw [Controller.completionMails, htrace]
    exact hresume.mails.trans htake.mails

/-- A call that waits for the answer about the placement continues: one call less waits. -/
theorem answered_resumeThread {s : Controller} {i : Nat} {await : Await} {callers : Thread}
    (ht : s.threads[i]? = some (await :: callers)) (h : await.completes p = true)
    (answer : Answer) :
    Answered (answer = .sent) p s ((resumeThread i answer).after s) := by
  obtain ⟨hplacements, htrace, hawaited⟩ := resumeThread_after (p := p) ht answer
  have hsum := awaited_takeThread (p := p) ht
  rw [List.countP_cons_of_pos h] at hsum
  have htake : Unclaimed True p s ((takeThread i).after s) := unclaimed_takeThread i s
  have hresume : Unclaimed False p ((takeThread i).after s)
      ((await.resume answer).after ((takeThread i).after s)) :=
    unclaimed_resume (fun hc => hc.elim) answer _
  refine ⟨fun hsent hc => ?_, fun hunsent hs => ?_, ?_, ?_⟩
  · rw [Controller.Claimable, hplacements] at hc
    refine htake.claimable trivial ?_
    cases await with
    | completionSent placementId node lab =>
        obtain rfl : placementId = p := beq_iff_eq.mp h
        subst hsent
        -- the column holds the time now
        rcases hc with hlt | ⟨r, hr, hid, hnone⟩
        · exact .inl hlt
        · cases (column_after hr hid).symm.trans hnone
    | _ => cases h
  · rw [Controller.Stamped, hplacements] at hs
    refine htake.stamped trivial ?_
    cases await with
    | completionSent placementId node lab =>
        obtain rfl : placementId = p := beq_iff_eq.mp h
        cases answer with
        | sent => exact absurd rfl hunsent
        | notSent =>
            obtain ⟨r, hr, hid, t, ht, -⟩ := hs
            rw [column_after hr hid] at ht
            cases ht
        | threw e =>
            exact (Respects.bind (walk_logMailFailure unclaimedWalk _ _ _ _ _ _)
              (fun _ => .pure ([] : Thread)) _).stamped trivial hs
    | _ => cases h
  · have hrest := hresume.awaited
    unfold Prog.after at *
    omega
  · rw [Controller.completionMails, htrace]
    exact hresume.mails.trans htake.mails

theorem Act.delivers_other {s : Controller} {i : Nat}
    (h : ∀ await callers, s.threads[i]? = some (await :: callers) → await.completes p = false)
    (answer : Answer) : (Act.resume i answer).delivers s p = false := by
  cases answer with
  | sent =>
      simp only [Act.delivers]
      split
      · exact h _ _ ‹_›
      · rfl
  | _ => rfl

theorem Act.delivers_head {s : Controller} {i : Nat} {await : Await} {callers : Thread}
    (ht : s.threads[i]? = some (await :: callers)) (h : await.completes p = true)
    (answer : Answer) : ((Act.resume i answer).delivers s p = true) = (answer = .sent) := by
  cases answer <;> simp [Act.delivers, ht, h]

theorem resumeThread_idle {s : Controller} {i : Nat}
    (h : ∀ await callers, s.threads[i]? ≠ some (await :: callers)) (answer : Answer) :
    (resumeThread i answer).after s = s := by
  rw [resumeThread, Prog.after, run_read_bind]
  split
  · rfl
  · rfl
  · next await callers ht => exact absurd ht (h await callers)

/-- **An answer.** It is one about the placement, or it leaves the claims alone. -/
theorem turn_resume (s : Controller) (i : Nat) (answer : Answer) :
    ((Act.resume i answer).delivers s p = false ∧
        (Unclaimed True p s (step s (.resume i answer)) ∨
          Claimed p s (step s (.resume i answer)))) ∨
      Answered ((Act.resume i answer).delivers s p = true) p s (step s (.resume i answer)) := by
  have hstep : step s (.resume i answer) = (resumeThread i answer).after s := rfl
  rw [hstep]
  by_cases hidle : ∃ await callers, s.threads[i]? = some (await :: callers)
  · obtain ⟨await, callers, ht⟩ := hidle
    by_cases h : await.completes p = true
    · rw [Act.delivers_head ht h answer]
      exact .inr (answered_resumeThread ht h answer)
    · rw [Bool.not_eq_true] at h
      refine .inl ⟨Act.delivers_other (fun await' callers' ht' => ?_) answer, .inl ?_⟩
      · cases ht.symm.trans ht'
        exact h
      · exact unclaimed_resumeThread ht h answer
  · have hnone : ∀ await callers, s.threads[i]? ≠ some (await :: callers) :=
      fun await callers ht => hidle ⟨await, callers, ht⟩
    rw [resumeThread_idle hnone answer]
    refine .inl ⟨Act.delivers_other (fun await callers ht => ?_) answer, .inl ?_⟩
    · exact absurd ht (hnone await callers)
    · exact refl_of (Unclaimed True p) s

/-! ## The recreate -/

/-- The act recreates the placement: it is not refused. -/
def Act.recreates (s : Controller) (p : Nat) : Act → Bool
  | .recreatePlacement placementId input actor =>
    placementId == p &&
      match ((MassDeployment.recreatePlacement placementId input actor).run s).1 with
      | .error (.error _) => false
      | _ => true
  | _ => false

/-- A new cycle: the column is reset. -/
structure Recreated (p : Nat) (s s' : Controller) : Prop where
  unstamped : ¬ s'.Stamped p
  awaited : s'.awaited p ≤ s.awaited p
  mails : s'.completionMails p = s.completionMails p

/-- The checks of the configuration throw refusals only. -/
theorem validateContainerConfig_refuses (image : String) (opts : ContainerOptions)
    (s : Controller) : ∃ out, (validateContainerConfig image opts).run s = (out, s) ∧
      ∀ e, out = .error e → Error.Refusal e := by
  unfold validateContainerConfig
  repeat' split
  all_goals
    refine ⟨_, rfl, fun e he => ?_⟩
    cases he
  all_goals exact ⟨_, rfl⟩

theorem run_updatePlacement_bind {α : Type} (i : Nat) (f : PlacementRow → PlacementRow) (h)
    (k : Unit → Op α) (s : Controller) :
    (updatePlacement i f h >>= k).run s = (k ()).run ((updatePlacement i f h).after s) := rfl

theorem run_touch_bind {α : Type} (i : Nat) (k : Unit → Op α) (s : Controller) :
    (touch i >>= k).run s = (k ()).run ((touch i).after s) := rfl

/-- A recreate that is not refused resets the column. -/
theorem recreatePlacement_unstamped {s : Controller} {input : RecreateInput}
    {actor : Option String}
    (h : ∀ e, ((recreatePlacement p input actor).run s).1 = .error e → ¬ Error.Refusal e) :
    ¬ ((recreatePlacement p input actor).after s).Stamped p := by
  revert h
  unfold recreatePlacement Prog.after
  simp only [Op.query, run_read_bind]
  cases s.db.getPlacement p with
  | none => exact fun h => absurd ⟨_, rfl⟩ (h _ rfl)
  | some placement =>
      dsimp only
      obtain ⟨out, hout, hrefuses⟩ := validateContainerConfig_refuses
        (input.image.getD placement.image)
        (input.containerOptions.getD placement.containerOptions) s
      rw [run_bind, hout]
      cases out with
      | error e => exact fun h => absurd (hrefuses e rfl) (h e rfl)
      | ok _ =>
          rw [andThen_ok]
          split
          · exact fun h => absurd ⟨_, rfl⟩ (h _ rfl)
          · split
            · exact fun h => absurd ⟨_, rfl⟩ (h _ rfl)
            · split
              · exact fun h => absurd ⟨_, rfl⟩ (h _ rfl)
              · intro _ hs
                rw [run_updatePlacement_bind, run_touch_bind, run_updatePlacement_bind] at hs
                -- the column is empty once it is reset, and nothing fills it afterwards
                have hreset : ¬ ((updatePlacement p fun r =>
                    { r with completionEmailSentAt := none }).after ((touch p).after
                      ((updatePlacement p input.apply).after s))).Stamped p := by
                  rintro ⟨r, hr, hid, t, ht, -⟩
                  rw [column_after hr hid] at ht
                  cases ht
                refine hreset (Unclaimed.stamped (Respects.bind (.read _) (fun fresh => ?_) _)
                  trivial hs)
                split
                · exact .throw _
                · exact .bind (unclaimed_enqueueTask _ _ _ _) fun _ =>
                    .bind (walk_reprovisionPlacementMembers unclaimedEnrols (fun _ _ _ => trivial) _ _)
                      fun _ => walk_audit unclaimedWalk _ _ _ _

/-- The rest of a recreate claims nothing. -/
theorem unclaimed_recreatePlacement {columns : Prop} {placementId : Nat}
    (h : columns → placementId ≠ p) (input : RecreateInput) (actor : Option String) :
    Respects (Unclaimed columns p) (recreatePlacement placementId input actor) := by
  refine walk_recreatePlacement unclaimedEnrols (fun _ _ _ => trivial) _ _ _ fun f _ _ => ?_
  refine unclaimed_updatePlacements _ _ _ fun hc r hq hid => ?_
  exact absurd ((beq_iff_eq.mp hq).symm.trans hid) (h hc)

theorem Act.recreates_iff {s : Controller} {input : RecreateInput} {actor : Option String} :
    (Act.recreatePlacement p input actor).recreates s p = true ↔
      ∀ e, ((MassDeployment.recreatePlacement p input actor).run s).1 = .error e →
        ¬ Error.Refusal e := by
  rw [Act.recreates, beq_self_eq_true, Bool.true_and]
  split
  · next message heq => exact ⟨nofun, fun h => absurd ⟨_, rfl⟩ (h _ heq)⟩
  · next out hne =>
      refine ⟨fun _ e he hrefusal => ?_, fun _ => rfl⟩
      obtain ⟨message, rfl⟩ := hrefusal
      exact hne message he

/-- **A recreate** opens a cycle, or leaves the claims alone. -/
theorem recreatePlacement_step (s : Controller) (placementId : Nat) (input : RecreateInput)
    (actor : Option String) :
    ((Act.recreatePlacement placementId input actor).recreates s p = true →
        Recreated p s (step s (.recreatePlacement placementId input actor))) ∧
      ((Act.recreatePlacement placementId input actor).recreates s p = false →
        Unclaimed True p s (step s (.recreatePlacement placementId input actor))) := by
  by_cases hid : placementId = p
  · subst hid
    have hrest : Unclaimed False placementId s ((recreatePlacement placementId input actor).after s) :=
      unclaimed_recreatePlacement (fun hc => hc.elim) input actor s
    refine ⟨fun h => ⟨recreatePlacement_unstamped (Act.recreates_iff.mp h), hrest.awaited,
      hrest.mails⟩, fun h => ?_⟩
    -- it was refused before the first write
    have hrefused : ∃ e, ((recreatePlacement placementId input actor).run s).1 = .error e ∧
        Error.Refusal e := by
      by_contra hnone
      refine Bool.false_ne_true (h.symm.trans (Act.recreates_iff.mpr fun e he hrefusal => ?_))
      exact hnone ⟨e, he, hrefusal⟩
    obtain ⟨e, he, hrefusal⟩ := hrefused
    have hdb := (refuses_recreatePlacement placementId input actor s e he hrefusal).db
    refine .of_rows (fun _ => ?_) (fun _ r hr hid => .inl ⟨r, ?_, hid, rfl⟩) hrest.awaited hrest.mails
    · exact le_of_eq (congrArg (fun d : Db => d.labPlacements.seq) hdb.symm)
    · exact (congrArg (fun d : Db => d.labPlacements.rows) hdb) ▸ hr
  · refine ⟨fun h => ?_, fun _ => unclaimed_recreatePlacement (fun _ => hid) input actor s⟩
    rw [Act.recreates, beq_false_of_ne hid] at h
    cases h

/-! ## One act -/

/-- **The step.** Outside recreates an act claims the mail once at most, or brings an answer. -/
theorem turn_step (s : Controller) (a : Act) (h : a.recreates s p = false) :
    (a.delivers s p = false ∧ (Unclaimed True p s (step s a) ∨ Claimed p s (step s a))) ∨
      Answered (a.delivers s p = true) p s (step s a) := by
  have quiet : ∀ {a : Act}, a.delivers s p = false → Respects (Unclaimed True p) a.run →
      (a.delivers s p = false ∧ (Unclaimed True p s (step s a) ∨ Claimed p s (step s a))) ∨
        Answered (a.delivers s p = true) p s (step s a) :=
    fun hd hr => .inl ⟨hd, .inl (hr s)⟩
  have upkeep : ∀ {a : Act}, a.Upkeep → ¬ a.Completes → ¬ a.Requotas →
      Respects (Unclaimed True p) a.run := fun ha hc hq =>
    walk_upkeep unclaimedWalk (fun _ _ _ => trivial) (fun h => absurd h hc) (fun h => absurd h hq)
      (walk_telemetry unclaimedWalk unclaimed_lists) ha
  cases a with
  | recreatePlacement placementId input actor =>
      exact .inl ⟨rfl, .inl ((recreatePlacement_step s placementId input actor).2 h)⟩
  | frame node received =>
      cases received with
      | result frame => exact .inl ⟨rfl, turns_handleResult node frame s⟩
      | _ => exact quiet rfl (upkeep trivial nofun nofun)
  | maybeDeliverPlacementCompletion lab node =>
      exact .inl ⟨rfl, turns_startCompletionMail _ _ s⟩
  | updatePlacementQuota placementId fast cold actor =>
      refine quiet rfl (walk_updatePlacementQuota unclaimedWalk (fun _ _ _ => trivial) _ _ _ _ ?_)
      exact fun f _ _ hc => unclaimed_updatePlacements _ f _ fun _ r _ _ => hc r
  | resume i answer => exact turn_resume s i answer
  | removeStudentFromLab labId studentId deleteData actor =>
      refine quiet rfl (walk_removeStudentFromLab unclaimedWalk (fun _ _ _ => trivial)
        (respects_delete unclaimed_placementMembers) (respects_delete unclaimed_labMembers) _ _ _ _)
  | consumePlacementCredential placementId studentId actor =>
      refine quiet rfl (respects_discard (respects_consumePlacementCredential
        unclaimed_clearCredential unclaimed_audit (fun _ _ _ _ _ => unclaimed_emit _ rfl) _ _ _))
  | provisionNode | rotateNodeToken | revokeNode | deleteNode | setNodeColdStorage
  | registerNode | deregisterNode =>
      exact quiet rfl (walk_registryAct unclaimedWalk unclaimed_nodes unclaimed_deletePlacements
        (fun _ _ _ _ _ => .frame rfl rfl rfl) trivial)
  | createPlacement | addStudentToLab | copyMembers =>
      exact quiet rfl (walk_enrolls unclaimedEnrols (fun _ _ _ => trivial) nofun trivial)
  | ensurePiAccess | applyRosterImport =>
      exact quiet rfl (walk_designates unclaimedEnrols (fun _ _ _ => trivial)
        (fun _ _ _ => respects_update unclaimed_labs _ _ _) trivial)
  | _ => exact quiet rfl (upkeep trivial nofun nofun)

/-- A recreate brings no answer. -/
theorem Act.delivers_of_recreates {s : Controller} {a : Act} (h : a.recreates s p = true) :
    a.delivers s p = false := by
  cases a with
  | recreatePlacement placementId input actor => rfl
  | _ => cases h

theorem recreated_step {s : Controller} {a : Act} (h : a.recreates s p = true) :
    Recreated p s (step s a) := by
  cases a with
  | recreatePlacement placementId input actor =>
      exact (recreatePlacement_step s placementId input actor).1 h
  | _ => cases h

/-- A mail is handed over only where everything is active. -/
theorem completed_step {s : Controller} (hl : s.db.Linked) {a : Act}
    (h : (step s a).completionMails p ≠ s.completionMails p) : (step s a).Completed p := by
  cases hr : a.recreates s p with
  | true => exact absurd (recreated_step hr).mails h
  | false =>
      rcases turn_step s a hr with ⟨_, hu | hc⟩ | ha
      · exact absurd hu.mails h
      · exact hc.completed (linked_step hl a)
      · exact absurd ha.mails h

/-- Each answer is one to a mail that was handed over. -/
theorem handed_step (s : Controller) (a : Act) :
    ((step s a).awaited p : Int) - (step s a).completionMails p ≤
        s.awaited p - s.completionMails p ∧
      (a.delivers s p = true → ((step s a).awaited p : Int) - (step s a).completionMails p <
        s.awaited p - s.completionMails p) := by
  cases hr : a.recreates s p with
  | true =>
      have hawaited := (recreated_step hr).awaited
      have hmails := (recreated_step hr).mails
      rw [Act.delivers_of_recreates hr]
      refine ⟨by omega, nofun⟩
  | false =>
      rcases turn_step s a hr with ⟨hd, hu | hc⟩ | ha
      · have hawaited := hu.awaited
        have hmails := hu.mails
        rw [hd]
        refine ⟨by omega, nofun⟩
      · have hawaited := hc.awaited
        have hmails := hc.mails
        rw [hd]
        refine ⟨by omega, nofun⟩
      · have hawaited := ha.awaited
        have hmails := ha.mails
        refine ⟨?_, fun _ => ?_⟩ <;> omega

/-! ## Cycles -/

/-- What can still be sent in a cycle: the calls that wait, and one more where the column is
free. -/
def Controller.turns (s : Controller) (p : Nat) : Nat :=
  s.awaited p + if s.Claimable p then 1 else 0

/-- **The charge.** In a cycle no act raises what can still be sent, and an answer that a mail
was sent lowers it. -/
theorem turns_step {s : Controller} {a : Act} (h : a.recreates s p = false) :
    (step s a).turns p ≤ s.turns p ∧
      (a.delivers s p = true → (step s a).turns p < s.turns p) := by
  unfold Controller.turns
  rcases turn_step s a h with ⟨hd, hu | hc⟩ | ha
  · have hawaited := hu.awaited
    rw [hd]
    refine ⟨?_, nofun⟩
    by_cases hc : (step s a).Claimable p
    · rw [if_pos hc, if_pos (hu.claimable trivial hc)]
      omega
    · rw [if_neg hc]
      omega
  · have hawaited := hc.awaited
    rw [hd, if_neg hc.taken, if_pos hc.claimable]
    exact ⟨hawaited, nofun⟩
  · have hawaited := ha.awaited
    refine ⟨?_, fun hd => ?_⟩
    · split <;> omega
    · by_cases hc : (step s a).Claimable p
      · rw [if_pos hc, if_pos (ha.claimable hd hc)]
        omega
      · rw [if_neg hc]
        omega

/-- In a cycle only an answer puts a timestamp down. -/
theorem stamped_step {s : Controller} {a : Act} (h : a.recreates s p = false)
    (hd : a.delivers s p = false) (hs : (step s a).Stamped p) : s.Stamped p := by
  rcases turn_step s a h with ⟨-, hu | hc⟩ | ha
  · exact hu.stamped trivial hs
  · exact absurd hs hc.unstamped
  · exact ha.stamped (by rw [hd]; exact nofun) hs

/-- The placement is recreated only while no call waits for the mailer's answer about it. -/
def Undisturbed (p : Nat) (s : Controller) (a : Act) : Prop :=
  a.recreates s p = true → s.awaited p = 0

instance (p : Nat) (s : Controller) (a : Act) : Decidable (Undisturbed p s a) :=
  inferInstanceAs (Decidable (_ → _))

/-- The first acts of a run end with a recreate of the placement, or there are none, and the acts
that follow them do not recreate it. -/
structure Cycle (host : Host) (p : Nat) (pre cycle : List Act) : Prop where
  opens : pre = [] ∨ ∃ earlier a, pre = earlier ++ [a] ∧
    a.recreates (Run.run step (.init host) earlier) p = true
  stays : Run.Along step (fun s a => a.recreates s p = false) (Run.run step (.init host) pre) cycle

/-- How many completion mails of the placement were sent. -/
def sentAlong (p : Nat) (s : Controller) (acts : List Act) : Nat :=
  Run.countAlong step (fun s a => a.delivers s p = true) s acts

/-- Completion mail is sent once a cycle, about a placement where everything is active. -/
structure CompletionOnce (host : Host) (p : Nat) (acts : List Act) : Prop where
  /-- The mail is handed to the mailer where the placement and its members are active. -/
  completed : ∀ earlier a later, acts = earlier ++ a :: later →
    (Run.run step (.init host) (earlier ++ [a])).completionMails p ≠
      (Run.run step (.init host) earlier).completionMails p →
    (Run.run step (.init host) (earlier ++ [a])).Completed p
  /-- What is sent was handed over before. -/
  handed : ∀ earlier later, acts = earlier ++ later →
    sentAlong p (.init host) earlier ≤ (Run.run step (.init host) earlier).completionMails p
  once : ∀ pre cycle later, acts = pre ++ cycle ++ later → Cycle host p pre cycle →
    sentAlong p (Run.run step (.init host) pre) cycle ≤ 1
  /-- A timestamp is that of a mail of the same cycle. -/
  stamped : ∀ pre cycle later, acts = pre ++ cycle ++ later → Cycle host p pre cycle →
    (Run.run step (.init host) (pre ++ cycle)).Stamped p →
    0 < sentAlong p (Run.run step (.init host) pre) cycle

/-- A cycle starts without a timestamp, and where no call waited at its recreate, with one mail
to send. -/
theorem Cycle.start {host : Host} {pre cycle : List Act} (h : Cycle host p pre cycle) :
    ¬ (Run.run step (.init host) pre).Stamped p ∧
      (Run.Along step (Undisturbed p) (.init host) pre →
        (Run.run step (.init host) pre).turns p ≤ 1) := by
  have hturns : ∀ s : Controller, s.awaited p = 0 → s.turns p ≤ 1 := by
    intro s hs
    unfold Controller.turns
    rw [hs]
    split <;> omega
  rcases h.opens with rfl | ⟨earlier, a, rfl, ha⟩
  · refine ⟨?_, fun _ => hturns _ rfl⟩
    rintro ⟨r, hr, -⟩
    cases hr
  · have hlast := recreated_step ha
    rw [Run.run_append, Run.run_cons, Run.run_nil]
    refine ⟨hlast.unstamped, fun hcareful => hturns _ ?_⟩
    have hnone := (Run.along_append.mp hcareful).2.1 ha
    exact Nat.le_zero.mp (hnone ▸ hlast.awaited)

/-- **The charge of a cycle.** -/
theorem sentAlong_turns {s : Controller} {cycle : List Act}
    (h : Run.Along step (fun s a => a.recreates s p = false) s cycle) :
    sentAlong p s cycle ≤ s.turns p := by
  have hcharge : (sentAlong p s cycle : Int) + (Run.run step s cycle).turns p ≤ s.turns p :=
    Run.countAlong_add_le (φ := fun s : Controller => (s.turns p : Int))
      (fun s a ha => Int.ofNat_le.mpr (turns_step ha).1)
      (fun s a ha hd => Int.ofNat_lt.mpr ((turns_step ha).2 hd)) h
  omega

/-- **No timestamp without a mail.** -/
theorem unstamped_along {s : Controller} {cycle : List Act}
    (h : Run.Along step (fun s a => a.recreates s p = false) s cycle)
    (hnone : sentAlong p s cycle = 0) (hs : ¬ s.Stamped p) :
    ¬ (Run.run step s cycle).Stamped p :=
  Run.invariant (I := fun s : Controller => ¬ s.Stamped p)
    (fun _ _ hs ha hstamped => hs (stamped_step ha.1 (Bool.not_eq_true _ ▸ ha.2) hstamped)) hs
    (h.both (Run.along_not_of_countAlong hnone))

/-- **No mail without a claim.** -/
theorem sentAlong_handed (host : Host) (acts : List Act) :
    sentAlong p (.init host) acts ≤ (Run.run step (.init host) acts).completionMails p := by
  have hcharge : (sentAlong p (.init host) acts : Int) +
      ((Run.run step (.init host) acts).awaited p -
        (Run.run step (.init host) acts).completionMails p) ≤
      (Controller.init host).awaited p - (Controller.init host).completionMails p :=
    Run.countAlong_add_le (D := fun _ _ => True)
      (φ := fun s : Controller => (s.awaited p : Int) - s.completionMails p)
      (fun s a _ => (handed_step s a).1) (fun s a _ => (handed_step s a).2)
      (Run.along_of_forall (fun _ _ => trivial) _ acts)
  have hawaited : (Controller.init host).awaited p = 0 := rfl
  have hmails : (Controller.init host).completionMails p = 0 := rfl
  omega

/-- **Completion mail is sent once a cycle**, in every run where the placement is recreated only
while no call waits for the mailer's answer about it. -/
theorem completion_once (host : Host) (p : Nat) (acts : List Act)
    (hacts : Run.Along step (Undisturbed p) (.init host) acts) : CompletionOnce host p acts where
  completed earlier a later _ hgrew := by
    rw [Run.run_append] at hgrew ⊢
    exact completed_step (linked_run host earlier) hgrew
  handed earlier _ _ := sentAlong_handed host earlier
  once pre cycle later hsplit hcycle := by
    subst hsplit
    have hpre := (Run.along_append.mp (Run.along_append.mp hacts).1).1
    exact (sentAlong_turns hcycle.stays).trans (hcycle.start.2 hpre)
  stamped pre cycle later _ hcycle hstamped := by
    refine Nat.pos_of_ne_zero fun hnone => ?_
    rw [Run.run_append] at hstamped
    exact unstamped_along hcycle.stays hnone hcycle.start.1 hstamped

/-- A lab with a PI, whose placement and account are active: the mail with the password and the
completion mail are on their way. -/
def piCompleted : List Act :=
  [.provisionNode "n" none, .createLab "lab" none none none,
    .createPlacement (placedInput 1 2200) none,
    .ensurePiAccess 1 { username := "s", email := some "e" } none, succeeded "n" "u",
    succeeded "n" "uuuu"]

/-- The mailer answers before the container is recreated, and the next cycle has its own mail. -/
theorem completion_once_answered :
    CompletionOnce .plain 1 (piCompleted ++ [.resume 2 .sent, .recreatePlacement 1 {} none,
      succeeded "n" "uuuuuuuu", .resume 3 .sent]) :=
  completion_once .plain 1 _ (by decide +kernel)

/-- The container is recreated while the mailer has not answered. The new cycle's mail is sent,
then the mailer says that the old one was not, which frees the column; the next student to be
added brings a second mail. -/
def lateAnswer : List Act :=
  [succeeded "n" "uuuuuuuu", .resume 4 .sent, .resume 2 .notSent,
    .addStudentToLab 1 { username := "t" } none, succeeded "n" "uuuuuuuuuuu", .resume 4 .sent]

theorem two_mails_in_a_cycle :
    ¬ CompletionOnce .plain 1 (piCompleted ++ [.recreatePlacement 1 {} none] ++ lateAnswer) := by
  intro h
  have hcycle : Cycle .plain 1 (piCompleted ++ [.recreatePlacement 1 {} none]) lateAnswer :=
    ⟨.inr ⟨piCompleted, _, rfl, by decide +kernel⟩, by decide +kernel⟩
  have honce := h.once _ _ [] (List.append_nil _).symm hcycle
  have htwice : sentAlong 1 (Run.run step (.init .plain)
      (piCompleted ++ [.recreatePlacement 1 {} none])) lateAnswer = 2 := by decide +kernel
  rw [htwice] at honce
  exact absurd honce (by decide)

end MassDeployment

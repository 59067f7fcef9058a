import MassDeployment.Controller.Mirror

set_option autoImplicit false

/-! # The completion of a removal

A removal that deletes data gets an id, which the `student.remove` task of every placement
carries. `completeStudentRemoval` recomputes from the log whether all of them have succeeded,
and then issues a `student.delete_cold` for each node that keeps cold data of its own. The log
holds the parameters as redacted JSON; where every row is that of a task the code built, what
the queries find there is what the tasks say.
-/

namespace MassDeployment

open Js Prog

/-! ## Removals and their cleanups -/

/-- The removal a `student.remove` belongs to, where it deletes data. -/
def TaskFrame.removalId (frame : TaskFrame) : Option String :=
  if frame.action = .studentRemove then frame.param "removal_id" else none

/-- The nodes a `student.remove` names for the cleanup. -/
def TaskFrame.cleanupNodes (frame : TaskFrame) : List String :=
  match frame.params.lookup "cold_cleanup_nodes" with
  | some (.arr items) => items.filterMap fun j => Value.asString (some j)
  | _ => []

/-- The removal a `student.delete_cold` completes. -/
def TaskFrame.cleanupOf (frame : TaskFrame) : Option String :=
  if frame.action = .studentDeleteCold then frame.param "removal_id" else none

/-- A task as the code builds it: the removal ids were drawn before `draws`. -/
structure TaskFrame.Built (host : Host) (draws : Nat) (frame : TaskFrame) : Prop where
  remove : frame.action = .studentRemove → ∃ (p : Placement) (username : String)
    (deleteData : Bool) (removal : Option (String × List String)),
    frame.params = studentRemoveParams p username deleteData removal ∧ p.labName ≠ "" ∧
      ∀ x ∈ removal, ∃ d < draws, x.1 = host.uuid d
  cold : frame.action = .studentDeleteCold → ∃ lab username rid : String,
    frame.params = deleteColdParams (.str lab) (.str username) (.str rid)

theorem TaskFrame.Built.mono {host : Host} {draws draws' : Nat} {frame : TaskFrame}
    (h : frame.Built host draws) (hd : draws ≤ draws') : frame.Built host draws' where
  remove ha := by
    obtain ⟨p, username, deleteData, removal, hp, hlab, hrid⟩ := h.remove ha
    refine ⟨p, username, deleteData, removal, hp, hlab, fun x hx => ?_⟩
    obtain ⟨d, hlt, he⟩ := hrid x hx
    exact ⟨d, hlt.trans_le hd, he⟩
  cold := h.cold

/-- An ordinary task says nothing of removals. -/
theorem TaskFrame.Ordinary.built {host : Host} {draws : Nat} {frame : TaskFrame}
    (h : frame.Ordinary) : frame.Built host draws :=
  ⟨fun ha => absurd ha h.remove, fun ha => absurd ha h.cold⟩

theorem removalId_eq {frame : TaskFrame} (ha : frame.action = .studentRemove) {p : Placement}
    {username : String} {deleteData : Bool} {removal : Option (String × List String)}
    (hp : frame.params = studentRemoveParams p username deleteData removal) :
    frame.removalId = removal.map Prod.fst := by
  rw [TaskFrame.removalId, if_pos ha, TaskFrame.param, hp]
  cases removal <;> rfl

theorem filterMap_asString (l : List String) :
    (l.map Json.str).filterMap (fun j => Value.asString (some j)) = l := by
  induction l with
  | nil => rfl
  | cons a l ih => simp [Value.asString] at ih ⊢

theorem cleanupNodes_eq {frame : TaskFrame} {p : Placement} {username : String}
    {deleteData : Bool} {rid : String} {nodes : List String}
    (hp : frame.params = studentRemoveParams p username deleteData (some (rid, nodes))) :
    frame.cleanupNodes = nodes := by
  rw [TaskFrame.cleanupNodes, hp]
  exact filterMap_asString nodes

/-! ## What the log says of a removal -/

/-- A text parameter in the log is what it was, where its key does not look secret. -/
theorem field_redacted {params : Params} {k v : String}
    (hk : k ≠ "__proto__" ∧ secretKey k = false) (hv : params.lookup k = some (.str v)) :
    Value.field k (redactSecrets (.obj params)) = some (.str v) := by
  simp only [redactSecrets, Value.field, lookup_redactFields hk.1, hv, Option.map_some, hk.2]
  rfl

theorem field_redacted_none {params : Params} {k : String} (hk : k ≠ "__proto__")
    (hv : params.lookup k = none) : Value.field k (redactSecrets (.obj params)) = none := by
  simp only [redactSecrets, Value.field, lookup_redactFields hk, hv, Option.map_none]

/-- The removal a row belongs to is that of its task. -/
theorem jsonExtract_removal {c : Conversions} {frame : TaskFrame} {host : Host} {draws : Nat}
    (hb : frame.Built host draws) {t : TaskRow} (ht : frame.Issues t)
    (ha : t.action = .studentRemove) :
    jsonExtract c t.params "removal_id" = .ok (frame.removalId.elim .null .text) := by
  have ha' := ht.action.symm.trans ha
  obtain ⟨p, username, deleteData, removal, hp, _⟩ := hb.remove ha'
  rw [removalId_eq ha' hp, ht.params, hp]
  cases removal with
  | none =>
      simp only [jsonExtract, field_redacted_none (by decide) (show (studentRemoveParams p username
        deleteData none).lookup "removal_id" = none from rfl)]
      rfl
  | some x =>
      obtain ⟨rid, nodes⟩ := x
      simp only [jsonExtract, field_redacted (v := rid) (by decide) (show (studentRemoveParams p
        username deleteData (some (rid, nodes))).lookup "removal_id" = some (.str rid) from rfl)]
      rfl

theorem ofRemoval_iff {c : Conversions} {frame : TaskFrame} {host : Host} {draws : Nat}
    (hb : frame.Built host draws) {t : TaskRow} (ht : frame.Issues t) {rid : String} :
    t.ofRemoval c (.text rid) = true ↔ frame.removalId = some rid := by
  by_cases ha : t.action = .studentRemove
  · simp only [TaskRow.ofRemoval, ha, beq_self_eq_true, Bool.true_and,
      jsonExtract_removal (c := c) hb ht ha]
    cases frame.removalId <;> simp [SqlValue.same]
  · have ha' : ¬ frame.action = .studentRemove := fun h => ha (ht.action.trans h)
    simp [TaskRow.ofRemoval, ha, TaskFrame.removalId, ha']

/-- The removal a cold deletion in the log completes is that of its task. -/
theorem jsonExtract_cleanup {c : Conversions} {frame : TaskFrame} {host : Host} {draws : Nat}
    (hb : frame.Built host draws) {t : TaskRow} (ht : frame.Issues t)
    (ha : t.action = .studentDeleteCold) :
    ∃ rid, frame.cleanupOf = some rid ∧ jsonExtract c t.params "removal_id" = .ok (.text rid) := by
  have ha' := ht.action.symm.trans ha
  obtain ⟨lab, username, rid, hp⟩ := hb.cold ha'
  refine ⟨rid, ?_, ?_⟩
  · rw [TaskFrame.cleanupOf, if_pos ha', TaskFrame.param, hp]
    rfl
  · rw [ht.params, hp]
    simp only [jsonExtract, field_redacted (v := rid) (by decide) (show (deleteColdParams (.str lab)
      (.str username) (.str rid)).lookup "removal_id" = some (.str rid) from rfl)]

/-! ## The record of tasks -/

/-- The log records issued tasks, all of them built by the code. -/
structure Recorded (s : Controller) : Prop where
  drawn : Drawn s
  rows : ∀ t ∈ s.db.taskLog.rows, ∃ frame, (t.node, frame) ∈ s.issued ∧ frame.Issues t
  built : ∀ x ∈ s.issued, x.2.Built s.host s.draws

theorem recorded_init (host : Host) : Recorded (.init host) :=
  ⟨drawn_init host, fun _ h => absurd h List.not_mem_nil, fun _ h => absurd h List.not_mem_nil⟩

/-- The record survives where the tasks issued on the way are built by the code. -/
theorem Recorded.evolves {s s' : Controller} (h : Recorded s) (he : s.Evolves s')
    (hb : ∀ new, s'.issued = new ++ s.issued → ∀ x ∈ new, x.2.Built s.host s'.draws) :
    Recorded s' := by
  obtain ⟨new, hnew, _, hrows⟩ := he.issued
  refine ⟨h.drawn.evolves he, fun t ht => ?_, fun x hx => ?_⟩
  · by_cases hold : t.id ≤ s.db.taskLog.seq
    · obtain ⟨t₀, ht₀, hg⟩ := he.taskLog.grows t ht hold
      have hg : t₀.Grows t := hg
      obtain ⟨frame, hmem, hissues⟩ := h.rows t₀ ht₀
      refine ⟨frame, ?_, hissues.grows hg⟩
      rw [hnew, hg.node]
      exact List.mem_append_right _ hmem
    · obtain ⟨frame, hmem, hissues⟩ := hrows t ht (Nat.not_le.mp hold)
      exact ⟨frame, hnew ▸ List.mem_append_left _ hmem, hissues⟩
  · rw [he.host]
    rw [hnew] at hx
    rcases List.mem_append.mp hx with hx | hx
    · exact hb new hnew x hx
    · exact (h.built x hx).mono he.draws

/-- A row of the log belongs to the task it is that of. -/
theorem Recorded.row {s : Controller} (h : Recorded s) {t : TaskRow} (ht : t ∈ s.db.taskLog.rows) :
    ∃ frame, (t.node, frame) ∈ s.issued ∧ frame.Issues t ∧ frame.Built s.host s.draws := by
  obtain ⟨frame, hmem, hissues⟩ := h.rows t ht
  exact ⟨frame, hmem, hissues, h.built _ hmem⟩

/-! ## `completeStudentRemoval` -/

theorem filterMapM_ok {ε α β : Type} {f : α → Except ε (Option β)} {g : α → Option β} {l : List α}
    (h : ∀ x ∈ l, f x = .ok (g x)) : l.filterMapM f = .ok (l.filterMap g) := by
  induction l with
  | nil => rfl
  | cons a l ih =>
      have hl := ih fun x hx => h x (List.mem_cons_of_mem _ hx)
      rw [List.filterMapM_cons, h a List.mem_cons_self, hl]
      cases hg : g a <;> simp [hg] <;> rfl

/-- The states of a removal's tasks. -/
theorem removalStates_run {s : Controller} (h : Recorded s) (rid : String) :
    removalStates s.host.conversions s.db (.text rid) =
      .ok (s.db.taskLog.rows.filterMap fun t =>
        if t.ofRemoval s.host.conversions (.text rid) then some t.state else none) := by
  unfold removalStates
  refine filterMapM_ok fun t ht => ?_
  obtain ⟨frame, _, hissues, hb⟩ := h.row ht
  by_cases ha : t.action = .studentRemove
  · simp [ha, TaskRow.ofRemoval, jsonExtract_removal (c := s.host.conversions) hb hissues ha,
      Except.map]
  · simp [ha, TaskRow.ofRemoval]

/-- One cleanup: it has been issued before, or is issued now. -/
theorem enqueueColdCleanup_run {s : Controller} (h : Recorded s) (lab username rid : String)
    (requestedBy : Option String) (node : String) :
    ((enqueueColdCleanup (.str lab) (.str username) (.str rid) requestedBy node).run s =
        (.ok (), s) ∧ ∃ x ∈ s.issued, x.1 = node ∧ x.2.cleanupOf = some rid) ∨
      ∃ frame s', (enqueueColdCleanup (.str lab) (.str username) (.str rid) requestedBy node).run s =
          (.ok (), s') ∧ s'.issued = (node, frame) :: s.issued ∧
        frame.action = .studentDeleteCold ∧
        frame.params = deleteColdParams (.str lab) (.str username) (.str rid) := by
  -- the cleanups in the log can all be read
  have hcleanups : s.db.taskLog.rows.filterMapM (fun t =>
      if t.node = node ∧ t.action = .studentDeleteCold then
        (jsonExtract s.host.conversions t.params "removal_id").map some
      else .ok none) = .ok (s.db.taskLog.rows.filterMap fun t =>
        if t.node = node ∧ t.action = .studentDeleteCold then
          (jsonExtract s.host.conversions t.params "removal_id").toOption
        else none) := by
    refine filterMapM_ok fun t ht => ?_
    obtain ⟨frame, _, hissues, hb⟩ := h.row ht
    by_cases ha : t.node = node ∧ t.action = .studentDeleteCold
    · obtain ⟨rid', _, hext⟩ := jsonExtract_cleanup (c := s.host.conversions) hb hissues ha.2
      simp [ha, hext, Except.map, Except.toOption]
    · simp [ha]
  unfold enqueueColdCleanup
  rw [run_read_bind]
  dsimp only [id]
  rw [hcleanups, bindAll_strings, run_bind, lift_run, andThen_ok, run_bind, lift_run, andThen_ok]
  dsimp only
  split
  · rename_i hfound
    refine .inl ⟨rfl, ?_⟩
    obtain ⟨v, hv, hsame⟩ := List.any_eq_true.mp hfound
    obtain ⟨t, ht, hv⟩ := List.mem_filterMap.mp hv
    split at hv
    · rename_i ha
      obtain ⟨frame, hmem, hissues, hb⟩ := h.row ht
      obtain ⟨rid', hof, hext⟩ := jsonExtract_cleanup (c := s.host.conversions) hb hissues ha.2
      rw [hext] at hv
      cases hv
      obtain rfl : rid' = rid := by simpa [SqlValue.same] using hsame
      exact ⟨_, hmem, ha.1, hof⟩
    · cases hv
  · obtain ⟨s', hrun⟩ := enqueueTask_returns h.drawn node .studentDeleteCold
      (deleteColdParams (.str lab) (.str username) (.str rid)) requestedBy
    refine .inr ⟨s.nextFrame .studentDeleteCold (deleteColdParams (.str lab) (.str username)
      (.str rid)) requestedBy, s', run_bind_ok hrun _, ?_, rfl, rfl⟩
    rcases enqueueTask_run node .studentDeleteCold
      (deleteColdParams (.str lab) (.str username) (.str rid)) requestedBy s with
      ⟨T, s₁, _, hrun₁, _, _, _, hissued, _⟩ | ⟨e, s₁, _, hrun₁, _⟩
    · cases hrun.symm.trans hrun₁
      exact hissued
    · cases hrun.symm.trans hrun₁

theorem cleanupOf_eq {frame : TaskFrame} (ha : frame.action = .studentDeleteCold)
    {lab username rid : String}
    (hp : frame.params = deleteColdParams (.str lab) (.str username) (.str rid)) :
    frame.cleanupOf = some rid := by
  rw [TaskFrame.cleanupOf, if_pos ha, TaskFrame.param, hp]
  rfl

/-- What the loop over the nodes of a cleanup issues: one task for each of them that had
none. -/
structure CleansUp (rid : String) (nodes : List String) (s s' : Controller) : Prop where
  evolves : s.Evolves s'
  issued : ∃ new, s'.issued = new ++ s.issued ∧ new.Pairwise (fun x y => x.1 ≠ y.1) ∧
    ∀ x ∈ new, x.1 ∈ nodes ∧ x.2.Built s.host s'.draws ∧ x.2.cleanupOf = some rid ∧
      x.2.action = .studentDeleteCold
  covered : ∀ node ∈ nodes, ∃ x ∈ s'.issued, x.1 = node ∧ x.2.cleanupOf = some rid

theorem cleanups_run {s : Controller} (h : Recorded s) (lab username rid : String)
    (requestedBy : Option String) (nodes : List String) (hnodup : nodes.Nodup) :
    ∃ s', (nodes.forM (enqueueColdCleanup (.str lab) (.str username) (.str rid) requestedBy)).run s =
      (.ok (), s') ∧ CleansUp rid nodes s s' := by
  induction nodes generalizing s with
  | nil => exact ⟨s, rfl, .refl s, ⟨[], rfl, .nil, by simp⟩, by simp⟩
  | cons node nodes ih =>
      obtain ⟨hnode, hnodup⟩ := List.nodup_cons.mp hnodup
      rcases enqueueColdCleanup_run h lab username rid requestedBy node with
        ⟨hrun, x, hx, hxnode, hof⟩ | ⟨frame, s₁, hrun, hissued, ha, hp⟩
      · obtain ⟨s', hrest, hc⟩ := ih h hnodup
        refine ⟨s', (run_bind_ok hrun _).trans hrest, hc.evolves, ?_, ?_⟩
        · obtain ⟨new, hnew, hpair, hall⟩ := hc.issued
          exact ⟨new, hnew, hpair, fun y hy =>
            ⟨List.mem_cons_of_mem _ (hall y hy).1, (hall y hy).2⟩⟩
        · obtain ⟨new, hnew, _⟩ := hc.issued
          intro node' hnode'
          rcases List.mem_cons.mp hnode' with rfl | hnode'
          · exact ⟨x, hnew ▸ List.mem_append_right _ hx, hxnode, hof⟩
          · exact hc.covered node' hnode'
      · have hev : s.Evolves s₁ := by
          have := (enqueueColdCleanup (.str lab) (.str username) (.str rid) requestedBy node).keeps s
          rwa [hrun] at this
        have hbuilt : ∀ draws, frame.Built s.host draws := fun draws =>
          ⟨fun h' => absurd (ha.symm.trans h') nofun, fun _ => ⟨lab, username, rid, hp⟩⟩
        have h₁ : Recorded s₁ := by
          refine h.evolves hev fun new hnew x hx => ?_
          obtain rfl : new = [(node, frame)] :=
            List.append_cancel_right (hnew.symm.trans (hissued.trans (List.singleton_append).symm))
          obtain rfl := List.mem_singleton.mp hx
          exact hbuilt _
        obtain ⟨s', hrest, hc⟩ := ih h₁ hnodup
        obtain ⟨new, hnew, hpair, hall⟩ := hc.issued
        refine ⟨s', (run_bind_ok hrun _).trans hrest, hev.trans hc.evolves,
          ⟨new ++ [(node, frame)], by rw [hnew, hissued]; simp, ?_, ?_⟩, ?_⟩
        · refine List.pairwise_append.mpr ⟨hpair, List.pairwise_singleton _ _, fun x hx y hy => ?_⟩
          obtain rfl := List.mem_singleton.mp hy
          exact fun he => hnode ((show x.1 = node from he) ▸ (hall x hx).1)
        · intro x hx
          rcases List.mem_append.mp hx with hx | hx
          · obtain ⟨h1, h2, h3⟩ := hall x hx
            exact ⟨List.mem_cons_of_mem _ h1, hev.host ▸ h2, h3⟩
          · obtain rfl := List.mem_singleton.mp hx
            exact ⟨List.mem_cons_self, hbuilt _, cleanupOf_eq ha hp, ha⟩
        · intro node' hnode'
          rcases List.mem_cons.mp hnode' with rfl | hnode'
          · exact ⟨(node', frame), by rw [hnew, hissued]; simp, rfl, cleanupOf_eq ha hp⟩
          · exact hc.covered node' hnode'

theorem coldCleanupNodes_strings (nodes : List String) :
    coldCleanupNodes (some (.arr (nodes.map Json.str))) = .ok nodes.eraseDups := by
  have hnames (bound : Json → Except Error String) (hbound : ∀ a, bound (.str a) = .ok a) :
      (nodes.map Json.str).mapM bound = .ok nodes := by
    induction nodes with
    | nil => rfl
    | cons a l ih =>
        rw [List.map_cons, List.mapM_cons, ih, hbound]
        rfl
  unfold coldCleanupNodes
  simp only [Value.orElse, Value.iterate]
  exact congrArg (fun names => names >>= fun names => Except.ok (List.eraseDups names))
    (hnames _ fun _ => rfl)

theorem find_completed {s : Controller} {t : TaskRow} (ht : t ∈ s.db.taskLog.rows)
    (ha : t.action = .studentRemove) (hok : t.state = .ok) :
    s.db.taskLog.find (fun x => x.taskUuid == t.taskUuid &&
      decide (x.action = .studentRemove) && decide (x.state = .ok)) = some t := by
  refine Table.find_of_unique ht (by simp [ha, hok]) fun x hx hxt => ?_
  simp only [Bool.and_eq_true, beq_iff_eq] at hxt
  exact s.db.taskLog.eq_of_clash hx ht hxt.1.1

/-- A removal that deletes no data completes nothing. -/
theorem completeStudentRemoval_kept {s : Controller} {t : TaskRow} (ht : t ∈ s.db.taskLog.rows)
    (ha : t.action = .studentRemove) (hok : t.state = .ok) {p : Placement} {username : String}
    {deleteData : Bool}
    (hp : t.params = .text (redactSecrets
      (.obj (studentRemoveParams p username deleteData none)))) :
    (completeStudentRemoval t.taskUuid).run s = (.ok (), s) := by
  have hlab : Value.field "lab" (redactSecrets (.obj (studentRemoveParams p username deleteData
      none))) = some (.str p.labName) := field_redacted (by decide) rfl
  have huser : Value.field "username" (redactSecrets (.obj (studentRemoveParams p username
      deleteData none))) = some (.str username) := field_redacted (by decide) rfl
  have hrid : Value.field "removal_id" (redactSecrets (.obj (studentRemoveParams p username
      deleteData none))) = none := field_redacted_none (by decide) rfl
  unfold completeStudentRemoval
  rw [run_read_bind]
  dsimp only [id]
  rw [find_completed ht ha hok]
  dsimp only
  rw [hp]
  simp only [JsonText.parse, Value.get, redactSecrets] at hlab huser hrid ⊢
  simp only [hrid, hlab, huser, Op.lift, run_pure_bind]
  rfl

/-- A removal that deletes data cleans up where all of its tasks have succeeded. -/
theorem completeStudentRemoval_run {s : Controller} (h : Recorded s) {t : TaskRow}
    (ht : t ∈ s.db.taskLog.rows) (ha : t.action = .studentRemove) (hok : t.state = .ok)
    {p : Placement} {username : String} {deleteData : Bool} {rid : String} {nodes : List String}
    (hp : t.params = .text (redactSecrets
      (.obj (studentRemoveParams p username deleteData (some (rid, nodes)))))) :
    (completeStudentRemoval t.taskUuid).run s =
      if (rid ≠ "" ∧ p.labName ≠ "" ∧ username ≠ "") ∧ ∀ f ∈ s.db.taskLog.rows,
          f.ofRemoval s.host.conversions (.text rid) = true → f.state = .ok then
        (nodes.eraseDups.forM (enqueueColdCleanup (.str p.labName) (.str username) (.str rid)
          t.requestedBy)).run s
      else (.ok (), s) := by
  have hlab : Value.field "lab" (redactSecrets (.obj (studentRemoveParams p username deleteData
      (some (rid, nodes))))) = some (.str p.labName) := field_redacted (by decide) rfl
  have huser : Value.field "username" (redactSecrets (.obj (studentRemoveParams p username
      deleteData (some (rid, nodes))))) = some (.str username) := field_redacted (by decide) rfl
  have hrid : Value.field "removal_id" (redactSecrets (.obj (studentRemoveParams p username
      deleteData (some (rid, nodes))))) = some (.str rid) := field_redacted (by decide) rfl
  have hnodes : Value.field "cold_cleanup_nodes" (redactSecrets (.obj (studentRemoveParams p
      username deleteData (some (rid, nodes))))) = some (.arr (nodes.map Json.str)) := by
    simp only [redactSecrets, Value.field, lookup_redactFields (k := "cold_cleanup_nodes") (by decide)]
    show some (redactSecrets (.arr (nodes.map Json.str))) = _
    rw [redactSecrets, redactItems_strings]
  -- the row itself is one of those the removal waits for
  have hself : t.ofRemoval s.host.conversions (.text rid) = true := by
    simp only [TaskRow.ofRemoval, ha, beq_self_eq_true, Bool.true_and, hp, jsonExtract, hrid]
    simp [SqlValue.same]
  unfold completeStudentRemoval
  rw [run_read_bind]
  dsimp only [id]
  rw [find_completed ht ha hok]
  dsimp only
  rw [hp]
  simp only [JsonText.parse, Value.get, redactSecrets] at hlab huser hrid hnodes ⊢
  simp only [hrid, hlab, huser, hnodes, Op.lift, run_pure_bind]
  by_cases hname : rid ≠ "" ∧ p.labName ≠ "" ∧ username ≠ ""
  · obtain ⟨h1, h2, h3⟩ := hname
    have hbind : bindAll 1 [some (.str rid)] = .ok [.text rid] := rfl
    rw [if_neg (by simp [Value.truthy, h1, h2, h3]), hbind]
    simp only [run_pure_bind]
    rw [removalStates_run h rid, coldCleanupNodes_strings]
    simp only [run_pure_bind, Option.getD_some]
    by_cases hall : ∀ f ∈ s.db.taskLog.rows,
        f.ofRemoval s.host.conversions (.text rid) = true → f.state = .ok
    · rw [if_neg, if_pos ⟨⟨h1, h2, h3⟩, hall⟩]
      · rfl
      have hmem : TaskState.ok ∈ s.db.taskLog.rows.filterMap fun t =>
          if t.ofRemoval s.host.conversions (.text rid) then some t.state else none :=
        List.mem_filterMap.mpr ⟨t, ht, by rw [if_pos hself, hok]⟩
      simp only [Bool.or_eq_true, not_or, List.any_eq_true, decide_eq_true_eq, not_exists, not_and,
        not_not]
      refine ⟨fun hnil => ?_, fun st hst => ?_⟩
      · rw [List.isEmpty_iff.mp hnil] at hmem
        exact absurd hmem List.not_mem_nil
      · obtain ⟨f, hf, hst⟩ := List.mem_filterMap.mp hst
        split at hst
        · cases hst
          exact hall f hf ‹_›
        · cases hst
    · rw [if_pos, if_neg fun hc => hall hc.2]
      · rfl
      simp only [not_forall] at hall
      obtain ⟨f, hf, hof, hst⟩ := hall
      simp only [Bool.or_eq_true, List.any_eq_true, decide_eq_true_eq]
      exact .inr ⟨f.state, List.mem_filterMap.mpr ⟨f, hf, if_pos hof⟩, hst⟩
  · rw [if_pos, if_neg fun hc => hname hc.1]
    · rfl
    simp only [Bool.or_eq_true, Bool.not_eq_true']
    rcases not_and_or.mp hname with hrid | hname
    · exact .inl (.inl (by simp [Value.truthy, not_not.mp hrid]))
    rcases not_and_or.mp hname with hlab | huser
    · exact .inl (.inr (by simp [Value.truthy, not_not.mp hlab]))
    · exact .inr (by simp [Value.truthy, not_not.mp huser])

theorem nodup_eraseDups (l : List String) : l.eraseDups.Nodup := by
  induction hn : l.length using Nat.strong_induction_on generalizing l with
  | _ n ih =>
      cases l with
      | nil => exact List.nodup_nil
      | cons a l =>
          rw [List.eraseDups_cons, List.nodup_cons]
          have hlen := List.length_filter_le (fun b => !b == a) l
          refine ⟨fun h => ?_, ih _ (by simp only [List.length_cons] at hn; omega) _ rfl⟩
          simpa using List.mem_eraseDups.mp h

theorem CleansUp.of_eraseDups {rid : String} {nodes : List String} {s s' : Controller}
    (h : CleansUp rid nodes.eraseDups s s') : CleansUp rid nodes s s' where
  evolves := h.evolves
  issued := by
    obtain ⟨new, hnew, hpair, hall⟩ := h.issued
    exact ⟨new, hnew, hpair, fun x hx => ⟨List.mem_eraseDups.mp (hall x hx).1, (hall x hx).2⟩⟩
  covered node hnode := h.covered node (List.mem_eraseDups.mpr hnode)

/-- **What the completion of a removal does.** Nothing, or it cleans up after a removal all of
whose tasks have succeeded, on the nodes its own task names. -/
theorem completeStudentRemoval_spec {s : Controller} (h : Recorded s) (taskUuid : String) :
    (completeStudentRemoval taskUuid).after s = s ∨
      ∃ t ∈ s.db.taskLog.rows, t.taskUuid = taskUuid ∧ ∃ frame rid,
        (t.node, frame) ∈ s.issued ∧ frame.Issues t ∧ frame.removalId = some rid ∧
        (∀ f ∈ s.db.taskLog.rows, f.ofRemoval s.host.conversions (.text rid) = true →
          f.state = .ok) ∧
        CleansUp rid frame.cleanupNodes s ((completeStudentRemoval taskUuid).after s) := by
  by_cases hex : ∃ t ∈ s.db.taskLog.rows, t.taskUuid = taskUuid ∧ t.action = .studentRemove ∧
      t.state = .ok
  · obtain ⟨t, ht, rfl, ha, hok⟩ := hex
    obtain ⟨frame, hmem, hissues, hb⟩ := h.row ht
    have ha' := hissues.action.symm.trans ha
    obtain ⟨p, username, deleteData, removal, hp, _⟩ := hb.remove ha'
    have hrow := hp ▸ hissues.params
    cases removal with
    | none => exact .inl (by rw [Prog.after, completeStudentRemoval_kept ht ha hok hrow])
    | some x =>
        obtain ⟨rid, nodes⟩ := x
        have hrun := completeStudentRemoval_run h ht ha hok hrow
        split at hrun
        · rename_i hc
          obtain ⟨s', hloop, hclean⟩ := cleanups_run h p.labName username rid t.requestedBy
            nodes.eraseDups (nodup_eraseDups nodes)
          refine .inr ⟨t, ht, rfl, frame, rid, hmem, hissues, removalId_eq ha' hp, hc.2, ?_⟩
          rw [Prog.after, hrun, hloop, cleanupNodes_eq hp]
          exact hclean.of_eraseDups
        · exact .inl (by rw [Prog.after, hrun])
  · refine .inl ?_
    have hfind : s.db.taskLog.find (fun t => t.taskUuid == taskUuid &&
        decide (t.action = .studentRemove) && decide (t.state = .ok)) = none := by
      refine Table.find_eq_none.mpr fun t ht => ?_
      simp only [not_exists, not_and] at hex
      by_cases hu : t.taskUuid = taskUuid
      · by_cases ha : t.action = .studentRemove
        · simp [hu, ha, hex t ht hu ha]
        · simp [ha]
      · simp [hu]
    unfold completeStudentRemoval Prog.after
    rw [run_read_bind]
    dsimp only [id]
    rw [hfind]
    rfl

end MassDeployment

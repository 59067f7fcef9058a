import MassDeployment.Controller.ColdOwners

set_option autoImplicit false

/-! # Quotas

A placement has a quota on each pool of its node, and may give every student one of its own.
The creation and the recreation of a placement check the quotas of the students against those
of the placement; the live change of the placement's quotas does not look at the students'.
-/

namespace MassDeployment

open Js Prog

/-- **The quotas of a placement fit together**: a student's quota is positive and within the
placement's, and there is a cold quota exactly where the node has a pool of its own. -/
structure PlacementRow.QuotasFit (p : PlacementRow) (backend : ColdBackend) : Prop where
  studentFast : ∀ q, p.studentFastQuotaBytes = some q → 0 < q ∧ q ≤ p.fastQuotaBytes
  cold : p.coldQuotaBytes = none ↔ backend = .smb
  studentCold : ∀ q, p.studentColdQuotaBytes = some q →
    ∃ c, p.coldQuotaBytes = some c ∧ 0 < q ∧ q ≤ c

/-- Every placement is on a node, and its quotas fit. -/
def Db.QuotasFit (d : Db) : Prop :=
  ∀ p ∈ d.labPlacements.rows, ∃ n ∈ d.nodes.rows, n.id = p.nodeId ∧ p.QuotasFit n.coldBackend

theorem PlacementRow.QuotasFit.congr {p p' : PlacementRow} {backend : ColdBackend}
    (h : p.QuotasFit backend) (hq : p'.quotas = p.quotas) : p'.QuotasFit backend := by
  simp only [PlacementRow.quotas, Prod.mk.injEq] at hq
  obtain ⟨hfast, hcold, hsf, hsc⟩ := hq
  constructor
  · rw [hsf, hfast]
    exact h.studentFast
  · rw [hcold]
    exact h.cold
  · rw [hsc, hcold]
    exact h.studentCold

/-- Placements keep their quotas, and their nodes the backend. -/
theorem Db.QuotasFit.carry {d d' : Db} (h : d.QuotasFit)
    (hp : ∀ p' ∈ d'.labPlacements.rows, ∃ p ∈ d.labPlacements.rows,
      p.nodeId = p'.nodeId ∧ p'.quotas = p.quotas)
    (hn : ∀ p' ∈ d'.labPlacements.rows, ∀ n ∈ d.nodes.rows, n.id = p'.nodeId →
      ∃ n' ∈ d'.nodes.rows, n'.id = n.id ∧ n'.coldBackend = n.coldBackend) : d'.QuotasFit := by
  intro p' hp'
  obtain ⟨p, hmem, hnode, hquotas⟩ := hp p' hp'
  obtain ⟨n, hn₀, hid, hfit⟩ := h p hmem
  obtain ⟨n', hn', hid', hb⟩ := hn p' hp' n hn₀ (hid.trans hnode)
  refine ⟨n', hn', hid'.trans (hid.trans hnode), ?_⟩
  rw [hb]
  exact hfit.congr hquotas

theorem Db.QuotasFit.same {d d' : Db} (h : d.QuotasFit) (hp : d'.labPlacements = d.labPlacements)
    (hn : d'.nodes = d.nodes) : d'.QuotasFit := by
  unfold Db.QuotasFit
  rw [hp, hn]
  exact h

/-- Placements go the way of `carry`, nodes stay. -/
theorem Db.QuotasFit.placements {d d' : Db} (h : d.QuotasFit) (hn : d'.nodes = d.nodes)
    (hp : ∀ p' ∈ d'.labPlacements.rows, ∃ p ∈ d.labPlacements.rows,
      p.nodeId = p'.nodeId ∧ p'.quotas = p.quotas) : d'.QuotasFit :=
  h.carry hp fun _ _ n hmem _ => ⟨n, hn ▸ hmem, rfl, rfl⟩

/-- Nodes keep their backend, placements stay. -/
theorem Db.QuotasFit.nodes {d d' : Db} (h : d.QuotasFit) (hp : d'.labPlacements = d.labPlacements)
    (hn : ∀ p ∈ d.labPlacements.rows, ∀ n ∈ d.nodes.rows, n.id = p.nodeId →
      ∃ n' ∈ d'.nodes.rows, n'.id = n.id ∧ n'.coldBackend = n.coldBackend) : d'.QuotasFit :=
  h.carry (fun p' hp' => ⟨p', hp ▸ hp', rfl, rfl⟩) fun p' hp' => hn p' (hp ▸ hp')

/-! ## Writes that keep the quotas -/

/-- Steps that keep the quotas together. -/
abbrev KeepsQuotas : Controller → Controller → Prop := Keeping fun s => s.db.QuotasFit

theorem quotas_update (p : PlacementRow → Bool) (f : PlacementRow → PlacementRow) (h)
    (hf : ∀ r, (f r).quotas = r.quotas) : Respects KeepsQuotas (Slot.labPlacements.update p f h) := by
  intro s hs
  refine hs.placements rfl fun r' hr' => ?_
  obtain ⟨r, hr, rfl⟩ := (Table.mem_update (h := h)).mp hr'
  refine ⟨r, hr, ?_⟩
  split
  · have hg : Row.grows r (f r) := h.grows r ‹_›
    exact ⟨hg.2.2.symm, hf r⟩
  · exact ⟨rfl, rfl⟩

theorem quotas_updateNode (name : String) (f : NodeRow → NodeRow) (h)
    (hf : ∀ r, (f r).cold = r.cold) : Respects KeepsQuotas (updateNode name f h) := by
  intro s hs
  refine hs.nodes rfl fun p hp n hn hni => ⟨_, List.mem_map.mpr ⟨n, hn, rfl⟩, ?_⟩
  split
  · obtain ⟨hid, hb, _⟩ := NodeRow.cold_eq (hf n)
    exact ⟨hid, hb⟩
  · exact ⟨rfl, rfl⟩

theorem quotas_insertNode (mk : Nat → NodeRow) (hmk) (_ : ∀ i, (mk i).coldOwnerNodeId = none) :
    Respects KeepsQuotas (Slot.nodes.insert mk hmk) := by
  intro s hs
  rcases Slot.nodes.insert_cases mk hmk s with hrun | ⟨T, hrun, hrows, _⟩
  · rw [hrun]
    exact hs
  · rw [hrun]
    refine hs.nodes rfl fun p hp n hn hni => ⟨n, ?_, rfl, rfl⟩
    show n ∈ T.rows
    rw [hrows]
    exact List.mem_append_left _ hn

theorem quotas_deletePlacements (victim : PlacementRow → Bool) :
    Respects KeepsQuotas (deletePlacements victim) := fun _ hs =>
  hs.placements rfl fun p hp => ⟨p, (Table.mem_delete.mp hp).1, rfl, rfl⟩

theorem quotas_lists (f : Db → Db) (h) : Respects KeepsQuotas (Op.writeLists f h) :=
  lists_of_rows (Q := KeepsQuotas) (fun _ _ h hs => hs.same h.labPlacements h.nodes) f h

theorem quotas_members : MemberWalk KeepsQuotas :=
  memberWalk_of_rows (fun _ _ h hs => hs.same h.labPlacements h.nodes)
    fun name f h hf => quotas_updateNode name f h fun r => by
      simp only [NodeRow.cold, (h r).1, (hf r).coldBackend, (hf r).coldOwner]

theorem quotas_deleteLabRow (labId : Nat) : Respects KeepsQuotas (deleteLabRow labId) :=
  .bind (quotas_deletePlacements _) fun _ => .bind (fun _ hs => hs.same rfl rfl) fun _ =>
    .bind (quotas_lists _ _) fun _ _ hs => hs.same rfl rfl

/-! ## The registry of nodes -/

/-- Placements hold a node back. -/
theorem quotas_deleteNodeRow (nodeId : Nat) : Respects KeepsQuotas (deleteNodeRow nodeId) := by
  intro s hs
  unfold deleteNodeRow
  simp only [Op.query, run_read_bind]
  split
  · exact hs
  · rename_i href
    simp only [Bool.or_eq_true, List.any_eq_true, not_or, not_exists, not_and] at href
    refine hs.nodes rfl fun p hp n hn hni => ⟨n, Table.mem_delete.mpr ⟨hn, ?_⟩, rfl, rfl⟩
    rw [hni, ← Bool.not_eq_true]
    exact href.1 p hp

theorem quotas_deleteNode (name : String) (actor : Option String) (force : Bool) :
    Respects KeepsQuotas (deleteNode name actor force) := by
  refine .bind (.read _) fun row => ?_
  dsimp only
  split
  · exact respects_failWith _
  · refine .ite (fun _ => respects_failWith _) fun _ => .bind (.read _) fun _ =>
      .bind (.read _) fun _ => .ite (fun _ => respects_failWith _) fun _ =>
        .ite (fun _ => respects_failWith _) fun _ =>
          .bind (.atomically ?_) fun _ => quotas_members.audit _ _ _ _
    have rest : ∀ nodeId, Respects KeepsQuotas (do
        deleteTasks fun t => t.node == name
        Op.writeLists fun d =>
          { d with gpuSnapshot := d.gpuSnapshot.filter fun g => g.node != name }
        deleteNodeRow nodeId) := fun _ =>
      .bind (fun _ hs => hs.same rfl rfl) fun _ =>
        .bind (quotas_lists _ _) fun _ => quotas_deleteNodeRow _
    have hdetach : ∀ nodeId, Respects KeepsQuotas
        (Slot.nodes.update (fun n => n.coldOwnerNodeId == some nodeId)
          (fun n => { n with coldOwnerNodeId := none, coldReady := false })
          (keeps_node _ _ fun _ => ⟨rfl, rfl⟩)) := by
      intro nodeId s hs
      refine hs.nodes rfl fun p hp n hn hni => ⟨_, List.mem_map.mpr ⟨n, hn, rfl⟩, ?_⟩
      split <;> exact ⟨rfl, rfl⟩
    exact .ite (fun _ => .bind (quotas_deletePlacements _) fun _ => .bind (hdetach _) fun _ => rest _)
      fun _ => rest _

/-- A node whose backend changes has no placements. -/
theorem quotas_setNodeColdStorage (name : String) (backend : ColdBackend)
    (ownerName actor : Option String) :
    Respects KeepsQuotas (setNodeColdStorage name backend ownerName actor) := by
  intro s
  unfold setNodeColdStorage
  simp only [Op.query, run_read_bind]
  cases hn : s.db.node name with
  | none => exact respects_failWith _ s
  | some node =>
      simp only [run_read_bind]
      refine Respects.ite_at (fun _ => respects_failWith _ s) fun hcount => ?_
      obtain ⟨out, hout, _⟩ := coldOwner_run name backend ownerName node s
      refine Respects.check_bind hout fun ownerId _ => ?_
      refine Respects.bind_at (fun hs => ?_) fun _ => quotas_members.audit _ _ _ _
      refine hs.nodes rfl fun p hp n hmem hni => ⟨n, List.mem_map.mpr ⟨n, hmem, if_neg ?_⟩, rfl, rfl⟩
      intro heq
      have hpn : p.nodeId = node.id := hni.symm.trans (beq_iff_eq.mp heq)
      exact hcount (List.length_pos_of_mem (Table.mem_select.mpr ⟨hp, beq_iff_eq.mpr hpn⟩))

theorem quotas_registry {a : Act} (ha : a.Registry) : Respects KeepsQuotas a.run :=
  quotas_members.registry quotas_updateNode quotas_insertNode quotas_deleteNode
    quotas_setNodeColdStorage ha

/-! ## Creation -/

/-- A local pool needs a cold quota. -/
theorem checkColdStorage_quota {input : CreatePlacementInput} {node : NodeRow} {s s' : Controller}
    (h : (createPlacement.checkColdStorage input node).run s = (.ok (), s'))
    (hb : node.coldBackend ≠ .smb) : ∃ c, input.coldQuotaBytes = some c := by
  unfold createPlacement.checkColdStorage at h
  rw [if_neg hb] at h
  split at h
  · cases h
  · rename_i hsome
    exact Option.ne_none_iff_exists'.mp (by simpa using hsome)

theorem studentQuotaWithin_eq {q quota : Int} :
    studentQuotaWithin q quota = true ↔ 0 < q ∧ q ≤ quota := by
  simp [studentQuotaWithin]

/-- **The checks of a creation** make the quotas of the new placement fit. -/
theorem CreatePlacementInput.row_fits {input : CreatePlacementInput} {backend : ColdBackend}
    {smb : Bool} (hsmb : smb = true ↔ backend = .smb)
    (hcold : backend ≠ .smb → ∃ c, input.coldQuotaBytes = some c)
    (hsf : ¬ (input.studentFastQuotaBytes.any fun q =>
      !studentQuotaWithin q input.fastQuotaBytes) = true)
    (hsc : ¬ ((if smb then none else input.studentColdQuotaBytes).any fun q =>
      (if smb then none else input.coldQuotaBytes).any fun c => !studentQuotaWithin q c) = true)
    (now i : Nat) :
    (input.row (if smb then none else input.coldQuotaBytes)
      (if smb then none else input.studentColdQuotaBytes) now i).QuotasFit backend := by
  refine ⟨fun q hq => ?_, ?_, fun q hq => ?_⟩
  · show 0 < q ∧ q ≤ input.fastQuotaBytes
    have hq : input.studentFastQuotaBytes = some q := hq
    rw [hq] at hsf
    exact studentQuotaWithin_eq.mp (by simpa using hsf)
  · show (if smb then none else input.coldQuotaBytes) = none ↔ _
    cases smb with
    | true => exact iff_of_true rfl (hsmb.mp rfl)
    | false =>
        have hb : backend ≠ .smb := fun heq => Bool.false_ne_true (hsmb.mpr heq)
        obtain ⟨c, hc⟩ := hcold hb
        exact iff_of_false (by rw [hc]; nofun) hb
  · show ∃ c, (if smb then none else input.coldQuotaBytes) = some c ∧ 0 < q ∧ q ≤ c
    have hq : (if smb then none else input.studentColdQuotaBytes) = some q := hq
    cases smb with
    | true => cases hq
    | false =>
        have hb : backend ≠ .smb := fun heq => Bool.false_ne_true (hsmb.mpr heq)
        obtain ⟨c, hc⟩ := hcold hb
        rw [hq, hc] at hsc
        exact ⟨c, hc, studentQuotaWithin_eq.mp (by simpa using hsc)⟩

theorem quotas_insertPlacement {labId nodeId : Nat} {mk : Nat → PlacementRow} {hmk}
    {s : Controller} {node : NodeRow} (hn : node ∈ s.db.nodes.rows) (hid : node.id = nodeId)
    (hmkn : ∀ i, (mk i).nodeId = nodeId) (hfit : ∀ i, (mk i).QuotasFit node.coldBackend) :
    KeepsQuotas s ((insertPlacement labId nodeId mk hmk).run s).2 := by
  intro hs
  unfold insertPlacement
  simp only [run_read_bind, id]
  split
  · rcases Slot.labPlacements.insert_cases mk hmk s with hrun | ⟨T, hrun, hrows, _⟩
    · rw [hrun]
      exact hs
    · rw [hrun]
      intro p hp
      have hp : p ∈ T.rows := hp
      rw [hrows] at hp
      rcases List.mem_append.mp hp with hp | hp
      · exact hs p hp
      · rw [List.mem_singleton.mp hp]
        exact ⟨node, hn, hid.trans (hmkn _).symm, hfit _⟩
  · exact hs

theorem quotas_createPlacement (input : CreatePlacementInput) (actor : Option String) :
    Respects KeepsQuotas (createPlacement input actor) := by
  intro s
  unfold createPlacement
  simp only [Op.query, run_read_bind]
  cases hn : s.db.nodes.get input.nodeId with
  | none => exact respects_failWith _ s
  | some node =>
      obtain ⟨hmem, hid⟩ := Table.get_eq_some.mp hn
      obtain ⟨out, hout⟩ := validateContainerConfig_run input.image input.containerOptions s
      refine Respects.check_bind hout fun _ _ => ?_
      obtain ⟨out', hout', _⟩ := checkColdStorage_run input node s
      refine Respects.check_bind hout' fun _ hok => ?_
      subst hok
      refine Respects.ite_at (fun _ => respects_failWith _ s) fun hsf =>
        Respects.ite_at (fun _ => respects_failWith _ s) fun hsc => ?_
      simp only [Op.now, run_read_bind]
      refine Respects.bind_at (quotas_insertPlacement hmem hid (fun _ => rfl) fun i => ?_) fun _ => ?_
      · exact CreatePlacementInput.row_fits decide_eq_true_iff (checkColdStorage_quota hout') hsf hsc
          s.now i
      · refine .bind (.read _) fun placement => ?_
        split
        · exact .throw _
        · refine .bind (.bind (quotas_members.enqueueTask _ _ _ _) fun _ => .pure _) fun _ =>
            .bind (quotas_members.audit _ _ _ _) fun _ => .bind (.read _) fun students => ?_
          unfold provisionRoster
          split
          · exact .pure _
          · exact .bind (quotas_members.provisionMember _ _ _) fun _ => .pure _

/-! ## Recreation -/

/-- A write to one placement, whose quotas fit afterwards. -/
theorem quotas_rewrite {s : Controller} (placementId : Nat) (f : PlacementRow → PlacementRow) (h)
    (hfit : ∀ p ∈ s.db.labPlacements.rows, p.id = placementId → ∀ n ∈ s.db.nodes.rows,
      n.id = p.nodeId → p.QuotasFit n.coldBackend → (f p).QuotasFit n.coldBackend) :
    KeepsQuotas s ((updatePlacement placementId f h).run s).2 := by
  intro hs p' hp'
  obtain ⟨p, hp, rfl⟩ := (Table.mem_update (h := keeps_placement _ f h)).mp hp'
  obtain ⟨n, hn, hni, hp₀⟩ := hs p hp
  split
  · exact ⟨n, hn, hni.trans (h p).2.2.1.symm, hfit p hp (beq_iff_eq.mp ‹_›) n hn hni hp₀⟩
  · exact ⟨n, hn, hni, hp₀⟩

/-- **The checks of a recreation** make the new quotas of the students fit. -/
theorem RecreateInput.apply_fits {input : RecreateInput} {p : PlacementRow} {backend : ColdBackend}
    (h : p.QuotasFit backend)
    (hsf : ¬ (input.studentFastQuotaBytes.join.any fun q =>
      !studentQuotaWithin q p.fastQuotaBytes) = true)
    (hsmb : ¬ (backend = .smb ∧ input.studentColdQuotaBytes.join.isSome = true))
    (hsc : ¬ (input.studentColdQuotaBytes.join.any fun q =>
      p.coldQuotaBytes.any fun c => !studentQuotaWithin q c) = true) :
    (input.apply p).QuotasFit backend := by
  refine ⟨fun q hq => ?_, h.cold, fun q hq => ?_⟩
  · have hq : input.studentFastQuotaBytes.getD p.studentFastQuotaBytes = some q := hq
    show 0 < q ∧ q ≤ p.fastQuotaBytes
    cases hin : input.studentFastQuotaBytes with
    | none =>
        rw [hin] at hq
        exact h.studentFast q hq
    | some o =>
        rw [hin] at hq hsf
        obtain rfl : o = some q := hq
        exact studentQuotaWithin_eq.mp (by simpa using hsf)
  · have hq : input.studentColdQuotaBytes.getD p.studentColdQuotaBytes = some q := hq
    show ∃ c, p.coldQuotaBytes = some c ∧ 0 < q ∧ q ≤ c
    cases hin : input.studentColdQuotaBytes with
    | none =>
        rw [hin] at hq
        exact h.studentCold q hq
    | some o =>
        rw [hin] at hq hsmb hsc
        obtain rfl : o = some q := hq
        have hb : p.coldQuotaBytes ≠ none := fun hnone => hsmb ⟨h.cold.mp hnone, rfl⟩
        obtain ⟨c, hc⟩ := Option.ne_none_iff_exists'.mp hb
        rw [hc] at hsc
        exact ⟨c, hc, studentQuotaWithin_eq.mp (by simpa using hsc)⟩

/-- The row of a joined placement, and the backend of its node. -/
theorem Db.getPlacement_backend {d : Db} {i : Nat} {p : Placement} (hp : d.getPlacement i = some p)
    {r : PlacementRow} (hr : r ∈ d.labPlacements.rows) (hri : r.id = i) {n : NodeRow}
    (hn : n ∈ d.nodes.rows) (hni : n.id = r.nodeId) :
    r = p.toPlacementRow ∧ n.coldBackend = p.nodeColdBackend := by
  obtain ⟨hmem, hid⟩ := Db.getPlacement_eq_some hp
  obtain ⟨hrow, hjoin⟩ := Db.mem_placements.mp hmem
  obtain rfl : r = p.toPlacementRow := d.labPlacements.eq_of_id hr hrow (hri.trans hid.symm)
  obtain ⟨m, hm, hmi, hb, _⟩ := Db.joinPlacement_cold hjoin
  rw [d.nodes.eq_of_id hn hm (hni.trans hmi.symm), hb]
  exact ⟨rfl, rfl⟩

theorem quotas_touch (placementId : Nat) : Respects KeepsQuotas (touch placementId) :=
  .bind (.read _) fun _ => quotas_update _ _ _ fun _ => rfl

theorem quotas_recreatePlacement (placementId : Nat) (input : RecreateInput)
    (actor : Option String) : Respects KeepsQuotas (recreatePlacement placementId input actor) := by
  intro s
  unfold recreatePlacement
  simp only [Op.query, run_read_bind]
  cases hp : s.db.getPlacement placementId with
  | none => exact respects_failWith _ s
  | some p =>
      obtain ⟨out, hout⟩ := validateContainerConfig_run (input.image.getD p.image)
        (input.containerOptions.getD p.containerOptions) s
      refine Respects.check_bind hout fun _ _ => ?_
      refine Respects.ite_at (fun _ => respects_failWith _ s) fun hsf =>
        Respects.ite_at (fun _ => respects_failWith _ s) fun hsmb =>
          Respects.ite_at (fun _ => respects_failWith _ s) fun hsc => ?_
      refine Respects.bind_at (quotas_rewrite _ _ _ fun r hr hri n hn hni hfit => ?_) fun _ => ?_
      · obtain ⟨rfl, hb⟩ := Db.getPlacement_backend hp hr hri hn hni
        exact RecreateInput.apply_fits hfit hsf (hb ▸ hsmb) hsc
      · refine .bind (quotas_touch _) fun _ => .bind (quotas_update _ _ _ fun _ => rfl) fun _ =>
          .bind (.read _) fun fresh => ?_
        split
        · exact .throw _
        · refine .bind (quotas_members.enqueueTask _ _ _ _) fun _ =>
            .bind (.bind (.read _) fun _ => .forM _ fun m _ => ?_) fun _ =>
              quotas_members.audit _ _ _ _
          exact quotas_members.reprovisionMember _ _ _

/-! ## Live changes -/

/-- What the live change of quotas does not look at: the quotas of the students, and whether
the node has a cold pool of its own. -/
def Placement.admits (p : Placement) (fast : Option Int) (cold : Option (Option Int)) : Bool :=
  (fast.all fun q => p.studentFastQuotaBytes.all fun sq => decide (sq ≤ q)) &&
    cold.all fun c => (c.isNone == decide (p.nodeColdBackend = .smb)) &&
      c.all fun q => p.studentColdQuotaBytes.all fun sq => decide (sq ≤ q)

/-- The change is refused for the capacity of a pool, or the placement admits it. -/
def Act.Admitted (s : Controller) : Act → Prop
  | .updatePlacementQuota placementId fast cold _ =>
    (s.db.getPlacement placementId).all (fun p =>
      exceeds fast (s.db.nodePoolCapacityBytes p.nodeId).1 ||
        exceeds cold.join (s.db.nodePoolCapacityBytes p.nodeId).2 || p.admits fast cold) = true
  | _ => True

instance (s : Controller) : (a : Act) → Decidable (a.Admitted s) := by
  intro a
  unfold Act.Admitted
  split <;> infer_instance

/-- One of the two writes of a live change. -/
theorem quotas_write {α : Type} {s : Controller} (placementId : Nat) (o : Option α)
    (f : α → PlacementRow → PlacementRow)
    (h : ∀ a r, (f a r).id = r.id ∧ (f a r).labId = r.labId ∧ (f a r).nodeId = r.nodeId ∧
      (f a r).sshPort = r.sshPort)
    (hfit : ∀ a, o = some a → ∀ p ∈ s.db.labPlacements.rows, p.id = placementId →
      ∀ n ∈ s.db.nodes.rows, n.id = p.nodeId → p.QuotasFit n.coldBackend →
        (f a p).QuotasFit n.coldBackend) :
    ∃ s', (o.forM fun a => updatePlacement placementId (f a) (h a)).run s = (.ok (), s') ∧
      KeepsQuotas s s' ∧ s'.db.nodes = s.db.nodes ∧
      ∀ p' ∈ s'.db.labPlacements.rows, p'.id = placementId →
        ∃ p ∈ s.db.labPlacements.rows, p.id = placementId ∧ (p' = p ∨ ∃ a, o = some a ∧ p' = f a p) := by
  cases o with
  | none => exact ⟨s, rfl, id, rfl, fun p' hp' hid => ⟨p', hp', hid, .inl rfl⟩⟩
  | some a =>
      refine ⟨_, rfl, quotas_rewrite placementId (f a) (h a) (hfit a rfl), rfl, fun p' hp' hid => ?_⟩
      obtain ⟨p, hp, rfl⟩ := (Table.mem_update (h := keeps_placement _ (f a) (h a))).mp hp'
      by_cases heq : (p.id == placementId) = true
      · exact ⟨p, hp, beq_iff_eq.mp heq, .inr ⟨a, rfl, if_pos heq⟩⟩
      · rw [if_neg heq] at hid ⊢
        exact ⟨p, hp, hid, .inl rfl⟩

/-- The cold half of a live change that is admitted. -/
theorem Placement.admits_cold {p : Placement} {r : PlacementRow} {backend : ColdBackend}
    (hfit : r.QuotasFit backend) (hb : backend = p.nodeColdBackend)
    (hsc : r.studentColdQuotaBytes = p.studentColdQuotaBytes) {cold : Option (Option Int)}
    {c : Option Int} (hcold : cold = some c)
    (h : (cold.all fun c => (c.isNone == decide (p.nodeColdBackend = .smb)) &&
      c.all fun q => p.studentColdQuotaBytes.all fun sq => decide (sq ≤ q)) = true) :
    ({ r with coldQuotaBytes := c } : PlacementRow).QuotasFit backend := by
  rw [hcold, Option.all_some, Bool.and_eq_true, beq_iff_eq] at h
  obtain ⟨hnone, hle⟩ := h
  have hc : c = none ↔ backend = .smb := by
    rw [hb, ← Option.isNone_iff_eq_none, hnone, decide_eq_true_iff]
  refine ⟨hfit.studentFast, hc, fun sq hsq => ?_⟩
  have hsq : r.studentColdQuotaBytes = some sq := hsq
  show ∃ q, c = some q ∧ 0 < sq ∧ sq ≤ q
  obtain ⟨c₀, hc₀, hpos, _⟩ := hfit.studentCold sq hsq
  have hlocal : c ≠ none := fun hn => by
    rw [hfit.cold.mpr (hc.mp hn)] at hc₀
    cases hc₀
  obtain ⟨q, rfl⟩ := Option.ne_none_iff_exists'.mp hlocal
  rw [Option.all_some, ← hsc, hsq, Option.all_some] at hle
  exact ⟨q, rfl, hpos, of_decide_eq_true hle⟩

/-- **The live change** keeps the quotas together where it is admitted. -/
theorem quotas_updatePlacementQuota {s : Controller} {placementId : Nat} {fast : Option Int}
    {cold : Option (Option Int)} {actor : Option String}
    (ha : (Act.updatePlacementQuota placementId fast cold actor).Admitted s) :
    KeepsQuotas s ((updatePlacementQuota placementId fast cold actor).run s).2 := by
  unfold updatePlacementQuota
  simp only [Op.query, run_read_bind]
  unfold Act.Admitted at ha
  dsimp only at ha
  cases hp : s.db.getPlacement placementId with
  | none => exact respects_failWith _ s
  | some p =>
      rw [hp] at ha
      refine Respects.ite_at (fun _ => respects_failWith _ s) fun hfast =>
        Respects.ite_at (fun _ => respects_failWith _ s) fun hcold => ?_
      have hadmits : p.admits fast cold = true := by simpa [hfast, hcold] using ha
      obtain ⟨hsf, hc⟩ := Bool.and_eq_true_iff.mp hadmits
      obtain ⟨s₁, hrun₁, hkeep₁, hnodes₁, hrows₁⟩ := @quotas_write _ s placementId fast
        (fun q r => { r with fastQuotaBytes := q }) (fun _ _ => ⟨rfl, rfl, rfl, rfl⟩) (by
          intro q hq r hr hri n hn hni hfit
          obtain ⟨rfl, _⟩ := Db.getPlacement_backend hp hr hri hn hni
          refine ⟨fun sq hsq => ⟨(hfit.studentFast sq hsq).1, ?_⟩, hfit.cold, hfit.studentCold⟩
          have hsq : p.studentFastQuotaBytes = some sq := hsq
          rw [hq, Option.all_some, hsq, Option.all_some] at hsf
          exact of_decide_eq_true hsf)
      rw [run_bind_ok hrun₁]
      obtain ⟨s₂, hrun₂, hkeep₂, _⟩ := @quotas_write _ s₁ placementId cold
        (fun q r => { r with coldQuotaBytes := q }) (fun _ _ => ⟨rfl, rfl, rfl, rfl⟩) (by
          intro c hcold r hr hri n hn hni hfit
          obtain ⟨r₀, hr₀, hri₀, hwritten⟩ := hrows₁ r hr hri
          have hsame : r.nodeId = r₀.nodeId ∧ r.studentColdQuotaBytes = r₀.studentColdQuotaBytes := by
            rcases hwritten with rfl | ⟨q, _, rfl⟩ <;> exact ⟨rfl, rfl⟩
          obtain ⟨rfl, hb⟩ := Db.getPlacement_backend hp hr₀ hri₀ (hnodes₁ ▸ hn)
            (hni.trans hsame.1)
          exact Placement.admits_cold hfit hb hsame.2 hcold hc)
      rw [run_bind_ok hrun₂]
      refine trans_of KeepsQuotas hkeep₁ (trans_of KeepsQuotas hkeep₂ ?_)
      refine Respects.bind (quotas_touch _) (fun _ => .bind (quotas_members.enqueueTask _ _ _ _)
        fun _ => .bind (.read _) fun _ => quotas_members.audit _ _ _ _) s₂

/-! ## Every step -/

/-- Creation and the other writes keep the quotas together. -/
theorem quotasWalk : RowWalk KeepsQuotas where
  toMemberWalk := quotas_members
  anyLists := quotas_lists
  labs _ _ hs := hs.same rfl rfl
  students _ _ hs := hs.same rfl rfl
  labMembers _ _ hs := hs.same rfl rfl
  updatePlacements p f h _ hq := quotas_update p f h hq
  createPlacement := quotas_createPlacement
  retryPlacement := respects_retryPlacement (fun _ _ _ _ _ => quotas_members.enqueueTask _ _ _ _)
    quotas_members.audit fun s _ _ _ => by
      refine quotas_update _ _ _ (fun r => ?_) s
      rfl
  forceDeletePlacement := respects_forceDeletePlacement
    (fun _ _ _ _ _ => quotas_members.enqueueTask _ _ _ _) quotas_members.audit
    quotas_deletePlacements
  deleteLabRow := quotas_deleteLabRow

/-- **The step lemma.** An act along the condition keeps the quotas together. -/
theorem Db.QuotasFit.step {s : Controller} (h : s.db.QuotasFit) {a : Act} (ha : a.Admitted s) :
    (MassDeployment.step s a).db.QuotasFit := by
  by_cases hreg : a.Registry
  · exact quotas_registry hreg s h
  by_cases hquotas : a.Requotas
  · cases a with
    | updatePlacementQuota placementId fast cold actor => exact quotas_updatePlacementQuota ha h
    | recreatePlacement placementId input actor => exact quotas_recreatePlacement _ _ _ s h
    | _ => exact hquotas.elim
  · refine quotasWalk.act hreg (fun node frame heq => ?_) (fun hq => absurd hq hquotas) s h
    rw [heq]
    exact walk_handleResult quotasWalk.enrols.toWalk (fun _ _ _ => trivial) quotas_members.updateTasks
      quotas_deletePlacements (fun _ _ _ => quotas_members.emit _)
      (fun _ f h hq _ => quotas_update _ f _ hq)
      (fun _ _ _ _ => respects_update quotas_members.placementMembers _ _ _)
      (quotas_members.startCompletionMail quotasWalk.setCompletion) node frame

/-- **In every run whose live changes are admitted, the quotas of every placement fit.** -/
theorem quotas_consistent (host : Host) (acts : List Act)
    (hacts : Run.Along MassDeployment.step (fun s a => a.Admitted s) (.init host) acts) :
    (Run.run MassDeployment.step (.init host) acts).db.QuotasFit :=
  Run.invariant (I := fun s : Controller => s.db.QuotasFit) (fun _ _ h ha => h.step ha)
    (fun _ hp => absurd hp List.not_mem_nil) hacts

/-- A placement that gives every student half of its fast quota. -/
def sharedQuota : List Act :=
  [.provisionNode "n" none, .createLab "lab" none none none,
    .createPlacement { placedInput 1 2200 with studentFastQuotaBytes := some 5 } none]

/-- A change to a quota that still holds the students' is admitted. -/
theorem quotas_consistent_shrunk :
    (Run.run step (.init .plain)
        (sharedQuota ++ [.updatePlacementQuota 1 (some 5) none none])).db.QuotasFit ∧
      (Run.run step (.init .plain)
        (sharedQuota ++ [.updatePlacementQuota 1 (some 5) none none])).db.labPlacements.rows.map
          PlacementRow.quotas = [(5, some 10, some 5, none)] :=
  ⟨quotas_consistent .plain _ (by decide +kernel), by decide +kernel⟩

/-- A live change takes the fast quota of the placement below that of every student. -/
theorem shrunk_below_students :
    ¬ (Run.run step (.init .plain)
      (sharedQuota ++ [.updatePlacementQuota 1 (some 3) none none])).db.QuotasFit := by
  intro h
  have hshrunk : ∃ p ∈ (Run.run step (.init .plain)
      (sharedQuota ++ [.updatePlacementQuota 1 (some 3) none none])).db.labPlacements.rows,
      p.studentFastQuotaBytes = some 5 ∧ p.fastQuotaBytes = 3 := by
    decide +kernel
  obtain ⟨p, hp, hsf, hfast⟩ := hshrunk
  obtain ⟨n, _, _, hfit⟩ := h p hp
  have hle := (hfit.studentFast 5 hsf).2
  omega

end MassDeployment

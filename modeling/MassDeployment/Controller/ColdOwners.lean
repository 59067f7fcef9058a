import MassDeployment.Controller.Teardown

set_option autoImplicit false

/-! # The owners of shared cold storage

An SMB client keeps the cold data of its labs on another node, its owner. The configuration
of the nodes keeps this sound by itself: every owner is another node with a local pool.
That the owner hosts every lab its clients host is guarded by six operations together, and
holds as long as no late result brings a client back or drops an owner that is in use.
-/

namespace MassDeployment

open Js Prog

/-! ## The invariant -/

/-- Every cold owner is another node, which keeps its cold data itself, and only an SMB client
has one. -/
structure Db.Owners (d : Db) : Prop where
  owner : ∀ n ∈ d.nodes.rows, ∀ o, n.coldOwnerNodeId = some o →
    o ≠ n.id ∧ ∃ m ∈ d.nodes.rows, m.id = o ∧ m.coldBackend = .localZfs
  smb : ∀ n ∈ d.nodes.rows, n.coldOwnerNodeId ≠ none → n.coldBackend = .smb

/-- **The SMB dependency.** Besides, a placement that is not being torn down has a placement of
its lab on the owner of its node. -/
structure Db.ColdSound (d : Db) : Prop extends Db.Owners d where
  hosted : ∀ p ∈ d.labPlacements.rows, p.state ≠ .deleting → ∀ n ∈ d.nodes.rows,
    n.id = p.nodeId → n.coldBackend = .smb → ∀ o, n.coldOwnerNodeId = some o →
      ∃ q ∈ d.labPlacements.rows, q.labId = p.labId ∧ q.nodeId = o

theorem Db.coldSound_empty : ({} : Db).ColdSound :=
  ⟨⟨fun _ h => absurd h List.not_mem_nil, fun _ h => absurd h List.not_mem_nil⟩,
    fun _ h => absurd h List.not_mem_nil⟩

/-! ## Writes to nodes -/

/-- The clients of `d'` were clients of `d`, and their owners are still there. -/
structure Db.Attached (d d' : Db) : Prop where
  clients : ∀ n ∈ d'.nodes.rows, n.coldOwnerNodeId ≠ none → ∃ n₀ ∈ d.nodes.rows, n₀.cold = n.cold
  owners : ∀ m ∈ d.nodes.rows, m.coldBackend = .localZfs →
    (∃ n ∈ d'.nodes.rows, n.coldOwnerNodeId = some m.id) →
      ∃ m' ∈ d'.nodes.rows, m'.id = m.id ∧ m'.coldBackend = .localZfs

theorem NodeRow.cold_eq {a b : NodeRow} (h : a.cold = b.cold) :
    a.id = b.id ∧ a.coldBackend = b.coldBackend ∧ a.coldOwnerNodeId = b.coldOwnerNodeId := by
  simpa only [NodeRow.cold, Prod.mk.injEq] using h

theorem Db.Attached.of_cold {d d' : Db}
    (h : d'.nodes.rows.map NodeRow.cold = d.nodes.rows.map NodeRow.cold) : d.Attached d' where
  clients n hn _ := by
    have hmem := h ▸ List.mem_map_of_mem (f := NodeRow.cold) hn
    obtain ⟨n₀, hn₀, he⟩ := List.mem_map.mp hmem
    exact ⟨n₀, hn₀, he⟩
  owners m hm hlocal _ := by
    have hmem := h ▸ List.mem_map_of_mem (f := NodeRow.cold) hm
    obtain ⟨m', hm', he⟩ := List.mem_map.mp hmem
    obtain ⟨hid, hb, _⟩ := NodeRow.cold_eq he
    exact ⟨m', hm', hid, hb.trans hlocal⟩

theorem Db.Owners.attach {d d' : Db} (h : d.Owners) (ha : d.Attached d') : d'.Owners where
  owner n hn o ho := by
    obtain ⟨n₀, hn₀, he⟩ := ha.clients n hn (by rw [ho]; nofun)
    obtain ⟨hid, _, howner⟩ := NodeRow.cold_eq he
    obtain ⟨hne, m, hm, hmo, hlocal⟩ := h.owner n₀ hn₀ o (howner.trans ho)
    obtain ⟨m', hm', hid', hlocal'⟩ := ha.owners m hm hlocal ⟨n, hn, by rw [ho, hmo]⟩
    exact ⟨hid ▸ hne, m', hm', hid'.trans hmo, hlocal'⟩
  smb n hn ho := by
    obtain ⟨n₀, hn₀, he⟩ := ha.clients n hn ho
    obtain ⟨_, hb, howner⟩ := NodeRow.cold_eq he
    exact hb.symm.trans (h.smb n₀ hn₀ (howner ▸ ho))

/-- No live placement is added, and the placement on an owner stays while a client needs it. -/
theorem Db.ColdSound.carry {d d' : Db} (h : d.ColdSound) (ha : d.Attached d')
    (hlive : ∀ p ∈ d'.labPlacements.rows, p.state ≠ .deleting →
      ∃ p₀ ∈ d.labPlacements.rows, p₀.state ≠ .deleting ∧ p₀.labId = p.labId ∧
        p₀.nodeId = p.nodeId)
    (hkept : ∀ q ∈ d.labPlacements.rows,
      (∃ p ∈ d'.labPlacements.rows, p.state ≠ .deleting ∧ p.labId = q.labId ∧
        ∃ n ∈ d'.nodes.rows, n.id = p.nodeId ∧ n.coldOwnerNodeId = some q.nodeId) →
      ∃ q' ∈ d'.labPlacements.rows, q'.labId = q.labId ∧ q'.nodeId = q.nodeId) :
    d'.ColdSound where
  toOwners := h.toOwners.attach ha
  hosted p hp hst n hn hni hsmb o ho := by
    obtain ⟨n₀, hn₀, he⟩ := ha.clients n hn (by rw [ho]; nofun)
    obtain ⟨hid, hb, howner⟩ := NodeRow.cold_eq he
    obtain ⟨p₀, hp₀, hst₀, hlab, hnode⟩ := hlive p hp hst
    obtain ⟨q, hq, hql, hqn⟩ := h.hosted p₀ hp₀ hst₀ n₀ hn₀ (hid.trans (hni.trans hnode.symm))
      (hb.trans hsmb) o (howner.trans ho)
    obtain ⟨q', hq', hql', hqn'⟩ := hkept q hq
      ⟨p, hp, hst, hlab.symm.trans hql.symm, n, hn, hni, by rw [ho, hqn]⟩
    exact ⟨q', hq', hql'.trans (hql.trans hlab), hqn'.trans hqn⟩

/-- Placements are what they were. -/
theorem Db.ColdSound.attach {d d' : Db} (h : d.ColdSound) (ha : d.Attached d')
    (hp : d'.labPlacements = d.labPlacements) : d'.ColdSound :=
  h.carry ha (fun p hmem hst => ⟨p, hp ▸ hmem, hst, rfl, rfl⟩)
    fun q hq _ => ⟨q, hp ▸ hq, rfl, rfl⟩

/-- The registry of nodes keeps `I`: it goes with the owners of the clients, and with the
placements that clients and owners have. -/
structure Db.FollowsOwners (I : Db → Prop) : Prop where
  owners : ∀ {d : Db}, I d → d.Owners
  carry : ∀ {d d' : Db}, I d → d.Attached d' →
    (∀ p ∈ d'.labPlacements.rows, p.state ≠ .deleting →
      ∃ p₀ ∈ d.labPlacements.rows, p₀.state ≠ .deleting ∧ p₀.labId = p.labId ∧
        p₀.nodeId = p.nodeId) →
    (∀ q ∈ d.labPlacements.rows,
      (∃ p ∈ d'.labPlacements.rows, p.state ≠ .deleting ∧ p.labId = q.labId ∧
        ∃ n ∈ d'.nodes.rows, n.id = p.nodeId ∧ n.coldOwnerNodeId = some q.nodeId) →
      ∃ q' ∈ d'.labPlacements.rows, q'.labId = q.labId ∧ q'.nodeId = q.nodeId) → I d'
  reconfigure : ∀ {d d' : Db}, I d → d'.Owners → d'.labPlacements = d.labPlacements →
    (∀ p ∈ d.labPlacements.rows, ∀ n ∈ d'.nodes.rows, n.id = p.nodeId → n ∈ d.nodes.rows) → I d'

theorem Db.followsOwners_coldSound : Db.FollowsOwners Db.ColdSound where
  owners h := h.toOwners
  carry h := h.carry
  reconfigure h ho hp hold := ⟨ho, fun p hmem hst n hn hni => by
    rw [hp] at hmem ⊢
    exact h.hosted p hmem hst n (hold p hmem n hn hni) hni⟩

theorem Db.followsOwners_owners : Db.FollowsOwners Db.Owners :=
  ⟨id, fun h ha _ _ => h.attach ha, fun _ ho _ _ => ho⟩

theorem Db.FollowsOwners.attach {I : Db → Prop} (hI : Db.FollowsOwners I) {d d' : Db} (h : I d)
    (ha : d.Attached d') (hp : d'.labPlacements = d.labPlacements) : I d' :=
  hI.carry h ha (fun p hmem hst => ⟨p, hp ▸ hmem, hst, rfl, rfl⟩)
    fun q hq _ => ⟨q, hp ▸ hq, rfl, rfl⟩

theorem coldSound_congr {s s' : Controller} (hn : s'.db.nodes = s.db.nodes)
    (hp : s'.db.labPlacements = s.db.labPlacements) :
    Keeping (fun s : Controller => s.db.ColdSound) s s' :=
  fun h => h.attach (.of_cold (hn ▸ rfl)) hp

/-! ## Writes to placements -/

theorem coldSound_writeLists (f : Db → Db) (h) :
    Respects (Keeping fun s : Controller => s.db.ColdSound) (Op.writeLists f h) :=
  fun s => coldSound_congr (h s.db).1 (h s.db).2.2.2.2.1

theorem coldSound_enqueueTask (node : String) (action : Action) (params : Params)
    (requestedBy : Option String) :
    Respects (Keeping fun s : Controller => s.db.ColdSound)
      (enqueueTask node action params requestedBy) := by
  intro s
  simp only [enqueueTask]
  split <;> exact coldSound_congr rfl rfl

/-- A placement that goes the quiet way comes back from no teardown. -/
theorem coldSound_update {s : Controller} (p : PlacementRow → Bool)
    (f : PlacementRow → PlacementRow) (h : Row.Keeps p f)
    (hf : ∀ r ∈ s.db.labPlacements.rows, p r = true → PlacementRow.Quiet r (f r)) :
    Keeping (fun s : Controller => s.db.ColdSound) s
      ((Slot.labPlacements.update p f h).after s) := by
  intro hs
  refine hs.carry (.of_cold rfl) (fun r' hr' hst => ?_) fun q hq _ => ?_
  · obtain ⟨r, hr, rfl⟩ := (Table.mem_update (h := h)).mp hr'
    refine ⟨r, hr, ?_⟩
    split
    · have hg : Row.grows r (f r) := h.grows r ‹_›
      refine ⟨?_, hg.2.1.symm, hg.2.2.symm⟩
      rw [if_pos ‹_›] at hst
      rcases hf r hr ‹_› with he | ⟨he, _⟩ | he
      · exact he ▸ hst
      · rw [he]; nofun
      · exact absurd he hst
    · rw [if_neg ‹_›] at hst
      exact ⟨hst, rfl, rfl⟩
  · refine ⟨_, List.mem_map.mpr ⟨q, hq, rfl⟩, ?_⟩
    split
    · have hg : Row.grows q (f q) := h.grows q ‹_›
      exact ⟨hg.2.1, hg.2.2⟩
    · exact ⟨rfl, rfl⟩

/-- Placements may go where no client is left that needs them. -/
theorem coldSound_deletePlacements {victim : PlacementRow → Bool} {s : Controller}
    (h : s.db.ColdSound)
    (hfree : ∀ q ∈ s.db.labPlacements.rows, victim q = true →
      ∀ p ∈ s.db.labPlacements.rows, victim p = false → p.state ≠ .deleting →
        p.labId = q.labId → ∀ n ∈ s.db.nodes.rows, n.id = p.nodeId →
          n.coldOwnerNodeId ≠ some q.nodeId) :
    ((deletePlacements victim).after s).db.ColdSound := by
  refine h.carry (.of_cold rfl) (fun p hp hst => ⟨p, (Table.mem_delete.mp hp).1, hst, rfl, rfl⟩) ?_
  rintro q hq ⟨p, hp, hst, hlab, n, hn, hni, howner⟩
  obtain ⟨hp, hpv⟩ := Table.mem_delete.mp hp
  cases hv : victim q with
  | false => exact ⟨q, Table.mem_delete.mpr ⟨hq, hv⟩, rfl, rfl⟩
  | true => exact absurd howner (hfree q hq hv p hp hpv hst hlab n hn hni)

/-- All placements of a lab may go at once. -/
theorem coldSound_deleteLabRow (labId : Nat) :
    Respects (Keeping fun s : Controller => s.db.ColdSound) (deleteLabRow labId) := by
  have rest : ∀ s, Keeping (fun s : Controller => s.db.ColdSound) s
      ((deletePlacements fun p => p.labId == labId).after s) := by
    refine fun s hs => coldSound_deletePlacements hs fun q hq hv p hp hpv _ hlab => ?_
    rw [hlab, hv] at hpv
    cases hpv
  refine .bind rest fun _ => .bind (fun _ => coldSound_congr rfl rfl) fun _ =>
    .bind (coldSound_writeLists _ _) fun _ _ => coldSound_congr rfl rfl

/-! ## The guards -/

/-- A placement without live clients in its lab passes, and one with some does not. -/
theorem assertNoSmbDependents_free {p : Placement} {s : Controller}
    (h : (assertNoSmbDependents p).run s = (.ok (), s)) (hlocal : p.nodeColdBackend = .localZfs) :
    ∀ q ∈ s.db.placements, q.labId = p.labId → q.nodeColdOwnerNodeId = some p.nodeId →
      q.state = .deleting := by
  intro q hq hlab howner
  by_contra hst
  unfold assertNoSmbDependents at h
  rw [if_neg (by simp [hlocal]), Op.query, run_read_bind] at h
  rw [if_neg] at h
  · cases h
  · rw [List.isEmpty_iff, List.filter_eq_nil_iff]
    intro hnone
    exact absurd (hnone q hq) (by simp [hlab, howner, hst])

/-- What a joined placement says of the cold storage of its node. -/
theorem Db.joinPlacement_cold {d : Db} {p : PlacementRow} {q : Placement}
    (h : d.joinPlacement p = some q) : ∃ n ∈ d.nodes.rows, n.id = p.nodeId ∧
      q.nodeColdBackend = n.coldBackend ∧ q.nodeColdOwnerNodeId = n.coldOwnerNodeId := by
  unfold joinPlacement at h
  split at h
  · rename_i l n hl hn
    cases h
    obtain ⟨hn, hni⟩ := Table.get_eq_some.mp hn
    exact ⟨n, hn, hni, rfl, rfl⟩
  · cases h

/-- A placement of the same lab has its join, where its node is there. -/
theorem Db.join_of_lab {d : Db} {p : Placement} (hp : p ∈ d.placements) {r : PlacementRow}
    (hr : r ∈ d.labPlacements.rows) (hlab : r.labId = p.labId) {n : NodeRow}
    (hn : n ∈ d.nodes.rows) (hni : n.id = r.nodeId) :
    ∃ q ∈ d.placements, q.toPlacementRow = r ∧ q.nodeColdOwnerNodeId = n.coldOwnerNodeId := by
  obtain ⟨_, l, hl, hli, -⟩ := Db.joinPlacement_eq_some (Db.mem_placements.mp hp).2
  have hgl : d.labs.get r.labId = some l := Table.get_eq_some.mpr ⟨hl, hli.trans hlab.symm⟩
  have hgn : d.nodes.get r.nodeId = some n := Table.get_eq_some.mpr ⟨hn, hni⟩
  cases hj : d.joinPlacement r with
  | none =>
      unfold Db.joinPlacement at hj
      rw [hgl, hgn] at hj
      cases hj
  | some q =>
      obtain ⟨hrow, -⟩ := Db.joinPlacement_eq_some hj
      obtain ⟨m, hm, hmi, _, howner⟩ := Db.joinPlacement_cold hj
      have hmn : m = n := d.nodes.eq_of_id hm hn (hmi.trans hni.symm)
      exact ⟨q, List.mem_filterMap.mpr ⟨r, hr, hj⟩, hrow, hmn ▸ howner⟩

/-- The deletion of one placement is free where no live client of its node is left in its
lab. -/
theorem coldSound_deletePlacement {s : Controller} (h : s.db.ColdSound) {p : Placement}
    (hp : p ∈ s.db.placements)
    (hfree : ∀ q ∈ s.db.placements, q.labId = p.labId → q.nodeColdOwnerNodeId = some p.nodeId →
      q.state = .deleting) :
    ((deletePlacements fun r => r.id == p.id).after s).db.ColdSound := by
  refine coldSound_deletePlacements h fun q hq hv r hr _ hst hlab n hn hni howner => ?_
  have hrow : q = p.toPlacementRow :=
    s.db.labPlacements.eq_of_id hq (Db.mem_placements.mp hp).1 (beq_iff_eq.mp hv)
  subst hrow
  obtain ⟨q, hq, rfl, hqo⟩ := Db.join_of_lab hp hr hlab hn hni
  exact hst (hfree q hq hlab (hqo.trans howner))

theorem coldSound_forceDeletePlacement (placementId : Nat) (actor : Option String) :
    Respects (Keeping fun s : Controller => s.db.ColdSound)
      (forceDeletePlacement placementId actor) := by
  have haudit : ∀ target detail,
      Respects (Keeping fun s : Controller => s.db.ColdSound)
        (audit actor "placement.force_delete" target detail) := fun _ _ =>
    .bind (.read _) fun _ => coldSound_writeLists _ _
  intro s
  unfold forceDeletePlacement
  simp only [Op.query, run_read_bind]
  cases hp : s.db.getPlacement placementId with
  | none => exact id
  | some p =>
      obtain ⟨hmem, hid⟩ := Db.getPlacement_eq_some hp
      dsimp only
      split
      · exact respects_failWith _ s
      · obtain ⟨out, hout⟩ := assertNoSmbDependents_run p s
        refine Respects.check_bind hout fun _ hok hs => ?_
        subst hok
        -- an owner keeps its cold data itself, so its clients have been looked for
        have hfree : ∀ q ∈ s.db.placements, q.labId = p.labId →
            q.nodeColdOwnerNodeId = some p.nodeId → q.state = .deleting := by
          intro q hq hlab howner
          obtain ⟨n, hn, hni, hb, -⟩ := Db.joinPlacement_cold (Db.mem_placements.mp hmem).2
          obtain ⟨m, hm, hmi, _, hmo⟩ := Db.joinPlacement_cold (Db.mem_placements.mp hq).2
          obtain ⟨_, n', hn', hni', hlocal⟩ := hs.owner m hm p.nodeId (hmo.symm.trans howner)
          have hnn : n = n' := s.db.nodes.eq_of_id hn hn' (hni.trans hni'.symm)
          subst hnn
          exact assertNoSmbDependents_free hout (hb.trans hlocal) q hq hlab howner
        rcases enqueueTask_run p.nodeName .labDestroy [("lab", .str p.labName)] actor s with
          ⟨T, s', _, hrun, hdb, -⟩ | ⟨e, s', _, hrun, hdb, -⟩
        · rw [run_bind_ok hrun]
          refine (show Keeping (fun s : Controller => s.db.ColdSound) s' _ from
            Respects.bind_at (fun hs' => ?_) fun _ => haudit _ _) ?_
          · rw [← hid]
            refine coldSound_deletePlacement hs' ?_ ?_ <;> rw [hdb]
            · exact hmem
            · exact hfree
          · show s'.db.ColdSound
            rw [hdb]
            exact hs.attach (.of_cold rfl) rfl
        · rw [run_bind_error hrun]
          show s'.db.ColdSound
          rw [hdb]
          exact hs

/-- The rules of the backend let a client in only where its owner hosts the lab. -/
theorem checkColdStorage_run (input : CreatePlacementInput) (node : NodeRow) (s : Controller) :
    ∃ out, (createPlacement.checkColdStorage input node).run s = (out, s) ∧
      (out = .ok () → node.coldBackend = .smb → ∃ o, node.coldOwnerNodeId = some o ∧
        ∃ q ∈ s.db.labPlacements.rows, q.labId = input.labId ∧ q.nodeId = o) := by
  unfold createPlacement.checkColdStorage
  by_cases hsmb : node.coldBackend = .smb
  · rw [if_pos hsmb]
    unfold checkSmbClient
    dsimp only
    cases ho : node.coldOwnerNodeId with
    | none => exact ⟨_, rfl, fun h => by cases h⟩
    | some o =>
        simp only [Op.query, run_read_bind]
        cases s.db.nodes.get o with
        | none => exact ⟨_, rfl, fun h => by cases h⟩
        | some owner =>
            simp only [run_read_bind]
            cases hq : s.db.labPlacements.find fun p => p.labId == input.labId && p.nodeId == o with
            | none => exact ⟨_, rfl, fun h => by cases h⟩
            | some q =>
                obtain ⟨hmem, hkey⟩ := Table.find_some hq
                simp only [Bool.and_eq_true, beq_iff_eq] at hkey
                have hosts : ∃ o', some o = some o' ∧ ∃ q ∈ s.db.labPlacements.rows,
                    q.labId = input.labId ∧ q.nodeId = o' := ⟨o, rfl, q, hmem, hkey⟩
                dsimp only
                repeat' split
                all_goals exact ⟨_, rfl, fun _ _ => hosts⟩
  · rw [if_neg hsmb]
    split
    · exact ⟨_, rfl, fun h => by cases h⟩
    · exact ⟨_, rfl, fun _ h => absurd h hsmb⟩

theorem validateContainerConfig_run (image : String) (opts : ContainerOptions) (s : Controller) :
    ∃ out, (validateContainerConfig image opts).run s = (out, s) := by
  unfold validateContainerConfig
  repeat' split
  all_goals exact ⟨_, rfl⟩

/-- A placement may come where its owner hosts the lab. -/
theorem coldSound_insertPlacement {labId nodeId : Nat} {mk : Nat → PlacementRow} {hmk}
    {s : Controller} (h : s.db.ColdSound)
    (hrow : ∀ i, (mk i).labId = labId ∧ (mk i).nodeId = nodeId)
    (howner : ∀ n ∈ s.db.nodes.rows, n.id = nodeId → n.coldBackend = .smb →
      ∀ o, n.coldOwnerNodeId = some o →
        ∃ q ∈ s.db.labPlacements.rows, q.labId = labId ∧ q.nodeId = o) :
    ((insertPlacement labId nodeId mk hmk).after s).db.ColdSound := by
  unfold insertPlacement Prog.after
  simp only [run_read_bind, id]
  split
  · simp only [Slot.insert, Prog.exchange]
    split
    · rename_i a s' hs
      split at hs
      · rename_i T hT
        cases hs
        obtain ⟨hrows, _⟩ := Table.insert_eq_some hT
        refine ⟨⟨h.owner, h.smb⟩, fun p hp hst n hn hni hsmb o ho => ?_⟩
        replace hp : p ∈ T.rows := hp
        show ∃ q ∈ T.rows, _
        simp only [hrows] at hp ⊢
        have old : (∃ q ∈ s.db.labPlacements.rows, q.labId = p.labId ∧ q.nodeId = o) →
            ∃ q ∈ s.db.labPlacements.rows ++ [mk (s.db.labPlacements.seq + 1)],
              q.labId = p.labId ∧ q.nodeId = o := by
          rintro ⟨q, hq, h'⟩
          exact ⟨q, List.mem_append_left _ hq, h'⟩
        rcases List.mem_append.mp hp with hp | hp
        · exact old (h.hosted p hp hst n hn hni hsmb o ho)
        · obtain rfl := List.mem_singleton.mp hp
          refine old ?_
          rw [(hrow _).1]
          exact howner n hn (hni.trans (hrow _).2) hsmb o ho
      · cases hs
    · exact h
  · exact h

theorem coldSound_createPlacement (hroster : ∀ placement students actor,
      Respects (Keeping fun s : Controller => s.db.ColdSound)
        (provisionRoster placement students actor))
    (input : CreatePlacementInput) (actor : Option String) :
    Respects (Keeping fun s : Controller => s.db.ColdSound) (createPlacement input actor) := by
  intro s
  unfold createPlacement
  simp only [Op.query, run_read_bind]
  cases hn : s.db.nodes.get input.nodeId with
  | none => exact respects_failWith _ s
  | some node =>
      obtain ⟨hmem, hid⟩ := Table.get_eq_some.mp hn
      obtain ⟨out, hout⟩ := validateContainerConfig_run input.image input.containerOptions s
      refine Respects.check_bind hout fun _ _ => ?_
      obtain ⟨out', hout', howner⟩ := checkColdStorage_run input node s
      refine Respects.check_bind hout' fun _ hok => ?_
      subst hok
      refine Respects.ite_at (fun _ => respects_failWith _ s) fun _ =>
        Respects.ite_at (fun _ => respects_failWith _ s) fun _ => ?_
      simp only [Op.now, run_read_bind]
      refine Respects.bind_at (fun hs => ?_) (fun _ => ?_)
      · refine coldSound_insertPlacement hs (fun _ => ⟨rfl, rfl⟩) fun n hn hni hsmb o ho => ?_
        obtain rfl : n = node := s.db.nodes.eq_of_id hn hmem (hni.trans hid.symm)
        obtain ⟨o', ho', hq⟩ := howner rfl hsmb
        cases ho.symm.trans ho'
        exact hq
      · refine .bind (.read _) fun placement => ?_
        split
        · exact .throw _
        · exact .bind (.bind (coldSound_enqueueTask _ _ _ _) fun _ => .pure _) fun _ =>
            .bind (.bind (.read _) fun _ => coldSound_writeLists _ _) fun _ =>
              .bind (.read _) fun _ => hroster _ _ _

/-! ## The registry of nodes -/

section

variable {I : Db → Prop} (hI : Db.FollowsOwners I)

include hI

theorem cold_updateNode (name : String) (f : NodeRow → NodeRow) (h)
    (hf : ∀ r, (f r).cold = r.cold) :
    Respects (Keeping fun s : Controller => I s.db) (updateNode name f h) :=
  fun _ hs => hI.attach hs (.of_cold (Table.map_update NodeRow.cold (keeps_node _ f h) hf)) rfl

/-- A new node has no owner. -/
theorem cold_insertNode (mk : Nat → NodeRow) (hmk)
    (hfree : ∀ i, (mk i).coldOwnerNodeId = none) :
    Respects (Keeping fun s : Controller => I s.db) (Slot.nodes.insert mk hmk) := by
  refine .exchange fun s a s' hs h => ?_
  split at hs
  · rename_i T hT
    cases hs
    obtain ⟨hrows, _⟩ := Table.insert_eq_some hT
    refine hI.attach h ⟨fun n hn ho => ?_, fun m hm hlocal _ => ?_⟩ rfl
    · replace hn : n ∈ T.rows := hn
      rw [hrows] at hn
      rcases List.mem_append.mp hn with hn | hn
      · exact ⟨n, hn, rfl⟩
      · rw [List.mem_singleton.mp hn] at ho
        exact absurd (hfree _) ho
    · refine ⟨m, ?_, rfl, hlocal⟩
      show m ∈ T.rows
      rw [hrows]
      exact List.mem_append_left _ hm
  · cases hs

theorem cold_lists (f : Db → Db) (h) :
    Respects (Keeping fun s : Controller => I s.db) (Op.writeLists f h) :=
  lists_of_rows (Q := Keeping fun s : Controller => I s.db)
    (fun _ _ h hs => hI.attach hs (.of_cold (h.nodes ▸ rfl)) h.labPlacements) f h

theorem cold_members : MemberWalk (Keeping fun s : Controller => I s.db) :=
  memberWalk_of_rows (fun _ _ h hs => hI.attach hs (.of_cold (h.nodes ▸ rfl)) h.labPlacements)
    fun name f h hf => cold_updateNode hI name f h fun r => by
      simp only [NodeRow.cold, (h r).1, (hf r).coldBackend, (hf r).coldOwner]

omit hI in
/-- An owner that passes the checks is another node, with a local pool, and the client owns
nobody's cold data. -/
theorem coldOwner_run (name : String) (backend : ColdBackend) (ownerName : Option String)
    (node : NodeRow) (s : Controller) :
    ∃ out, (setNodeColdStorage.coldOwner name backend ownerName node).run s = (out, s) ∧
      ∀ ownerId, out = .ok ownerId →
        (ownerId = none ∧ backend = .localZfs) ∨
        (backend = .smb ∧ (∃ m ∈ s.db.nodes.rows, ownerId = some m.id ∧ m.id ≠ node.id ∧
            m.coldBackend = .localZfs) ∧
          ∀ n ∈ s.db.nodes.rows, n.coldOwnerNodeId ≠ some node.id) := by
  unfold setNodeColdStorage.coldOwner
  cases backend with
  | localZfs => exact ⟨_, rfl, fun _ h => .inl ⟨(Except.ok.inj h).symm, rfl⟩⟩
  | smb =>
      cases ownerName with
      | none => exact ⟨_, rfl, fun _ h => by cases h⟩
      | some ownerText =>
          dsimp only
          split
          · exact ⟨_, rfl, fun _ h => by cases h⟩
          · simp only [Op.query, run_read_bind]
            cases howner : s.db.node ownerText with
            | none => exact ⟨_, rfl, fun _ h => by cases h⟩
            | some owner =>
                obtain ⟨hmem, _⟩ := Table.find_some howner
                simp only [run_read_bind]
                split
                · exact ⟨_, rfl, fun _ h => by cases h⟩
                · split
                  · exact ⟨_, rfl, fun _ h => by cases h⟩
                  · split
                    · exact ⟨_, rfl, fun _ h => by cases h⟩
                    · rename_i hne hlocal hfree
                      refine ⟨_, rfl, fun _ h => .inr ⟨trivial, ⟨owner, hmem, (Except.ok.inj h).symm,
                        hne, Decidable.not_not.mp hlocal⟩, fun n hn ho => hfree ?_⟩⟩
                      exact List.length_pos_of_mem (Table.mem_select.mpr ⟨hn, beq_iff_eq.mpr ho⟩)

/-- The node has no placements, so no client of its new owner hosts a lab yet. -/
theorem cold_configure {s : Controller} (h : I s.db) {node : NodeRow}
    (hmem : node ∈ s.db.nodes.rows) (hnone : ∀ p ∈ s.db.labPlacements.rows, p.nodeId ≠ node.id)
    {backend : ColdBackend} {ownerId : Option Nat}
    (howner : (ownerId = none ∧ backend = .localZfs) ∨
      (backend = .smb ∧ (∃ m ∈ s.db.nodes.rows, ownerId = some m.id ∧ m.id ≠ node.id ∧
          m.coldBackend = .localZfs) ∧
        ∀ n ∈ s.db.nodes.rows, n.coldOwnerNodeId ≠ some node.id)) :
    I ((Slot.nodes.update (fun n => n.id == node.id)
      (fun n => { n with coldBackend := backend, coldOwnerNodeId := ownerId })
      (keeps_node _ _ fun _ => ⟨rfl, rfl⟩)).after s).db := by
  -- a row of the new table is the node's, or an old one
  have split : ∀ n' ∈ ((Slot.nodes.update (fun n => n.id == node.id)
      (fun n => { n with coldBackend := backend, coldOwnerNodeId := ownerId })
      (keeps_node _ _ fun _ => ⟨rfl, rfl⟩)).after s).db.nodes.rows,
      (n'.id = node.id ∧ n'.coldBackend = backend ∧ n'.coldOwnerNodeId = ownerId) ∨
        (n' ∈ s.db.nodes.rows ∧ n'.id ≠ node.id) := by
    intro n' hn'
    obtain ⟨n, hn, rfl⟩ := List.mem_map.mp hn'
    split
    · exact .inl ⟨beq_iff_eq.mp ‹_›, rfl, rfl⟩
    · exact .inr ⟨hn, fun he => ‹¬_› (beq_iff_eq.mpr he)⟩
  have other : ∀ m ∈ s.db.nodes.rows, m.id ≠ node.id →
      m ∈ ((Slot.nodes.update (fun n => n.id == node.id)
        (fun n => { n with coldBackend := backend, coldOwnerNodeId := ownerId })
        (keeps_node _ _ fun _ => ⟨rfl, rfl⟩)).after s).db.nodes.rows := fun m hm hne =>
    List.mem_map.mpr ⟨m, hm, if_neg fun he => hne (beq_iff_eq.mp he)⟩
  refine hI.reconfigure h ⟨fun n hn o ho => ?_, fun n hn ho => ?_⟩ rfl fun p hp n hn hni => ?_
  · rcases split n hn with ⟨hid, _, hno⟩ | ⟨hn, hne⟩
    · rcases howner with ⟨hnil, _⟩ | ⟨_, ⟨m, hm, hmo, hne, hlocal⟩, _⟩
      · rw [hno, hnil] at ho
        cases ho
      · rw [hno, hmo] at ho
        cases ho
        exact ⟨hid ▸ hne, m, other m hm hne, rfl, hlocal⟩
    · obtain ⟨hon, m, hm, hmo, hlocal⟩ := (hI.owners h).owner n hn o ho
      refine ⟨hon, ?_⟩
      by_cases hmn : m.id = node.id
      · rcases howner with ⟨_, hb⟩ | ⟨_, _, hfree⟩
        · -- the owner's own configuration is set again
          refine ⟨_, List.mem_map.mpr ⟨node, hmem, if_pos (beq_self_eq_true _)⟩, ?_, hb⟩
          exact hmn.symm.trans hmo
        · exact absurd (ho.trans (congrArg some (hmo.symm.trans hmn))) (hfree n hn)
      · exact ⟨m, other m hm hmn, hmo, hlocal⟩
  · rcases split n hn with ⟨_, hb, hno⟩ | ⟨hn, _⟩
    · rcases howner with ⟨hnil, _⟩ | ⟨hsmb, _, _⟩
      · exact absurd (hno.trans hnil) ho
      · exact hb.trans hsmb
    · exact (hI.owners h).smb n hn ho
  · rcases split n hn with ⟨hid, _, _⟩ | ⟨hn, _⟩
    · exact absurd (hni.symm.trans hid) (hnone p hp)
    · exact hn

theorem cold_setNodeColdStorage (name : String) (backend : ColdBackend)
    (ownerName actor : Option String) :
    Respects (Keeping fun s : Controller => I s.db)
      (setNodeColdStorage name backend ownerName actor) := by
  intro s
  unfold setNodeColdStorage
  simp only [Op.query, run_read_bind]
  cases hn : s.db.node name with
  | none => exact respects_failWith _ s
  | some node =>
      obtain ⟨hmem, _⟩ := Table.find_some hn
      simp only [run_read_bind]
      refine Respects.ite_at (fun _ => respects_failWith _ s) fun hcount => ?_
      obtain ⟨out, hout, howner⟩ := coldOwner_run name backend ownerName node s
      refine Respects.check_bind hout fun ownerId hok => ?_
      refine Respects.bind_at (fun hs => ?_) (fun _ => (cold_members hI).audit _ _ _ _)
      have hnone : ∀ p ∈ s.db.labPlacements.rows, p.nodeId ≠ node.id := by
        intro p hp hpn
        exact hcount (List.length_pos_of_mem (Table.mem_select.mpr ⟨hp, beq_iff_eq.mpr hpn⟩))
      exact cold_configure hI hs hmem hnone (howner ownerId hok)

/-- Placements hold a node back, and so do clients. -/
theorem cold_deleteNodeRow (nodeId : Nat) :
    Respects (Keeping fun s : Controller => I s.db) (deleteNodeRow nodeId) := by
  intro s hs
  unfold deleteNodeRow
  simp only [Op.query, run_read_bind]
  split
  · exact hs
  · rename_i href
    simp only [Bool.or_eq_true, List.any_eq_true, not_or, not_exists, not_and] at href
    refine hI.attach hs ⟨fun n hn _ => ⟨n, (Table.mem_delete.mp hn).1, rfl⟩, ?_⟩ rfl
    rintro m hm hlocal ⟨n, hn, ho⟩
    obtain ⟨hn, hne⟩ := Table.mem_delete.mp hn
    refine ⟨m, Table.mem_delete.mpr ⟨hm, ?_⟩, rfl, hlocal⟩
    by_contra heq
    simp only [Bool.not_eq_false, beq_iff_eq] at heq
    refine href.2 n hn ?_
    simp only [bne, hne, ho, heq, beq_self_eq_true, Bool.not_false, Bool.and_self]

/-- A forced deletion takes the placements and the clients off the node. -/
theorem cold_detach {s : Controller} (h : I s.db) (nodeId : Nat) :
    I ((Slot.nodes.update (fun n => n.coldOwnerNodeId == some nodeId)
      (fun n => { n with coldOwnerNodeId := none, coldReady := false })
      (keeps_node _ _ fun _ => ⟨rfl, rfl⟩)).after
        ((deletePlacements fun p => p.nodeId == nodeId).after s)).db := by
  refine hI.carry h ⟨fun n' hn' ho => ?_, fun m hm hlocal _ => ?_⟩
    (fun p hp hst => ⟨p, (Table.mem_delete.mp hp).1, hst, rfl, rfl⟩) ?_
  · obtain ⟨n, hn, rfl⟩ := List.mem_map.mp hn'
    refine ⟨n, hn, ?_⟩
    split
    · rw [if_pos ‹_›] at ho
      exact absurd rfl ho
    · rfl
  · refine ⟨_, List.mem_map.mpr ⟨m, hm, rfl⟩, ?_⟩
    split <;> exact ⟨rfl, hlocal⟩
  · rintro q hq ⟨p, hp, hst, hlab, n', hn', hni, ho⟩
    refine ⟨q, Table.mem_delete.mpr ⟨hq, ?_⟩, rfl, rfl⟩
    by_contra heq
    simp only [Bool.not_eq_false, beq_iff_eq] at heq
    -- no client of the node is left
    obtain ⟨n, hn, rfl⟩ := List.mem_map.mp hn'
    split at ho
    · cases ho
    · rename_i hne
      rw [heq] at ho
      exact hne (beq_iff_eq.mpr ho)

theorem cold_deleteNode (name : String) (actor : Option String) (force : Bool) :
    Respects (Keeping fun s : Controller => I s.db) (deleteNode name actor force) := by
  refine .bind (.read _) fun row => ?_
  dsimp only
  split
  · exact respects_failWith _
  · refine .ite (fun _ => respects_failWith _) fun _ => .bind (.read _) fun _ =>
      .bind (.read _) fun _ => .ite (fun _ => respects_failWith _) fun _ =>
        .ite (fun _ => respects_failWith _) fun _ =>
          .bind (.atomically ?_) fun _ => (cold_members hI).audit _ _ _ _
    have rest : ∀ nodeId, Respects (Keeping fun s : Controller => I s.db) (do
        deleteTasks fun t => t.node == name
        Op.writeLists fun d =>
          { d with gpuSnapshot := d.gpuSnapshot.filter fun g => g.node != name }
        deleteNodeRow nodeId) := fun _ =>
      .bind (fun _ hs => hI.attach hs (.of_cold rfl) rfl) fun _ =>
        .bind (cold_lists hI _ _) fun _ => cold_deleteNodeRow hI _
    refine .ite (fun _ s hs => ?_) fun _ => rest _
    exact rest _ _ (cold_detach hI hs _)

theorem cold_registry {a : Act} (ha : a.Registry) :
    Respects (Keeping fun s : Controller => I s.db) a.run :=
  (cold_members hI).registry (cold_updateNode hI) (cold_insertNode hI) (cold_deleteNode hI)
    (cold_setNodeColdStorage hI) ha

end

/-! ## The other functions -/

theorem coldMembers : MemberWalk (Keeping fun s : Controller => s.db.ColdSound) :=
  cold_members Db.followsOwners_coldSound

/-- The configuration of the nodes keeps the owners, whatever else happens. -/
theorem ownersWalk : FreeWalk (Keeping fun s : Controller => s.db.Owners) where
  toMemberWalk := cold_members Db.followsOwners_owners
  anyLists := cold_lists Db.followsOwners_owners
  labs _ _ h := ⟨h.owner, h.smb⟩
  students _ _ h := ⟨h.owner, h.smb⟩
  labMembers _ _ h := ⟨h.owner, h.smb⟩
  labPlacements _ _ h := ⟨h.owner, h.smb⟩

theorem Db.Owners.step {s : Controller} (h : s.db.Owners) (a : Act) :
    (MassDeployment.step s a).db.Owners := by
  by_cases ha : a.Registry
  · exact cold_registry Db.followsOwners_owners ha s h
  · exact ownersWalk.act ha s h

/-- **In every state a run reaches, a cold owner is another node with a local pool.** -/
theorem owners_run (host : Host) (acts : List Act) :
    (Run.run MassDeployment.step (.init host) acts).db.Owners :=
  Run.invariant_all (I := fun s : Controller => s.db.Owners) (fun _ a h => h.step a)
    Db.coldSound_empty.toOwners

theorem coldWalk : RowWalk (Keeping fun s : Controller => s.db.ColdSound) where
  toMemberWalk := coldMembers
  anyLists := cold_lists Db.followsOwners_coldSound
  labs _ _ := coldSound_congr rfl rfl
  students _ _ := coldSound_congr rfl rfl
  labMembers _ _ := coldSound_congr rfl rfl
  updatePlacements p f h hf _ _ := coldSound_update p f h fun r _ _ => hf r
  createPlacement := coldSound_createPlacement fun placement students actor => by
    cases students with
    | nil => exact .pure _
    | cons student rest => exact .bind (coldMembers.provisionMember _ _ _) fun _ => .pure _
  retryPlacement := respects_retryPlacement (fun _ _ _ _ _ => coldSound_enqueueTask _ _ _ _)
    coldMembers.audit fun _ _ _ hfailed => coldSound_update _ _ _ fun r hr hid =>
      .inr (.inl ⟨hfailed r hr (beq_iff_eq.mp hid), rfl⟩)
  forceDeletePlacement := coldSound_forceDeletePlacement
  deleteLabRow := coldSound_deleteLabRow

/-! ## Results -/

/-- The placement a result of task `t` names, if it names one. -/
def Controller.namedBy (s : Controller) (node : String) (frame : ResultFrame) (t : TaskRow) :
    Option Placement :=
  match resultLab frame t with
  | .error _ => none
  | .ok lab =>
    if lab.truthy then
      match s.db.lookupPlacement s.host.conversions lab node with
      | .error _ => none
      | .ok p => p
    else none

theorem Controller.namedBy_eq {s : Controller} {node : String} {frame : ResultFrame} {t : TaskRow}
    {lab : Value} {p : Option Placement} (hlab : resultLab frame t = .ok lab)
    (hp : s.db.lookupPlacement s.host.conversions lab node = .ok p) (ht : lab.truthy = true) :
    s.namedBy node frame t = p := by
  unfold namedBy
  rw [hlab]
  simp only [ht, if_true, hp]

/-- A result that brings a client back from its teardown finds the lab on its owner, and one
that confirms the teardown of an owner finds no live client. -/
def OwnersKept (s : Controller) : Act → Prop
  | .frame node (.result frame) =>
    ∀ t ∈ s.db.taskLog.rows, t.openFor node frame.id = true →
      ∀ p ∈ s.namedBy node frame t, p.state = .deleting →
        (t.action = .labCreate → ∀ o ∈ p.nodeColdOwnerNodeId,
          ∃ q ∈ s.db.labPlacements.rows, q.labId = p.labId ∧ q.nodeId = o) ∧
        (t.action = .labDestroy → frame.ok = true → ∀ q ∈ s.db.placements, q.labId = p.labId →
          q.nodeColdOwnerNodeId = some p.nodeId → q.state = .deleting)
  | _ => True

instance (s : Controller) : (a : Act) → Decidable (OwnersKept s a) :=
  decidableOnReports (fun _ _ => inferInstanceAs (Decidable (∀ t ∈ s.db.taskLog.rows, _))) fun a ha => by
    unfold OwnersKept
    split
    · exact absurd rfl (ha _ _)
    · trivial

/-- The mark of a result brings a placement back from its teardown only under its owner. -/
theorem coldSound_mark {s : Controller} (h : s.db.ColdSound) {p : Placement}
    (hp : p ∈ s.db.placements) (state : PlacementState) (error : Option String)
    (howner : state ≠ .deleting → p.state = .deleting → ∀ o ∈ p.nodeColdOwnerNodeId,
      ∃ q ∈ s.db.labPlacements.rows, q.labId = p.labId ∧ q.nodeId = o) :
    ((markPlacementState p.id state error).after s).db.ColdSound := by
  obtain ⟨hrow, hjoin⟩ := Db.mem_placements.mp hp
  -- what is at the key of a placement stays there
  have same : ∀ r ∈ s.db.labPlacements.rows, ∃ r' ∈
      ((markPlacementState p.id state error).after s).db.labPlacements.rows,
        r'.labId = r.labId ∧ r'.nodeId = r.nodeId := fun r hr => by
    refine ⟨_, List.mem_map.mpr ⟨r, hr, rfl⟩, ?_⟩
    split <;> exact ⟨rfl, rfl⟩
  refine ⟨⟨h.owner, h.smb⟩, fun r' hr' hst n hn hni hsmb o ho => ?_⟩
  obtain ⟨r, hr, rfl⟩ := List.mem_map.mp hr'
  have old : (∃ q ∈ s.db.labPlacements.rows, q.labId = r.labId ∧ q.nodeId = o) →
      ∃ q' ∈ ((markPlacementState p.id state error).after s).db.labPlacements.rows,
        q'.labId = r.labId ∧ q'.nodeId = o := by
    rintro ⟨q, hq, hql, hqn⟩
    obtain ⟨q', hq', hql', hqn'⟩ := same q hq
    exact ⟨q', hq', hql'.trans hql, hqn'.trans hqn⟩
  by_cases hid : (r.id == p.id) = true
  · rw [if_pos hid] at hst hni ⊢
    obtain rfl : r = p.toPlacementRow :=
      s.db.labPlacements.eq_of_id hr hrow (beq_iff_eq.mp hid)
    refine old ?_
    by_cases hdel : p.state = .deleting
    · obtain ⟨m, hm, hmi, _, hmo⟩ := Db.joinPlacement_cold hjoin
      obtain rfl : n = m := s.db.nodes.eq_of_id hn hm (hni.trans hmi.symm)
      exact howner hst hdel o (hmo.trans ho)
    · exact h.hosted _ hrow hdel n hn hni hsmb o ho
  · rw [if_neg hid] at hst hni ⊢
    exact old (h.hosted r hr hst n hn hni hsmb o ho)

theorem ResultWrite.coldSound {node : String} {frame : ResultFrame} {t : TaskRow}
    {s s' : Controller} (hw : ResultWrite node frame t s s') (h : s.db.ColdSound)
    (hkept : ∀ p ∈ s.namedBy node frame t, p.state = .deleting →
      (t.action = .labCreate → ∀ o ∈ p.nodeColdOwnerNodeId,
        ∃ q ∈ s.db.labPlacements.rows, q.labId = p.labId ∧ q.nodeId = o) ∧
      (t.action = .labDestroy → frame.ok = true → ∀ q ∈ s.db.placements, q.labId = p.labId →
        q.nodeColdOwnerNodeId = some p.nodeId → q.state = .deleting)) : s'.db.ColdSound := by
  cases hw with
  | none _ => exact h
  | created lab p error ha hlab hp ht =>
      obtain ⟨_, -, hmem, -⟩ := Db.lookupPlacement_eq_some hp
      exact coldSound_mark h hmem _ _ fun _ hdel =>
        (hkept p (Controller.namedBy_eq hlab hp ht) hdel).1 ha
  | destroyFailed lab p error ha hok hlab hp ht =>
      obtain ⟨_, -, hmem, -⟩ := Db.lookupPlacement_eq_some hp
      exact coldSound_mark h hmem _ _ fun hne => absurd rfl hne
  | destroyed lab p ha hok hlab hp hdel ht =>
      obtain ⟨_, -, hmem, -⟩ := Db.lookupPlacement_eq_some hp
      exact coldSound_deletePlacement h hmem
        ((hkept p (Controller.namedBy_eq hlab hp ht) hdel).2 ha hok)
  | added lab user j error _ _ _ _ => exact h.attach (.of_cold rfl) rfl

/-- What is still keeps the invariant. -/
theorem Still.coldSound {s s' : Controller} (h : Still s s') (hs : s.db.ColdSound) :
    s'.db.ColdSound := by
  refine hs.carry (.of_cold h.cold) (fun p hp hst => ?_) fun q hq _ => ?_
  · have hmem := h.standing ▸ List.mem_map_of_mem (f := PlacementRow.standing) hp
    obtain ⟨p₀, hp₀, he⟩ := List.mem_map.mp hmem
    simp only [PlacementRow.standing, Prod.mk.injEq] at he
    exact ⟨p₀, hp₀, he.2.2.2.1 ▸ hst, he.2.1, he.2.2.1⟩
  · have hmem := h.standing ▸ List.mem_map_of_mem (f := PlacementRow.standing) hq
    obtain ⟨q', hq', he⟩ := List.mem_map.mp hmem
    simp only [PlacementRow.standing, Prod.mk.injEq] at he
    exact ⟨q', hq', he.2.1, he.2.2.1⟩

/-! ## Every step -/

/-- A step that is no result keeps the invariant by its own guards. -/
theorem coldSound_act {a : Act} (ha : ∀ node frame, a ≠ .frame node (.result frame)) :
    Respects (Keeping fun s : Controller => s.db.ColdSound) a.run := by
  by_cases hreg : a.Registry
  · exact cold_registry Db.followsOwners_coldSound hreg
  · exact coldWalk.act hreg (fun node frame heq => absurd heq (ha node frame))
      fun _ _ f _ hf _ => coldSound_update _ f _ fun r _ _ => hf r

/-- **The step lemma.** A step along the condition keeps the SMB dependency. -/
theorem Db.ColdSound.step {s : Controller} (h : s.db.ColdSound) {a : Act} (hc : OwnersKept s a) :
    (MassDeployment.step s a).db.ColdSound := by
  by_cases ha : ∃ node frame, a = .frame node (.result frame)
  · obtain ⟨node, frame, rfl⟩ := ha
    by_cases hopen : ∃ t ∈ s.db.taskLog.rows, t.openFor node frame.id = true
    · obtain ⟨t, ht, hopen⟩ := hopen
      obtain ⟨s₁, s₂, _, hm, hw, _, hstill⟩ := accepted_step ht hopen
      have hdb : s₁.db = (s.settled node frame).db := hm.1
      have hhost : s₁.host = s.host := hm.2.1
      have h₁ : s₁.db.ColdSound := by
        rw [hdb]
        exact h.attach (.of_cold rfl) rfl
      refine hstill.coldSound (hw.coldSound h₁ ?_)
      unfold Controller.namedBy
      rw [hdb, hhost]
      exact hc t ht hopen
    · rw [ignored_step (by simpa using hopen)]
      exact h
  · exact coldSound_act (fun node frame he => ha ⟨node, frame, he⟩) s h

/-! ## Whole runs -/

/-- **The SMB dependency holds in every run along the condition.** -/
theorem cold_owners_hosted (host : Host) (acts : List Act)
    (hacts : Run.Along step OwnersKept (.init host) acts) :
    (Run.run step (.init host) acts).db.ColdSound :=
  Run.invariant (I := fun s : Controller => s.db.ColdSound) (fun _ _ h hc => h.step hc)
    Db.coldSound_empty hacts

/-- What both nodes report about the numeric ids of their containers. -/
def sharedCapabilities : Json :=
  .obj [("runtime", .obj [("userns_start", .num 100000), ("userns_size", .num 65536)])]

/-- A lab on a node and on its SMB client: the `lab.create` of the client is task `uuu`. -/
def sharedLab : List Act :=
  [.provisionNode "n" none, .provisionNode "c" none,
    .setNodeColdStorage "c" .smb (some "n") none, .registerNode "n" sharedCapabilities,
    .registerNode "c" sharedCapabilities,
    .frame "c" (.telemetry (some (.obj [("cold", .obj [("ready", .bool true)])]))),
    .createLab "lab" none none none, .createPlacement (placedInput 1 2200) none,
    succeeded "n" "uu", .createPlacement { placedInput 1 2201 with nodeId := 2 } none]

/-- The client is torn down before its owner, and both teardowns are confirmed in that order. -/
theorem cold_owners_hosted_shared :
    (Run.run step (.init .plain) (sharedLab ++ [succeeded "c" "uuu", .destroyPlacement 2 none,
        .destroyPlacement 1 none, succeeded "c" "uuuu", succeeded "n" "uuuuu"])).db.ColdSound ∧
      (Run.run step (.init .plain) (sharedLab ++ [succeeded "c" "uuu"])).db.labPlacements.rows.map
        (fun p => (p.nodeId, p.state)) = [(1, .active), (2, .active)] ∧
      (Run.run step (.init .plain) (sharedLab ++ [succeeded "c" "uuu", .destroyPlacement 2 none,
        .destroyPlacement 1 none, succeeded "c" "uuuu",
          succeeded "n" "uuuuu"])).db.labPlacements.rows = [] :=
  ⟨cold_owners_hosted .plain _ (by decide +kernel), by decide +kernel, by decide +kernel⟩

/-- The `lab.create` of the client is still under way when client and owner are torn down. The
owner's teardown is confirmed first, and the late result makes the client `active` without a
placement on its owner. -/
theorem late_create_strands_client :
    ¬ (Run.run step (.init .plain) (sharedLab ++ [.destroyPlacement 2 none,
      .destroyPlacement 1 none, succeeded "n" "uuuuu", succeeded "c" "uuu"])).db.ColdSound := by
  intro h
  have hstranded : ∃ p ∈ (Run.run step (.init .plain) (sharedLab ++ [.destroyPlacement 2 none,
        .destroyPlacement 1 none, succeeded "n" "uuuuu",
          succeeded "c" "uuu"])).db.labPlacements.rows, p.state ≠ .deleting ∧
      ∃ n ∈ (Run.run step (.init .plain) (sharedLab ++ [.destroyPlacement 2 none,
        .destroyPlacement 1 none, succeeded "n" "uuuuu", succeeded "c" "uuu"])).db.nodes.rows,
        n.id = p.nodeId ∧ n.coldBackend = .smb ∧ n.coldOwnerNodeId = some 1 ∧
          ∀ q ∈ (Run.run step (.init .plain) (sharedLab ++ [.destroyPlacement 2 none,
            .destroyPlacement 1 none, succeeded "n" "uuuuu",
              succeeded "c" "uuu"])).db.labPlacements.rows, q.nodeId ≠ 1 := by
    decide +kernel
  obtain ⟨p, hp, hst, n, hn, hni, hsmb, ho, hnone⟩ := hstranded
  obtain ⟨q, hq, _, hqn⟩ := h.hosted p hp hst n hn hni hsmb 1 ho
  exact hnone q hq hqn

end MassDeployment

import MassDeployment.Controller.Waits

set_option autoImplicit false

/-! # What only a result can do

Apart from the arrival of a result, nothing the controller does activates a placement or a
member, settles a task, or lets a password out that was not stored with an active member.
`Quiet` is the relation that says so, as a preorder on states; `Calls` shows that every
function of the controller except `handleResult` respects it.

The relation has two parameters: which tasks may be issued on the way, and for which nodes
no row of the log may be deleted.
-/

namespace MassDeployment

/-! ## Referential integrity -/

/-- The foreign keys the result path follows, and the names it compares. -/
structure Db.Linked (d : Db) : Prop where
  labName : ∀ l ∈ d.labs.rows, l.name ≠ ""
  lab : ∀ p ∈ d.labPlacements.rows, ∃ l ∈ d.labs.rows, l.id = p.labId
  node : ∀ p ∈ d.labPlacements.rows, ∃ n ∈ d.nodes.rows, n.id = p.nodeId
  placement : ∀ m ∈ d.placementMembers.rows, ∃ p ∈ d.labPlacements.rows, p.id = m.placementId
  student : ∀ m ∈ d.placementMembers.rows, ∃ r ∈ d.students.rows, r.id = m.studentId

/-- Integrity survives where the referenced rows stay and the referencing rows are old. -/
theorem Db.Linked.carry {d d' : Db} (h : d.Linked)
    (hname : ∀ l ∈ d'.labs.rows, l.name ≠ "") (hlabs : d.labs.Keeps d'.labs)
    (hnodes : d.nodes.Keeps d'.nodes) (hstudents : d.students.Keeps d'.students)
    (hp : d.labPlacements.Evolves d'.labPlacements) (hpseq : d'.labPlacements.seq = d.labPlacements.seq)
    (hpk : d.labPlacements.Keeps d'.labPlacements)
    (hm : d.placementMembers.Evolves d'.placementMembers)
    (hmseq : d'.placementMembers.seq = d.placementMembers.seq) : d'.Linked where
  labName := hname
  lab p' hp' := by
    obtain ⟨p, hmem, hg⟩ := hp.grows p' hp' (hpseq ▸ d'.labPlacements.bounded p' hp')
    exact hg.2.1 ▸ hlabs.get (h.lab p hmem)
  node p' hp' := by
    obtain ⟨p, hmem, hg⟩ := hp.grows p' hp' (hpseq ▸ d'.labPlacements.bounded p' hp')
    exact hg.2.2 ▸ hnodes.get (h.node p hmem)
  placement m' hm' := by
    obtain ⟨m, hmem, hg⟩ := hm.grows m' hm' (hmseq ▸ d'.placementMembers.bounded m' hm')
    exact hg.2.1 ▸ hpk.get (h.placement m hmem)
  student m' hm' := by
    obtain ⟨m, hmem, hg⟩ := hm.grows m' hm' (hmseq ▸ d'.placementMembers.bounded m' hm')
    exact hg.2.2 ▸ hstudents.get (h.student m hmem)

theorem Db.linked_empty : ({} : Db).Linked := by
  constructor <;> intro r hr <;> cases hr

/-! ## Joins -/

namespace Db

theorem joinPlacement_eq_some {d : Db} {p : PlacementRow} {q : Placement}
    (h : d.joinPlacement p = some q) :
    q.toPlacementRow = p ∧ ∃ l ∈ d.labs.rows, l.id = p.labId ∧ q.labName = l.name ∧
      ∃ n ∈ d.nodes.rows, n.id = p.nodeId ∧ q.nodeName = n.name ∧ q.online = n.online := by
  unfold joinPlacement at h
  split at h
  · rename_i l n hl hn
    cases h
    obtain ⟨hl, hli⟩ := Table.get_eq_some.mp hl
    obtain ⟨hn, hni⟩ := Table.get_eq_some.mp hn
    exact ⟨rfl, l, hl, hli, rfl, n, hn, hni, rfl, rfl⟩
  · cases h

/-- Under referential integrity every placement has its join. -/
theorem Linked.joinPlacement {d : Db} (h : d.Linked) {p : PlacementRow}
    (hp : p ∈ d.labPlacements.rows) : ∃ q, d.joinPlacement p = some q := by
  obtain ⟨l, hl, hli⟩ := h.lab p hp
  obtain ⟨n, hn, hni⟩ := h.node p hp
  unfold Db.joinPlacement
  rw [Table.get_eq_some.mpr ⟨hl, hli⟩, Table.get_eq_some.mpr ⟨hn, hni⟩]
  exact ⟨_, rfl⟩

theorem mem_placements {d : Db} {q : Placement} :
    q ∈ d.placements ↔ q.toPlacementRow ∈ d.labPlacements.rows ∧
      d.joinPlacement q.toPlacementRow = some q := by
  unfold placements
  rw [List.mem_filterMap]
  constructor
  · rintro ⟨p, hp, hq⟩
    have := (joinPlacement_eq_some hq).1
    exact this ▸ ⟨this.symm ▸ hp, this.symm ▸ hq⟩
  · rintro ⟨hp, hq⟩
    exact ⟨_, hp, hq⟩

theorem mem_joinedMembers {d : Db} {j : JoinedMember} :
    j ∈ d.joinedMembers ↔ j.member ∈ d.placementMembers.rows ∧
      d.getPlacement j.member.placementId = some j.placement ∧
      d.students.get j.member.studentId = some j.student := by
  unfold joinedMembers
  rw [List.mem_filterMap]
  constructor
  · rintro ⟨m, hm, hj⟩
    split at hj
    · cases hj
      exact ⟨hm, ‹_›, ‹_›⟩
    · cases hj
  · rintro ⟨hm, hp, hs⟩
    exact ⟨j.member, hm, by rw [hp, hs]⟩

theorem getPlacement_eq_some {d : Db} {i : Nat} {q : Placement} (h : d.getPlacement i = some q) :
    q ∈ d.placements ∧ q.id = i := by
  unfold getPlacement at h
  obtain ⟨p, hp, hq⟩ := Option.bind_eq_some_iff.mp h
  obtain ⟨hp, hid⟩ := Table.get_eq_some.mp hp
  have := (joinPlacement_eq_some hq).1
  subst this
  exact ⟨mem_placements.mpr ⟨hp, hq⟩, hid⟩

theorem lookupPlacement_eq_some {d : Db} {c : Js.Conversions} {labName : Js.Value}
    {nodeName : String} {p : Placement}
    (h : d.lookupPlacement c labName nodeName = .ok (some p)) :
    ∃ named, namesPlacement c labName nodeName = .ok named ∧ p ∈ d.placements ∧
      named p.labName p.nodeName = true := by
  unfold lookupPlacement at h
  cases hn : namesPlacement c labName nodeName with
  | error e =>
      rw [hn] at h
      cases h
  | ok named =>
      rw [hn] at h
      have hf := Except.ok.inj h
      exact ⟨named, rfl, List.mem_of_find?_eq_some hf, by simpa using List.find?_some hf⟩

theorem lookupMember_eq_some {d : Db} {c : Js.Conversions} {labName username : Js.Value}
    {nodeName : String} {j : JoinedMember}
    (h : d.lookupMember c labName nodeName username = .ok (some j)) :
    ∃ named, namesMember c labName nodeName username = .ok named ∧ j ∈ d.joinedMembers ∧
      named j.placement.labName j.placement.nodeName j.student.username = true := by
  unfold lookupMember at h
  cases hn : namesMember c labName nodeName username with
  | error e =>
      rw [hn] at h
      cases h
  | ok named =>
      rw [hn] at h
      have hf := Except.ok.inj h
      exact ⟨named, rfl, List.mem_of_find?_eq_some hf, by simpa using List.find?_some hf⟩

/-- A joined row is determined by its key. -/
theorem placements_key {d : Db} {p q : Placement} (hp : p ∈ d.placements)
    (hq : q ∈ d.placements) (h : p.id = q.id) : p = q := by
  obtain ⟨hpr, hpj⟩ := mem_placements.mp hp
  obtain ⟨hqr, hqj⟩ := mem_placements.mp hq
  have hrow : p.toPlacementRow = q.toPlacementRow := d.labPlacements.eq_of_id hpr hqr h
  rw [hrow, hqj] at hpj
  exact (Option.some.inj hpj).symm

theorem joinedMembers_key {d : Db} {i j : JoinedMember} (hi : i ∈ d.joinedMembers)
    (hj : j ∈ d.joinedMembers) (h : i.member.id = j.member.id) : i = j := by
  obtain ⟨him, hip, his⟩ := mem_joinedMembers.mp hi
  obtain ⟨hjm, hjp, hjs⟩ := mem_joinedMembers.mp hj
  have hrow : i.member = j.member := d.placementMembers.eq_of_id him hjm h
  rw [hrow, hjp] at hip
  rw [hrow, hjs] at his
  cases i
  cases j
  cases hrow
  cases hip
  cases his
  rfl

end Db

/-! ## Lookups by name -/

theorem lift_run {α : Type} (x : Except Js.Error α) (s : Controller) :
    (Op.lift x).run s = (x, s) := by
  cases x <;> rfl

theorem memberByNames_run (labName : Js.Value) (nodeName : String) (username : Js.Value)
    (s : Controller) :
    (memberByNames labName nodeName username).run s =
      (s.db.lookupMember s.host.conversions labName nodeName username, s) := lift_run _ s

theorem getPlacementByLabNode_run (labName : Js.Value) (nodeName : String) (s : Controller) :
    (getPlacementByLabNode labName nodeName).run s =
      (s.db.lookupPlacement s.host.conversions labName nodeName, s) := lift_run _ s

/-- **Names stay with keys.** The placement under an old key had the same names before. -/
theorem Controller.Evolves.placement_names {s s' : Controller} (h : s.Evolves s')
    (hl : s.db.Linked) {q' : Placement} (hq' : q' ∈ s'.db.placements) {p : PlacementRow}
    (hp : p ∈ s.db.labPlacements.rows) (hid : q'.id = p.id) :
    ∃ q ∈ s.db.placements, q.toPlacementRow = p ∧ q.labName = q'.labName ∧
      q.nodeName = q'.nodeName := by
  obtain ⟨hp', hq'⟩ := Db.mem_placements.mp hq'
  obtain ⟨_, l', hl', hli', hln', n', hn', hni', hnn', _⟩ := Db.joinPlacement_eq_some hq'
  obtain ⟨q, hq⟩ := hl.joinPlacement hp
  obtain ⟨hrow, l, hl, hli, hln, n, hn, hni, hnn, _⟩ := Db.joinPlacement_eq_some hq
  subst hrow
  have hg := h.labPlacements.get (Table.get_eq_some.mpr ⟨hp, rfl⟩)
    (Table.get_eq_some.mpr ⟨hp', hid⟩)
  have hgl := h.labs.get (Table.get_eq_some.mpr ⟨hl, hli⟩)
    (Table.get_eq_some.mpr ⟨hl', hli'.trans hg.2.1⟩)
  have hgn := h.nodes.get (Table.get_eq_some.mpr ⟨hn, hni⟩)
    (Table.get_eq_some.mpr ⟨hn', hni'.trans hg.2.2⟩)
  exact ⟨q, Db.mem_placements.mpr ⟨hp, hq⟩, rfl, hln.trans (hgl.2.symm.trans hln'.symm),
    hnn.trans (hgn.2.symm.trans hnn'.symm)⟩

/-- The member under an old key had the same names before. -/
theorem Controller.Evolves.member_names {s s' : Controller} (h : s.Evolves s')
    (hl : s.db.Linked) {j' : JoinedMember} (hj' : j' ∈ s'.db.joinedMembers)
    {m : PlacementMemberRow} (hm : m ∈ s.db.placementMembers.rows) (hid : j'.member.id = m.id) :
    ∃ j ∈ s.db.joinedMembers, j.member = m ∧ j.placement.labName = j'.placement.labName ∧
      j.placement.nodeName = j'.placement.nodeName ∧
      j.student.username = j'.student.username := by
  obtain ⟨hm', hp', hs'⟩ := Db.mem_joinedMembers.mp hj'
  have hg := h.placementMembers.get (Table.get_eq_some.mpr ⟨hm, rfl⟩)
    (Table.get_eq_some.mpr ⟨hm', hid⟩)
  obtain ⟨p, hp, hpi⟩ := hl.placement m hm
  obtain ⟨hq', hqi'⟩ := Db.getPlacement_eq_some hp'
  obtain ⟨q, hq, rfl, hln, hnn⟩ := h.placement_names hl hq' hp (by rw [hqi', hg.2.1, hpi])
  obtain ⟨r, hr, hri⟩ := hl.student m hm
  have hgr := h.students.get (Table.get_eq_some.mpr ⟨hr, hri⟩) (hg.2.2 ▸ hs')
  refine ⟨⟨m, q, r⟩, Db.mem_joinedMembers.mpr ⟨hm, ?_, Table.get_eq_some.mpr ⟨hr, hri⟩⟩, rfl, hln,
    hnn, hgr.2.1.symm⟩
  show (s.db.labPlacements.get m.placementId).bind s.db.joinPlacement = some q
  rw [Table.get_eq_some.mpr ⟨hp, hpi⟩]
  exact (Db.mem_placements.mp hq).2

/-! ## The relation -/

/-- What happens to the state of a placement without a result: it is retried, or torn down. -/
def PlacementRow.Quiet (a b : PlacementRow) : Prop :=
  b.state = a.state ∨ (a.state = .failed ∧ b.state = .provisioning) ∨ b.state = .deleting

/-- The quotas of a placement. -/
def PlacementRow.quotas (p : PlacementRow) : Int × Option Int × Option Int × Option Int :=
  (p.fastQuotaBytes, p.coldQuotaBytes, p.studentFastQuotaBytes, p.studentColdQuotaBytes)

/-- A placement without a result yet. -/
def PlacementRow.Pending (a : PlacementRow) : Prop := a.state = .provisioning ∨ a.state = .deleting

theorem PlacementRow.restraint : Table.Restraint Quiet Pending where
  refl _ := .inl rfl
  trans a b c h h' := by
    rcases h with h | ⟨h, hb⟩ | h <;> rcases h' with h' | ⟨h', hc⟩ | h' <;>
      simp_all [Quiet]
  new a b h h' := by
    rcases h with h | h <;> rcases h' with h' | ⟨h', hc⟩ | h' <;> simp_all [Pending]

/-- A member is active only if it was, and then with the credential it had, or without one. -/
def PlacementMemberRow.Quiet (a b : PlacementMemberRow) : Prop :=
  b.state = .active → a.state = .active ∧
    (b.credentialSecret = a.credentialSecret ∨ b.credentialSecret = none)

theorem PlacementMemberRow.restraint : Table.Restraint Quiet fun m => m.state ≠ .active where
  refl _ h := ⟨h, .inl rfl⟩
  trans a b c h h' hc := by
    obtain ⟨hb, hs'⟩ := h' hc
    obtain ⟨ha, hs⟩ := h hb
    refine ⟨ha, ?_⟩
    rcases hs' with hs' | hs'
    · exact hs' ▸ hs
    · exact .inr hs'
  new a b h h' hb := h (h' hb).1

/-- A password that leaves is the stored one of an active member. -/
def Vouched (s : Controller) : Event → Prop
  | .settled .. => False
  | .credentialMail id lab node username password _
  | .credentialReveal id lab node username password =>
    ∃ j ∈ s.db.joinedMembers, j.member.id = id ∧ j.placement.labName = lab ∧
      j.placement.nodeName = node ∧ j.student.username = username ∧ j.member.state = .active ∧
      ∃ secret, j.member.credentialSecret = some secret ∧ s.host.decryptSecret secret = password
  | _ => True

/-- `s'` is `s` after some calls without a result; they issued tasks allowed by `A`, and
deleted no row of the log of the nodes in `K`. -/
structure Quiet (A : String → TaskFrame → Prop) (K : String → Prop) (s s' : Controller) :
    Prop where
  evolves : s.Evolves s'
  linked : s.db.Linked → s'.db.Linked
  placements : s.db.labPlacements.Stays PlacementRow.Quiet PlacementRow.Pending s'.db.labPlacements
  members : s.db.placementMembers.Stays PlacementMemberRow.Quiet (fun m => m.state ≠ .active)
    s'.db.placementMembers
  tasks : ∀ t' ∈ s'.db.taskLog.rows, t'.state.terminal = true →
    ∃ t ∈ s.db.taskLog.rows, t.id = t'.id ∧ t.state.terminal = true
  kept : ∀ t ∈ s.db.taskLog.rows, K t.node → ∃ t' ∈ s'.db.taskLog.rows, t'.id = t.id
  issued : ∃ new, s'.issued = new ++ s.issued ∧ ∀ x ∈ new, A x.1 x.2
  trace : s.db.Linked → ∃ new, s'.trace = new ++ s.trace ∧ ∀ e ∈ new, Vouched s e

namespace Quiet

variable {A : String → TaskFrame → Prop} {K : String → Prop}

/-- A password vouched for later was vouched for before. -/
theorem vouched {s s' : Controller} (h : Quiet A K s s') (hl : s.db.Linked) {e : Event}
    (he : Vouched s' e) : Vouched s e := by
  have key : ∀ id lab node username password,
      (∃ j ∈ s'.db.joinedMembers, j.member.id = id ∧ j.placement.labName = lab ∧
        j.placement.nodeName = node ∧ j.student.username = username ∧ j.member.state = .active ∧
        ∃ secret, j.member.credentialSecret = some secret ∧
          s'.host.decryptSecret secret = password) →
      ∃ j ∈ s.db.joinedMembers, j.member.id = id ∧ j.placement.labName = lab ∧
        j.placement.nodeName = node ∧ j.student.username = username ∧ j.member.state = .active ∧
        ∃ secret, j.member.credentialSecret = some secret ∧
          s.host.decryptSecret secret = password := by
    rintro id lab node username password ⟨j', hj', hid, hlab, hnode, huser, hst, sec, hsec, hpw⟩
    rcases h.members.rows j'.member (Db.mem_joinedMembers.mp hj').1 with ⟨m, hm, hmid, hq⟩ | ⟨_, hn⟩
    · obtain ⟨j, hj, rfl, h1, h2, h3⟩ := h.evolves.member_names hl hj' hm hmid
      obtain ⟨hact, hs⟩ := hq hst
      refine ⟨j, hj, hmid.symm.trans hid, h1.trans hlab, h2.trans hnode, h3.trans huser, hact, sec,
        ?_, h.evolves.host ▸ hpw⟩
      rcases hs with hs | hs
      · exact hs ▸ hsec
      · rw [hs] at hsec
        cases hsec
    · exact absurd hst hn
  cases e <;> first | exact he | exact key _ _ _ _ _ he

theorem refl (s : Controller) : Quiet A K s s where
  evolves := .refl s
  linked := id
  placements := .refl PlacementRow.restraint _
  members := .refl PlacementMemberRow.restraint _
  tasks t ht hterm := ⟨t, ht, rfl, hterm⟩
  kept t ht _ := ⟨t, ht, rfl⟩
  issued := ⟨[], rfl, by simp⟩
  trace _ := ⟨[], rfl, by simp⟩

theorem trans {s s' s'' : Controller} (h : Quiet A K s s') (h' : Quiet A K s' s'') :
    Quiet A K s s'' where
  evolves := h.evolves.trans h'.evolves
  linked := h'.linked ∘ h.linked
  placements := h.placements.trans PlacementRow.restraint h'.placements
  members := h.members.trans PlacementMemberRow.restraint h'.members
  tasks t'' ht'' hterm := by
    obtain ⟨t', ht', hid', hterm'⟩ := h'.tasks t'' ht'' hterm
    obtain ⟨t, ht, hid, hterm⟩ := h.tasks t' ht' hterm'
    exact ⟨t, ht, hid.trans hid', hterm⟩
  kept t ht hk := by
    obtain ⟨t', ht', hid⟩ := h.kept t ht hk
    obtain ⟨t'', ht'', hid'⟩ := h'.kept t' ht' ((h.evolves.task ht ht' hid).node ▸ hk)
    exact ⟨t'', ht'', hid'.trans hid⟩
  issued := by
    obtain ⟨new, hnew, ha⟩ := h.issued
    obtain ⟨new', hnew', ha'⟩ := h'.issued
    refine ⟨new' ++ new, by rw [hnew', hnew, List.append_assoc], fun x hx => ?_⟩
    exact (List.mem_append.mp hx).elim (ha' x) (ha x)
  trace hl := by
    obtain ⟨new, hnew, hv⟩ := h.trace hl
    obtain ⟨new', hnew', hv'⟩ := h'.trace (h.linked hl)
    refine ⟨new' ++ new, by rw [hnew', hnew, List.append_assoc], fun e he => ?_⟩
    exact (List.mem_append.mp he).elim (fun he => h.vouched hl (hv' e he)) (hv e)

theorem mono {A' : String → TaskFrame → Prop} {s s' : Controller} (h : Quiet A K s s')
    (hA : ∀ node frame, A node frame → A' node frame) : Quiet A' K s s' :=
  { h with
    issued := by
      obtain ⟨new, hnew, ha⟩ := h.issued
      exact ⟨new, hnew, fun x hx => hA _ _ (ha x hx)⟩ }

instance : IsPreorder Controller (Quiet A K) where
  refl := refl
  trans _ _ _ := trans

/-- A write that leaves placements, members, tasks and the records alone. -/
theorem frame {s s' : Controller} (he : s.Evolves s') (hl : s.db.Linked → s'.db.Linked)
    (hp : s'.db.labPlacements = s.db.labPlacements)
    (hm : s'.db.placementMembers = s.db.placementMembers)
    (ht : s'.db.taskLog = s.db.taskLog) (hi : s'.issued = s.issued) (htr : s'.trace = s.trace) :
    Quiet A K s s' where
  evolves := he
  linked := hl
  placements := hp ▸ .refl PlacementRow.restraint _
  members := hm ▸ .refl PlacementMemberRow.restraint _
  tasks t ht' hterm := ⟨t, ht ▸ ht', rfl, hterm⟩
  kept t ht' _ := ⟨t, ht ▸ ht', rfl⟩
  issued := ⟨[], hi, by simp⟩
  trace _ := ⟨[], htr, by simp⟩

/-- An event at the end of a quiet stretch, vouched for at its start. -/
theorem emit {s s' : Controller} (h : Quiet A K s s') {e : Event} (he : Vouched s e) :
    Quiet A K s { s' with trace := e :: s'.trace } :=
  { h with
    evolves := { h.evolves with
      trace := h.evolves.trace.trans (List.suffix_cons e s'.trace) }
    trace := fun hl => by
      obtain ⟨new, hnew, hv⟩ := h.trace hl
      refine ⟨e :: new, by rw [List.cons_append, ← hnew], fun x hx => ?_⟩
      rcases List.mem_cons.mp hx with rfl | hx
      · exact he
      · exact hv x hx }

end Quiet

end MassDeployment

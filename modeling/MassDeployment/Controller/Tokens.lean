import Mathlib.Data.List.Find
import MassDeployment.Controller.Connections
import MassDeployment.Lib.History
import MassDeployment.Lib.Wp

set_option autoImplicit false

/-! # Tokens and their history

A node's credential is the stored hash, while the node is allowed. Only three functions write
credentials: provisioning (and rotation, which is provisioning an existing node) replaces one,
revocation and deletion take one away. So the credential of a name is what the latest of these
events left, and a hello is accepted exactly with the token that event returned.
-/

namespace MassDeployment

open Js Prog

/-! ## Rules for the primitives of the controller -/

section

variable {α : Type} {Q : α → Controller → Prop} {E : Error → Controller → Prop} {s : Controller}

@[simp] theorem wp_query (f : Db → α) : wp (Op.query f) Q E s ↔ Q (f s.db) s := Iff.rfl

@[simp] theorem wp_draw (f : Host → Nat → α) :
    wp (Op.draw f) Q E s ↔ Q (f s.host s.draws) { s with draws := s.draws + 1 } := Iff.rfl

@[simp] theorem wp_failWith (m : String) : wp (Op.failWith m : Op α) Q E s ↔ E (.error m) s := Iff.rfl

end

/-! ## Credentials -/

/-- The hash a hello of this name is checked against. -/
def Db.credential (d : Db) (name : String) : Option String :=
  (d.node name).bind fun row => if row.allowed then row.tokenHash else none

theorem credential_of_node {d : Db} {name : String} {r : NodeRow} (h : d.node name = some r) :
    d.credential name = if r.allowed then r.tokenHash else none := by
  rw [Db.credential, h, Option.bind_some]

/-- The credentials are what they were. -/
def SameCredentials (s s' : Controller) : Prop :=
  ∀ name, s'.db.credential name = s.db.credential name

instance : IsPreorder Controller SameCredentials where
  refl _ _ := rfl
  trans _ _ _ h h' name := (h' name).trans (h name)

theorem SameCredentials.of_nodes {s s' : Controller} (h : s'.db.nodes = s.db.nodes) :
    SameCredentials s s' := by
  intro name
  rw [Db.credential, Db.credential, Db.node, Db.node, h]

/-- The standing of a node determines its credential. -/
theorem SameStanding.credentials {s s' : Controller} (h : SameStanding s s') :
    SameCredentials s s' := by
  intro name
  have key : ∀ row : Option NodeRow, (row.bind fun r => if r.allowed then r.tokenHash else none) =
      (row.map NodeRow.standing).bind fun x => if x.2.2.1 then x.2.2.2.1 else none := by
    intro row
    cases row <;> rfl
  rw [Db.credential, Db.credential, key, key, h.node]

/-- The credential of one name is replaced, the others stay. -/
structure Recredentialed (name : String) (credential : Option String) (s s' : Controller) :
    Prop where
  this : s'.db.credential name = credential
  others : ∀ n, n ≠ name → s'.db.credential n = s.db.credential n

theorem Recredentialed.trans {name : String} {credential : Option String} {s s' s'' : Controller}
    (h : Recredentialed name credential s s') (h' : SameCredentials s' s'') :
    Recredentialed name credential s s'' where
  this := (h' name).trans h.this
  others n hn := (h' n).trans (h.others n hn)

theorem SameCredentials.trans {name : String} {credential : Option String} {s s' s'' : Controller}
    (h : SameCredentials s s') (h' : Recredentialed name credential s' s'') :
    Recredentialed name credential s s'' where
  this := h'.this
  others n hn := (h'.others n hn).trans (h n)

/-! ## Writes to the table of nodes -/

/-- An update leaves the credentials where it does not write the credential of a name. -/
theorem credential_update (p : NodeRow → Bool) (f : NodeRow → NodeRow) (h : Row.Keeps p f)
    (hname : ∀ r, (f r).name = r.name) (s : Controller) (n : String)
    (hf : ∀ r, r.name = n → p r = true →
      (f r).allowed = r.allowed ∧ (f r).tokenHash = r.tokenHash) :
    ((Slot.nodes.update p f h).after s).db.credential n = s.db.credential n := by
  rw [Db.credential, Db.credential, node_update p f h hname]
  cases hrow : s.db.node n with
  | none => rfl
  | some r =>
      have hrn : r.name = n := by simpa using (Table.find_some hrow).2
      show (if (if p r then f r else r).allowed then (if p r then f r else r).tokenHash else none) =
        if r.allowed then r.tokenHash else none
      by_cases hp : p r = true
      · obtain ⟨ha, ht⟩ := hf r hrn hp
        simp only [hp, if_true, ha, ht]
      · simp only [hp, Bool.false_eq_true, if_false]

/-- Updates that write neither the allow-list nor a hash. -/
theorem sameCredentials_update (p : NodeRow → Bool) (f : NodeRow → NodeRow) (h : Row.Keeps p f)
    (hf : ∀ r, (f r).name = r.name ∧ (f r).allowed = r.allowed ∧ (f r).tokenHash = r.tokenHash) :
    Respects SameCredentials (Slot.nodes.update p f h) :=
  fun s n => credential_update p f h (fun r => (hf r).1) s n fun r _ _ => (hf r).2

/-- An update of one node's row is about its credential only. -/
theorem recredentialed_update {name : String} (f : NodeRow → NodeRow) (h)
    {credential : Option String} {s : Controller}
    (hrow : ((s.db.node name).bind fun r => if (f r).allowed then (f r).tokenHash else none) =
      credential) : Recredentialed name credential s ((updateNode name f h).after s) where
  this := by
    rw [← hrow, Db.credential]
    rw [show (((updateNode name f h).after s).db.node name) = _ from
      node_update _ f _ (fun r => (h r).2) s name]
    cases hr : s.db.node name with
    | none => rfl
    | some r =>
        rw [Option.map_some, if_pos (Table.find_some hr).2]
        rfl
  others n hn := by
    refine credential_update _ f _ (fun r => (h r).2) s n fun r hrn hp => ?_
    exact absurd (hrn.symm.trans (beq_iff_eq.mp hp)) hn

/-- A node's row that has none before it is appended. -/
theorem node_insertNode {new : NodeRow} {s : Controller} {T : Table NodeRow}
    (hrows : T.rows = s.db.nodes.rows ++ [new]) (n : String) :
    (Slot.nodes.set s T).db.node n =
      (s.db.node n).or (if new.name == n then some new else none) := by
  show T.rows.find? _ = _
  rw [hrows, List.find?_append]
  congr 1
  simp only [List.find?_cons, List.find?_nil]
  cases new.name == n <;> rfl

/-- An insertion is made and appends the row, or leaves the nodes alone. -/
theorem wp_insertNode {mk : Nat → NodeRow} {hmk : ∀ i, (mk i).id = i} {s : Controller} :
    wp (Slot.nodes.insert mk hmk)
      (fun i s' => s'.draws = s.draws ∧
        ∀ n, s'.db.node n = (s.db.node n).or (if (mk i).name == n then some (mk i) else none))
      (fun _ s' => s' = s) s := by
  rcases Slot.insert_cases Slot.nodes mk hmk s with h | ⟨T, h, hrows, _⟩
  · exact (wp_of_error h).mpr rfl
  · exact (wp_of_ok h).mpr ⟨rfl, node_insertNode hrows⟩

/-- The row is new, so its credential is the only one. -/
theorem recredentialed_insertNode {s s' : Controller} {new : NodeRow}
    (hnone : s.db.node new.name = none)
    (hnode : ∀ n, s'.db.node n = (s.db.node n).or (if new.name == n then some new else none)) :
    Recredentialed new.name (if new.allowed then new.tokenHash else none) s s' where
  this := by
    have h := hnode new.name
    rw [hnone, Option.none_or, if_pos (beq_self_eq_true _)] at h
    exact credential_of_node h
  others n hn := by
    have h := hnode n
    rw [if_neg (by simpa using Ne.symm hn), Option.or_none] at h
    rw [Db.credential, Db.credential, h]

/-! ## What the functions of the registry do to credentials -/

theorem sameCredentials_audit (actor : Option String) (action : String) (target detail : Option String) :
    Respects SameCredentials (audit actor action target detail) :=
  .bind (.read _) fun _ _ => .of_nodes rfl

/-- Provisioning returns a fresh token, whose hash becomes the credential. -/
theorem wp_provisionNode (name : String) (actor : Option String) (s : Controller) :
    wp (provisionNode name actor)
      (fun token s' => isValidNodeName name = true ∧ token = s.host.token s.draws ∧
        s.draws < s'.draws ∧ Recredentialed name (some (s.host.nodeTokenHash name token)) s s')
      (fun _ s' => SameCredentials s s') s := by
  unfold provisionNode
  by_cases hv : isValidNodeName name = true
  · simp only [hv, if_true, wp_bind, wp_draw, wp_read, id]
    cases hrow : s.db.node name with
    | none =>
        refine wp_bind .. |>.mpr (wp_mono wp_insertNode ?_ ?_)
        · rintro i s' ⟨hdraws, hnode⟩
          have hr := recredentialed_insertNode (s := s) hrow hnode
          refine ⟨trivial, rfl, ?_, hr.this, hr.others⟩
          show s.draws < s'.draws
          rw [hdraws]
          exact Nat.lt_succ_self _
        · rintro _ _ rfl
          exact fun _ => rfl
    | some r =>
        have hr := @recredentialed_update name
          (fun n => { n with
            allowed := true
            tokenHash := some (s.host.nodeTokenHash name (s.host.token s.draws)) })
          (fun _ => ⟨rfl, rfl⟩) (some (s.host.nodeTokenHash name (s.host.token s.draws))) s
          (by rw [hrow]; rfl)
        exact ⟨trivial, rfl, Nat.lt_succ_self _, hr.this, hr.others⟩
  · simp only [hv, if_false, Bool.false_eq_true, wp_failWith]
    exact refl_of SameCredentials s

/-- Rotation is provisioning a node that exists. -/
theorem wp_rotateNodeToken (name : String) (actor : Option String) (s : Controller) :
    wp (rotateNodeToken name actor)
      (fun token s' => isValidNodeName name = true ∧ token = s.host.token s.draws ∧
        s.draws < s'.draws ∧ Recredentialed name (some (s.host.nodeTokenHash name token)) s s')
      (fun _ s' => SameCredentials s s') s := by
  unfold rotateNodeToken
  rw [wp_bind, wp_query]
  split
  · exact refl_of SameCredentials s
  · exact wp_provisionNode name actor s

theorem recredentialed_revokeNode (name : String) (actor : Option String) (s : Controller) :
    Recredentialed name none s ((revokeNode name actor).after s) := by
  have hr := @recredentialed_update name (fun n => { n with allowed := false })
    (fun _ => ⟨rfl, rfl⟩) none s (by cases s.db.node name <;> rfl)
  exact ⟨hr.this, hr.others⟩

/-! ## Deletion -/

theorem sameCredentials_deletePlacements (victim : PlacementRow → Bool) :
    Respects SameCredentials (deletePlacements victim) :=
  .bind (.read _) fun _ _ => .of_nodes rfl

/-- Looking a name up after the row of a node was deleted by its key. -/
theorem find_deleteNode {s : Controller} {name : String} {r : NodeRow}
    (hrow : s.db.node name = some r) (n : String) :
    (s.db.nodes.rows.filter fun x => !(x.id == r.id)).find? (fun x => x.name == n) =
      if n = name then none else s.db.node n := by
  obtain ⟨hmem, hname⟩ := Table.find_some hrow
  have hname : r.name = name := by simpa using hname
  by_cases hn : n = name
  · rw [if_pos hn, List.find?_eq_none]
    intro x hx hxn
    obtain ⟨hx, hid⟩ := List.mem_filter.mp hx
    -- only one row has the name
    have : x = r := s.db.nodes.eq_of_clash hx hmem
      (show x.name = r.name by rw [hname, ← hn]; simpa using hxn)
    simp [this] at hid
  · rw [if_neg hn, List.find?_filter]
    refine List.find?_congr fun x hx => ?_
    by_cases hid : x.id = r.id
    · have : x = r := s.db.nodes.eq_of_id hx hmem hid
      simp [this, hname, Ne.symm hn]
    · simp [hid]
      rfl

/-- The row a name has is deleted by its key. -/
theorem wp_deleteNodeRow {name : String} {r : NodeRow} {s : Controller}
    (hrow : s.db.node name = some r) :
    wp (deleteNodeRow r.id) (fun _ s' => Recredentialed name none s s') (fun _ _ => True) s := by
  unfold deleteNodeRow
  rw [wp_bind, wp_query, wp_ite]
  split
  · trivial
  · refine ⟨?_, fun n hn => ?_⟩
    · show ((s.db.nodes.rows.filter _).find? _).bind _ = _
      rw [find_deleteNode hrow, if_pos rfl]
      rfl
    · show ((s.db.nodes.rows.filter _).find? _).bind _ = _
      rw [find_deleteNode hrow, if_neg hn]
      rfl

/-- A forced deletion takes the placements and the clients off the node, which keeps its row. -/
theorem sameCredentials_detach (nodeId : Nat) (s : Controller) :
    let s' := (Slot.nodes.update (fun n => n.coldOwnerNodeId == some nodeId)
      (fun n => { n with coldOwnerNodeId := none, coldReady := false })
      (keeps_node _ _ fun _ => ⟨rfl, rfl⟩)).after
        ((deletePlacements fun p => p.nodeId == nodeId).after s)
    SameCredentials s s' ∧
      ∀ name r, s.db.node name = some r → ∃ r', s'.db.node name = some r' ∧ r'.id = r.id := by
  refine ⟨trans_of SameCredentials (sameCredentials_deletePlacements _ s)
    (sameCredentials_update (fun n => n.coldOwnerNodeId == some nodeId)
      (fun n => { n with coldOwnerNodeId := none, coldReady := false })
      (keeps_node _ _ fun _ => ⟨rfl, rfl⟩) (fun _ => ⟨rfl, rfl, rfl⟩) _), fun name r hr => ?_⟩
  have hnode := node_update (fun n => n.coldOwnerNodeId == some nodeId)
    (fun n => { n with coldOwnerNodeId := none, coldReady := false })
    (keeps_node _ _ fun _ => ⟨rfl, rfl⟩) (fun _ => rfl)
    ((deletePlacements fun p => p.nodeId == nodeId).after s) name
  rw [show ((deletePlacements fun p => p.nodeId == nodeId).after s).db.node name = some r from hr,
    Option.map_some] at hnode
  exact ⟨_, hnode, by split <;> rfl⟩

/-- Deletion takes the credential of the name away. A transaction that fails leaves the state it
began in. -/
theorem wp_deleteNode (name : String) (actor : Option String) (force : Bool) (s : Controller) :
    wp (deleteNode name actor force) (fun _ s' => Recredentialed name none s s')
      (fun _ s' => SameCredentials s s') s := by
  have same := refl_of SameCredentials s
  unfold deleteNode
  rw [wp_bind, wp_query]
  cases hrow : s.db.node name with
  | none => exact same
  | some r =>
      refine wp_ite .. |>.mpr ?_
      split
      · exact same
      · rw [wp_bind, wp_query, wp_bind, wp_query]
        refine wp_ite .. |>.mpr ?_
        split
        · exact same
        · refine wp_ite .. |>.mpr ?_
          split
          · exact same
          · rw [wp_bind, wp_atomically]
            refine wp_mono (Q := fun _ s' => Recredentialed name none s s') (E := fun _ _ => True)
              ?_ (fun _ s' h => ?_) fun _ _ _ => same
            · have rest : ∀ r' s', s'.db.node name = some r' → r'.id = r.id →
                  SameCredentials s s' → wp (do
                    deleteTasks fun t => t.node == name
                    Op.writeLists fun d =>
                      { d with gpuSnapshot := d.gpuSnapshot.filter fun g => g.node != name }
                    deleteNodeRow r.id)
                  (fun _ s'' => Recredentialed name none s s'') (fun _ _ => True) s' := by
                intro r' s' hr' hid hs'
                rw [← hid]
                exact wp_mono (wp_deleteNodeRow hr') (fun _ s'' h => hs'.trans ⟨h.this, h.others⟩)
                  fun _ _ _ => trivial
              cases force with
              | false => exact rest r s hrow rfl same
              | true =>
                  obtain ⟨hsame, hkept⟩ := sameCredentials_detach r.id s
                  obtain ⟨r', hr', hid⟩ := hkept name r hrow
                  exact rest r' _ hr' hid hsame
            · show Recredentialed name none s ((audit _ _ _ _).after s')
              exact h.trans (sameCredentials_audit _ _ _ _ s')

/-! ## The other functions of the registry -/

theorem sameCredentials_setNodeColdStorage (name : String) (backend : ColdBackend)
    (ownerName actor : Option String) :
    Respects SameCredentials (setNodeColdStorage name backend ownerName actor) := by
  refine .bind (.read _) fun row => ?_
  dsimp only
  split
  · exact respects_failWith _
  · refine .bind (.read _) fun _ => .ite (fun _ => respects_failWith _) fun _ =>
      .bind (respects_coldOwner _ _ _ _) fun ownerId => .bind ?_ fun _ => sameCredentials_audit _ _ _ _
    exact sameCredentials_update _ (fun n => { n with coldBackend := backend, coldOwnerNodeId := ownerId })
      _ fun _ => ⟨rfl, rfl, rfl⟩

/-- A node that says hello without a row gets one without a hash. -/
theorem sameCredentials_registerNode (name : String) (capabilities : Json) :
    Respects SameCredentials (registerNode name capabilities) := by
  intro s
  refine (wp_after (P := fun s' => SameCredentials s s')
    (x := registerNode name capabilities)).mp ?_
  unfold registerNode
  rw [wp_bind, wp_read]
  dsimp only [id]
  cases hrow : s.db.node name with
  | some r =>
      exact sameCredentials_update _ (fun n =>
        { n with lastSeen := some s.now, online := true, capabilities := .text capabilities })
        _ (fun _ => ⟨rfl, rfl, rfl⟩) s
  | none =>
      refine wp_bind .. |>.mpr (wp_mono wp_insertNode ?_ ?_)
      · rintro i s' ⟨-, hnode⟩
        have hr := recredentialed_insertNode (s := s) hrow hnode
        have hnone : s.db.credential name = none := by rw [Db.credential, hrow]; rfl
        show SameCredentials s s'
        intro n
        by_cases hn : n = name
        · rw [hn, hnone]
          exact hr.this.trans (by simp)
        · exact hr.others n hn
      · intro _ _ he
        rw [he]
        exact refl_of SameCredentials s

theorem sameCredentials_markNodeOffline (name : String) :
    Respects SameCredentials (markNodeOffline name) :=
  .bind (.read _) fun now => sameCredentials_update _
    (fun n => { n with online := false, lastSeen := some now }) _ fun _ => ⟨rfl, rfl, rfl⟩

/-! ## The history of a token -/

/-- What a call does to the credential of a name. -/
inductive TokenEvent where
  /-- Provisioning or rotation returned this token. -/
  | issued (token : String)
  | revoked
  | deleted
  deriving DecidableEq

/-- What a call returns, or nothing where it throws. -/
def returned {α : Type} (x : Op α) (s : Controller) : Option α := (x.run s).1.toOption

/-- The name a call is about and what it did to the credential; a call that throws did nothing. -/
def Act.tokenEvent (s : Controller) : Act → Option (String × TokenEvent)
  | .provisionNode name actor =>
    (returned (MassDeployment.provisionNode name actor) s).map fun token => (name, .issued token)
  | .rotateNodeToken name actor =>
    (returned (MassDeployment.rotateNodeToken name actor) s).map fun token => (name, .issued token)
  | .revokeNode name actor =>
    (returned (MassDeployment.revokeNode name actor) s).map fun _ => (name, .revoked)
  | .deleteNode name actor force =>
    (returned (MassDeployment.deleteNode name actor force) s).map fun _ => (name, .deleted)
  | _ => none

/-- The token events of a run. -/
def tokenHistory (s : Controller) (acts : List Act) : List (String × TokenEvent) :=
  Run.history step (fun s a => a.tokenEvent s) s acts

/-- The hash an event leaves behind. -/
def TokenEvent.credential (host : Host) (name : String) : TokenEvent → Option String
  | .issued token => some (host.nodeTokenHash name token)
  | .revoked | .deleted => none

/-- A step did to the credentials what its event says, and a token it issued is a fresh one for
a valid name. -/
def TokenStep (s s' : Controller) : Option (String × TokenEvent) → Prop
  | none => SameCredentials s s'
  | some (name, e) => Recredentialed name (e.credential s.host name) s s' ∧
      ∀ token, e = .issued token →
        isValidNodeName name = true ∧ token = s.host.token s.draws ∧ s.draws < s'.draws

theorem tokenStep_issue {x : Op String} {name : String} {s : Controller}
    (h : wp x (fun token s' => isValidNodeName name = true ∧ token = s.host.token s.draws ∧
        s.draws < s'.draws ∧ Recredentialed name (some (s.host.nodeTokenHash name token)) s s')
      (fun _ s' => SameCredentials s s') s) :
    TokenStep s ((discard x).after s)
      ((returned x s).map fun token => (name, TokenEvent.issued token)) := by
  rcases hr : x.run s with ⟨e | token, s'⟩
  · rw [wp_of_error hr] at h
    rw [returned, hr, after, discard, run_bind_error hr]
    exact h
  · rw [wp_of_ok hr] at h
    obtain ⟨hname, htoken, hdraws, hcred⟩ := h
    rw [returned, hr, after, discard, run_bind_ok hr]
    refine ⟨hcred, fun t ht => ?_⟩
    cases ht
    exact ⟨hname, htoken, hdraws⟩

/-- **What every act does to the credentials.** -/
theorem tokenStep (s : Controller) (a : Act) : TokenStep s (step s a) (a.tokenEvent s) := by
  by_cases hreg : a.Registry
  swap
  · have hnone : a.tokenEvent s = none := by
      cases a <;> first | rfl | exact absurd trivial hreg
    rw [hnone]
    exact (standing_step hreg).credentials
  cases a with
  | provisionNode name actor => exact tokenStep_issue (wp_provisionNode name actor s)
  | rotateNodeToken name actor => exact tokenStep_issue (wp_rotateNodeToken name actor s)
  | revokeNode name actor => exact ⟨recredentialed_revokeNode name actor s, fun _ h => by cases h⟩
  | deleteNode name actor force =>
      have h := wp_deleteNode name actor force s
      show TokenStep s ((deleteNode name actor force).after s)
        ((returned (deleteNode name actor force) s).map fun _ => (name, TokenEvent.deleted))
      rcases hr : (deleteNode name actor force).run s with ⟨e | u, s'⟩
      · rw [wp_of_error hr] at h
        rw [returned, after, hr]
        exact h
      · rw [wp_of_ok hr] at h
        rw [returned, after, hr]
        exact ⟨h, fun _ h => by cases h⟩
  | setNodeColdStorage name backend ownerName actor =>
      exact sameCredentials_setNodeColdStorage name backend ownerName actor s
  | registerNode node capabilities => exact sameCredentials_registerNode node capabilities s
  | deregisterNode node => exact sameCredentials_markNodeOffline node s
  | _ => exact hreg.elim

/-- **The credentials are what the history says.** Every name has the hash its latest event left;
the tokens issued so far were drawn so far, each for a valid name and no two of them alike. -/
structure TokensAgree (host : Host) (s : Controller) (h : List (String × TokenEvent)) : Prop where
  sameHost : s.host = host
  credential : ∀ name, s.db.credential name =
    (Run.latest name h).bind (TokenEvent.credential host name)
  drawn : ∀ name token, (name, TokenEvent.issued token) ∈ h →
    isValidNodeName name = true ∧ ∃ d, d < s.draws ∧ token = host.token d
  distinct : h.Pairwise fun e e' =>
    ∀ token, e.2 = .issued token → e'.2 ≠ .issued token

theorem TokensAgree.init (host : Host) : TokensAgree host (.init host) [] where
  sameHost := rfl
  credential _ := rfl
  drawn := nofun
  distinct := .nil

theorem TokensAgree.step {host : Host} (htokens : ∀ i j, host.token i = host.token j → i = j)
    {s : Controller} {h : List (String × TokenEvent)} (hs : TokensAgree host s h) (a : Act) :
    TokensAgree host (step s a) (h ++ (a.tokenEvent s).toList) := by
  have ev := step_evolves s a
  have hstep := tokenStep s a
  have later : ∀ name token, (name, TokenEvent.issued token) ∈ h →
      isValidNodeName name = true ∧ ∃ d, d < (MassDeployment.step s a).draws ∧ token = host.token d :=
    fun name token hm => by
      obtain ⟨hname, d, hd, ht⟩ := hs.drawn name token hm
      exact ⟨hname, d, lt_of_lt_of_le hd ev.draws, ht⟩
  cases he : a.tokenEvent s with
  | none =>
      rw [he] at hstep
      rw [Option.toList_none, List.append_nil]
      exact ⟨ev.host.trans hs.sameHost, fun name => (hstep name).trans (hs.credential name), later,
        hs.distinct⟩
  | some entry =>
      obtain ⟨name, e⟩ := entry
      rw [he] at hstep
      obtain ⟨hcred, hissued⟩ := hstep
      rw [Option.toList_some]
      refine ⟨ev.host.trans hs.sameHost, fun n => ?_, fun n token hm => ?_, ?_⟩
      · by_cases hn : n = name
        · rw [hn, Run.latest_concat_self, hcred.this, hs.sameHost, Option.bind_some]
        · rw [Run.latest_concat_of_ne hn, hcred.others n hn, hs.credential]
      · rcases List.mem_append.mp hm with hm | hm
        · exact later n token hm
        · cases List.mem_singleton.mp hm
          obtain ⟨hname, htoken, hdraws⟩ := hissued token rfl
          exact ⟨hname, s.draws, hdraws, hs.sameHost ▸ htoken⟩
      · refine List.pairwise_append.mpr ⟨hs.distinct, List.pairwise_singleton _ _, ?_⟩
        intro old hold new hnew token ho hn
        cases List.mem_singleton.mp hnew
        obtain ⟨n, e'⟩ := old
        subst ho
        -- the draw is younger than those before it
        obtain ⟨-, d, hd, hold⟩ := hs.drawn n token hold
        obtain ⟨-, hnew, -⟩ := hissued token hn
        rw [hs.sameHost, hold] at hnew
        exact absurd (htokens _ _ hnew) (Nat.ne_of_lt hd)

theorem tokensAgree_run {host : Host} (htokens : ∀ i j, host.token i = host.token j → i = j)
    (acts : List Act) : TokensAgree host (Run.run step (.init host) acts)
      (tokenHistory (.init host) acts) := by
  have hinv := @Run.history_invariant Controller Act _ step (fun s a => a.tokenEvent s)
    (TokensAgree host) (fun _ a _ hs => hs.step htokens a) _ [] (.init host) acts
  rwa [List.nil_append] at hinv

/-! ## Authentication -/

/-- A hello's name and token are accepted exactly with a valid name, a token, and the credential
the pair hashes to. -/
theorem verifyNodeAuth_ok_iff {s : Controller} {name token : String} :
    (∃ hash, verifyNodeAuth s name token = .ok hash) ↔
      isValidNodeName name = true ∧ token ≠ "" ∧ s.host.nodeTokenHash name token ≠ "" ∧
        s.db.credential name = some (s.host.nodeTokenHash name token) := by
  constructor
  · rintro ⟨hash, h⟩
    obtain ⟨row, hrow, hallowed, hhash, rfl⟩ := Hub.verifyNodeAuth_eq_ok h
    have hname : isValidNodeName name = true := by
      by_contra hv
      have hv : isValidNodeName name = false := by simpa using hv
      simp [verifyNodeAuth, hv] at h
    have htoken : token ≠ "" := by
      rintro rfl
      simp [verifyNodeAuth, hname] at h
    have hne : s.host.nodeTokenHash name token ≠ "" := by
      intro hempty
      simp [verifyNodeAuth, hname, htoken, hrow, hallowed, hhash, hempty] at h
    refine ⟨hname, htoken, hne, ?_⟩
    rw [credential_of_node hrow, hallowed, if_pos rfl, hhash]
  · rintro ⟨hname, htoken, hne, hcred⟩
    cases hrow : s.db.node name with
    | none =>
        rw [Db.credential, hrow] at hcred
        cases hcred
    | some row =>
        rw [credential_of_node hrow] at hcred
        split at hcred
        · rename_i hallowed
          exact ⟨s.host.nodeTokenHash name token, by
            simp [verifyNodeAuth, hname, htoken, hrow, hallowed, hcred, hne]⟩
        · cases hcred

/-- An event that issued a token is the only one that did. -/
theorem issued_unique {h h' : List (String × TokenEvent)} {name n token : String}
    (hd : (h ++ (n, TokenEvent.issued token) :: h').Pairwise fun e e' =>
      ∀ token, e.2 = .issued token → e'.2 ≠ .issued token)
    (hl : Run.latest name (h ++ (n, TokenEvent.issued token) :: h') = some (.issued token)) :
    n = name ∧ ∀ e ∈ h', e.1 ≠ name := by
  obtain ⟨-, hcons, hcross⟩ := List.pairwise_append.mp hd
  obtain ⟨hafter, -⟩ := List.pairwise_cons.mp hcons
  have only : (name, TokenEvent.issued token) ∉ h' := fun hm => hafter _ hm token rfl rfl
  constructor
  · rcases List.mem_append.mp (Run.mem_of_latest hl) with hm | hm
    · exact absurd rfl (hcross _ hm _ List.mem_cons_self token rfl)
    · rcases List.mem_cons.mp hm with he | hm
      · exact (congrArg Prod.fst he).symm
      · exact absurd hm only
  · intro e he hname
    rw [List.append_cons] at hl
    exact only (Run.mem_of_latest_append hl ⟨e, he, hname⟩)

/-- **Authentication follows the history of tokens.** Whatever calls are made on the controller,
a name and a token are accepted exactly when the node exists and the latest of the name's events
issued this very token. A token issued under another name, or before a later event of the name, is
refused. -/
theorem verifyNodeAuth_follows_history {host : Host}
    (hdistinct : ∀ i j, host.token i = host.token j → i = j)
    (hpresent : ∀ i, host.token i ≠ "")
    (hinjective : ∀ name t t', host.nodeTokenHash name t = host.nodeTokenHash name t' → t = t')
    (hhex : ∀ name t, host.nodeTokenHash name t ≠ "")
    (acts : List Act) (name token : String) :
    let s := Run.run step (.init host) acts
    let h := tokenHistory (.init host) acts
    ((∃ hash, verifyNodeAuth s name token = .ok hash) ↔
      (∃ row, s.db.node name = some row) ∧ Run.latest name h = some (.issued token)) ∧
    ∀ before n after, h = before ++ (n, .issued token) :: after →
      (n ≠ name ∨ ∃ e ∈ after, e.1 = name) → ∀ hash, verifyNodeAuth s name token ≠ .ok hash := by
  intro s h
  have hagree : TokensAgree host s h := tokensAgree_run hdistinct acts
  have accepted : (∃ hash, verifyNodeAuth s name token = .ok hash) ↔
      (∃ row, s.db.node name = some row) ∧ Run.latest name h = some (.issued token) := by
    rw [verifyNodeAuth_ok_iff, hagree.credential, hagree.sameHost]
    constructor
    · rintro ⟨-, -, -, hcred⟩
      obtain ⟨e, hlatest, hcred'⟩ := Option.bind_eq_some_iff.mp hcred
      have hnode : s.db.node name ≠ none := by
        intro hnone
        rw [← hagree.credential, Db.credential, hnone] at hcred
        cases hcred
      refine ⟨Option.ne_none_iff_exists'.mp hnode, ?_⟩
      cases e with
      | issued t =>
          rw [hlatest, hinjective name t token (Option.some.inj hcred')]
      | revoked => cases hcred'
      | deleted => cases hcred'
    · rintro ⟨-, hlatest⟩
      obtain ⟨hname, d, -, htoken⟩ := hagree.drawn name token (Run.mem_of_latest hlatest)
      refine ⟨hname, htoken ▸ hpresent d, hhex name token, ?_⟩
      rw [hlatest]
      rfl
  refine ⟨accepted, fun before n after hsplit hother hash hok => ?_⟩
  have hlatest := (accepted.mp ⟨hash, hok⟩).2
  have hpairs := hagree.distinct
  rw [hsplit] at hlatest hpairs
  obtain ⟨hsame, hlast⟩ := issued_unique hpairs hlatest
  rcases hother with hne | ⟨e, he, hen⟩
  · exact hne hsame
  · exact hlast e he hen

/-- A platform with distinct tokens and a hash without collisions. -/
def Host.tokens : Host :=
  { Host.plain with
    token := fun n => String.ofList ('t' :: List.replicate n 't')
    nodeTokenHash := fun _ token => String.ofList ('h' :: token.toList) }

/-- The token a node was provisioned with stops working when it is rotated, and the new one
works. -/
theorem verifyNodeAuth_follows_rotation :
    let s := Run.run step (.init Host.tokens) [.provisionNode "n" none, .rotateNodeToken "n" none]
    (∃ hash, verifyNodeAuth s "n" "tt" = .ok hash) ∧ ∀ hash, verifyNodeAuth s "n" "t" ≠ .ok hash := by
  have hdistinct : ∀ i j, Host.tokens.token i = Host.tokens.token j → i = j := by
    intro i j h
    simpa [Host.tokens] using congrArg (fun s => s.toList.length) h
  have hpresent : ∀ i, Host.tokens.token i ≠ "" := fun i h => by
    simpa [Host.tokens] using congrArg String.toList h
  have hinjective : ∀ name t t',
      Host.tokens.nodeTokenHash name t = Host.tokens.nodeTokenHash name t' → t = t' := by
    intro name t t' h
    simpa [Host.tokens, String.ext_iff] using congrArg String.toList h
  have hhex : ∀ name t, Host.tokens.nodeTokenHash name t ≠ "" := fun name t h => by
    simpa [Host.tokens] using congrArg String.toList h
  have hall := verifyNodeAuth_follows_history hdistinct hpresent hinjective hhex
    [.provisionNode "n" none, .rotateNodeToken "n" none] "n"
  refine ⟨((hall "tt").1.mpr ⟨Option.isSome_iff_exists.mp ?_, ?_⟩), ?_⟩
  · decide +kernel
  · decide +kernel
  · refine (hall "t").2 [] "n" [("n", .issued "tt")] ?_ (.inr ⟨_, List.mem_cons_self, rfl⟩)
    decide +kernel

end MassDeployment

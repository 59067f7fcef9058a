import MassDeployment.Controller.Credentials

set_option autoImplicit false

/-! # One-time credentials

A password is generated when a member is provisioned or its container is recreated. It is
disclosed by a mail that the mailer reports as sent, or by a reveal, and both burn the stored
copy. A reveal burns what it read in the same step. A mail is answered later, and burns
whatever the member stores by then.
-/

namespace MassDeployment

open Js Prog

/-! ## Disclosures -/

/-- The event lets the password out. -/
def Event.discloses (password : String) : Event → Bool
  | .credentialMailed _ p | .credentialReveal _ _ _ _ p => p == password
  | _ => false

/-- How often the password has been disclosed. -/
def Controller.disclosures (s : Controller) (password : String) : Nat :=
  s.trace.countP (Event.discloses password)

/-- The member's row holds the password. -/
def Controller.Stores (s : Controller) (m : PlacementMemberRow) (password : String) : Prop :=
  ∃ secret ∈ m.credentialSecret, s.host.decryptSecret secret = password

/-- The password has been generated. -/
def Controller.Drew (s : Controller) (password : String) : Prop :=
  ∃ d < s.draws, s.host.password d = password

/-- No two draws give the password. -/
def Host.Unrepeated (host : Host) (password : String) : Prop :=
  ∀ d d', host.password d = password → host.password d' = password → d = d'

/-- The password was generated, and is stored with this member or with none. -/
def Controller.StoredOnly (s : Controller) (password : String) (i : Nat) : Prop :=
  s.Drew password ∧ ∀ m ∈ s.db.placementMembers.rows, s.Stores m password → m.id = i

/-- A call that waits for the mailer waits on its own. -/
def Controller.Threaded (s : Controller) : Prop :=
  ∀ thread ∈ s.threads, Thread.Silent thread ∨
    ∃ i p node lab user, thread = [.credentialSent i p node lab user]

/-- A password is stored with one member at most, and not any more once it is disclosed. -/
structure Once (password : String) (s : Controller) : Prop where
  drawn : ∀ m ∈ s.db.placementMembers.rows, s.Stores m password → s.Drew password
  single : ∀ m ∈ s.db.placementMembers.rows, ∀ m' ∈ s.db.placementMembers.rows,
    s.Stores m password → s.Stores m' password → m.id = m'.id
  mailed : ∀ i node lab user, [.credentialSent i password node lab user] ∈ s.threads →
    s.StoredOnly password i
  burnt : 0 < s.disclosures password → s.Drew password ∧
    ∀ m ∈ s.db.placementMembers.rows, ¬ s.Stores m password
  once : s.disclosures password ≤ 1

/-- Nothing was disclosed and no stored password was taken away. -/
structure Guarded (password : String) (s s' : Controller) : Prop where
  host : s'.host = s.host
  members : s.db.placementMembers.Evolves s'.db.placementMembers
  threads : s.Threaded → s'.Threaded
  once : s.host.Unrepeated password → Once password s → Once password s'
  stored : ∀ m ∈ s.db.placementMembers.rows, m.credentialSecret ≠ none →
    ∀ m' ∈ s'.db.placementMembers.rows, m'.id = m.id → m'.credentialSecret ≠ none

namespace Guarded

variable {password : String} {s s' s'' : Controller}

theorem refl (s : Controller) : Guarded password s s where
  host := rfl
  members := .refl _
  threads h := h
  once _ h := h
  stored m hm hsec m' hm' hid := by
    rw [s.db.placementMembers.eq_of_id hm' hm hid]
    exact hsec

theorem trans (h : Guarded password s s') (h' : Guarded password s' s'') :
    Guarded password s s'' where
  host := h'.host.trans h.host
  members := h.members.trans h'.members
  threads ht := h'.threads (h.threads ht)
  once hu ho := h'.once (by rwa [h.host]) (h.once hu ho)
  stored m hm hsec m'' hm'' hid := by
    -- the row was there in between
    have hle : m''.id ≤ s'.db.placementMembers.seq := by
      have hseq := h.members.seq
      have hb : m.id ≤ s.db.placementMembers.seq := s.db.placementMembers.bounded m hm
      omega
    obtain ⟨m', hm', hg⟩ := h'.members.grows m'' hm'' hle
    have hid' : m''.id = m'.id := hg.1
    exact h'.stored m' hm' (h.stored m hm hsec m' hm' (hid'.symm.trans hid)) m'' hm'' hid'

instance : IsPreorder Controller (Guarded password) where
  refl := refl
  trans _ _ _ := trans

end Guarded

theorem Controller.Drew.mono {password : String} {s s' : Controller} (h : s.Drew password)
    (hh : s'.host = s.host) (hd : s.draws ≤ s'.draws) : s'.Drew password := by
  obtain ⟨d, hlt, hp⟩ := h
  exact ⟨d, hlt.trans_le hd, by rw [hh, hp]⟩

/-- Whoever stores the password after, stored it before. -/
def StoredBefore (password : String) (s s' : Controller) : Prop :=
  ∀ m' ∈ s'.db.placementMembers.rows, s'.Stores m' password →
    ∃ m ∈ s.db.placementMembers.rows, m.id = m'.id ∧ s.Stores m password

theorem Controller.StoredOnly.mono {password : String} {s s' : Controller} {i : Nat}
    (h : s.StoredOnly password i) (hst : StoredBefore password s s') (hh : s'.host = s.host)
    (hd : s.draws ≤ s'.draws) : s'.StoredOnly password i := by
  refine ⟨h.1.mono hh hd, fun m' hm' hs => ?_⟩
  obtain ⟨m, hm, hid, hs⟩ := hst m' hm' hs
  exact hid.symm.trans (h.2 m hm hs)

/-- A call that was there, one that waits for no mail, or one whose mail was stored with its
member only. -/
def MailedOrOld (password : String) (s s' : Controller) (t : Thread) : Prop :=
  t ∈ s.threads ∨ Thread.Silent t ∨ ∃ i p node lab user,
    t = [.credentialSent i p node lab user] ∧
      (Once password s → p = password → s'.StoredOnly password i)

theorem Controller.Threaded.keep {password : String} {s s' : Controller} (h : s.Threaded)
    (hthreads : ∀ t ∈ s'.threads, MailedOrOld password s s' t) : s'.Threaded := by
  intro t ht
  rcases hthreads t ht with ht | hsilent | ⟨i, p, node, lab, user, heq, _⟩
  · exact h t ht
  · exact .inl hsilent
  · exact .inr ⟨i, p, node, lab, user, heq⟩

/-- Nobody new stores the password, and it is not disclosed. -/
theorem Once.keep {password : String} {s s' : Controller} (ho : Once password s)
    (hh : s'.host = s.host) (hd : s.draws ≤ s'.draws) (hst : StoredBefore password s s')
    (hthreads : ∀ t ∈ s'.threads, MailedOrOld password s s' t)
    (hdis : s'.disclosures password = s.disclosures password) : Once password s' where
  drawn m' hm' hs := by
    obtain ⟨m, hm, _, hs⟩ := hst m' hm' hs
    exact (ho.drawn m hm hs).mono hh hd
  single m₁ h₁ m₂ h₂ hs₁ hs₂ := by
    obtain ⟨n₁, hn₁, hid₁, hs₁⟩ := hst m₁ h₁ hs₁
    obtain ⟨n₂, hn₂, hid₂, hs₂⟩ := hst m₂ h₂ hs₂
    rw [← hid₁, ← hid₂]
    exact ho.single n₁ hn₁ n₂ hn₂ hs₁ hs₂
  mailed i node lab user hmem := by
    rcases hthreads _ hmem with hmem | hsilent | ⟨i', p, node', lab', user', heq, hp⟩
    · exact (ho.mailed i node lab user hmem).mono hst hh hd
    · exact absurd trivial (hsilent _ (List.mem_singleton_self _))
    · cases heq
      exact hp ho rfl
  burnt hpos := by
    obtain ⟨hdrew, hnone⟩ := ho.burnt (hdis ▸ hpos)
    refine ⟨hdrew.mono hh hd, fun m' hm' hs => ?_⟩
    obtain ⟨m, hm, _, hs⟩ := hst m' hm' hs
    exact hnone m hm hs
  once := hdis ▸ ho.once

/-- The passwords of the members are what they were, apart from members that are gone. -/
def SameSecrets (s s' : Controller) : Prop :=
  ∀ m' ∈ s'.db.placementMembers.rows, ∃ m ∈ s.db.placementMembers.rows,
    m.id = m'.id ∧ m.credentialSecret = m'.credentialSecret

theorem SameSecrets.storedBefore {password : String} {s s' : Controller} (h : SameSecrets s s')
    (hh : s'.host = s.host) : StoredBefore password s s' := by
  intro m' hm' hs
  obtain ⟨m, hm, hid, hsec⟩ := h m' hm'
  refine ⟨m, hm, hid, ?_⟩
  rwa [Controller.Stores, hsec, ← hh]

/-- A write that leaves the stored passwords alone. -/
theorem Guarded.of_same {password : String} {s s' : Controller} (hh : s'.host = s.host)
    (hd : s.draws ≤ s'.draws) (hev : s.db.placementMembers.Evolves s'.db.placementMembers)
    (hsec : SameSecrets s s') (hthreads : ∀ t ∈ s'.threads, MailedOrOld password s s' t)
    (hdis : s'.disclosures password = s.disclosures password) : Guarded password s s' where
  host := hh
  members := hev
  threads h := h.keep hthreads
  once _ ho := ho.keep hh hd (hsec.storedBefore hh) hthreads hdis
  stored m hm hne m' hm' hid := by
    obtain ⟨n, hn, hnid, hsame⟩ := hsec m' hm'
    rw [← hsame, s.db.placementMembers.eq_of_id hn hm (hnid.trans hid)]
    exact hne

/-- A write to something else. -/
theorem Guarded.frame {password : String} {s s' : Controller} (hh : s'.host = s.host)
    (hd : s.draws ≤ s'.draws) (hm : s'.db.placementMembers = s.db.placementMembers)
    (hthreads : s'.threads = s.threads) (htrace : s'.trace = s.trace) :
    Guarded password s s' :=
  .of_same hh hd (hm ▸ .refl _) (fun m hmem => ⟨m, hm ▸ hmem, rfl, rfl⟩)
    (fun _ ht => .inl (hthreads ▸ ht)) (by rw [Controller.disclosures, htrace]; rfl)

/-- A fresh password is stored with one member. -/
theorem Guarded.mint {password : String} {s s' : Controller} (hh : s'.host = s.host)
    (hd : s.draws < s'.draws) (hev : s.db.placementMembers.Evolves s'.db.placementMembers)
    (hthreads : s'.threads = s.threads) (htrace : s'.trace = s.trace) (i : Nat)
    (hrows : ∀ m' ∈ s'.db.placementMembers.rows,
      (m'.id ≠ i ∧ ∃ m ∈ s.db.placementMembers.rows,
        m.id = m'.id ∧ m.credentialSecret = m'.credentialSecret) ∨
      (m'.id = i ∧ ∃ secret, m'.credentialSecret = some secret ∧
        s.host.decryptSecret secret = s.host.password s.draws)) : Guarded password s s' := by
  have hstores : ∀ m' ∈ s'.db.placementMembers.rows, s'.Stores m' password →
      (∃ m ∈ s.db.placementMembers.rows, m.id = m'.id ∧ s.Stores m password) ∨
        (m'.id = i ∧ s.host.password s.draws = password) := by
    rintro m' hm' ⟨secret, hsec, hp⟩
    rcases hrows m' hm' with ⟨_, m, hm, hid, hsame⟩ | ⟨hid, secret', hsec', hp'⟩
    · exact .inl ⟨m, hm, hid, secret, hsame ▸ hsec, hh ▸ hp⟩
    · cases hsec'.symm.trans hsec
      exact .inr ⟨hid, hp'.symm.trans (hh ▸ hp)⟩
  have hdis : s'.disclosures password = s.disclosures password := by
    rw [Controller.disclosures, htrace]
    rfl
  refine ⟨hh, hev, fun h t ht => h t (hthreads ▸ ht), fun hu ho => ?_,
    fun m hm hne m' hm' hid => ?_⟩
  · by_cases hfresh : s.host.password s.draws = password
    · -- the password is new: nobody had it before
      have hnew : ¬ s.Drew password := by
        rintro ⟨d, hlt, hp⟩
        have := hu d s.draws hp hfresh
        omega
      have honly : ∀ m' ∈ s'.db.placementMembers.rows, s'.Stores m' password → m'.id = i := by
        intro m' hm' hs
        rcases hstores m' hm' hs with ⟨m, hm, _, hs⟩ | ⟨hid, _⟩
        · exact absurd (ho.drawn m hm hs) hnew
        · exact hid
      refine ⟨fun m' hm' _ => ⟨s.draws, hd, by rw [hh, hfresh]⟩, fun m₁ h₁ m₂ h₂ hs₁ hs₂ => ?_,
        fun j node lab user hmem => ?_, fun hpos => absurd (ho.burnt (hdis ▸ hpos)).1 hnew,
        hdis ▸ ho.once⟩
      · rw [honly m₁ h₁ hs₁, honly m₂ h₂ hs₂]
      · exact absurd (ho.mailed j node lab user (hthreads ▸ hmem)).1 hnew
    · refine ho.keep hh hd.le (fun m' hm' hs => ?_) (fun t ht => .inl (hthreads ▸ ht)) hdis
      rcases hstores m' hm' hs with hm | ⟨_, heq⟩
      · exact hm
      · exact absurd heq hfresh
  · rcases hrows m' hm' with ⟨_, n, hn, hnid, hsame⟩ | ⟨_, secret, hsec, _⟩
    · rw [← hsame, s.db.placementMembers.eq_of_id hn hm (hnid.trans hid)]
      exact hne
    · rw [hsec]
      exact nofun

/-! ## The functions of the controller -/

section

variable {password : String}

theorem guarded_enqueueTask (node : String) (action : Action) (params : Params)
    (requestedBy : Option String) :
    Respects (Guarded password) (enqueueTask node action params requestedBy) := by
  intro s
  simp only [enqueueTask]
  split <;> exact .frame rfl (Nat.le_succ _) rfl rfl rfl

theorem guarded_claimTask (node workerId : String) :
    Respects (Guarded password) (claimTask node workerId) := by
  refine .bind (.read _) fun claimed => ?_
  split
  · exact .pure _
  · exact .bind (fun _ => .frame rfl le_rfl rfl rfl rfl) fun _ =>
      .bind (respects_lift _) fun _ => .pure _

theorem guarded_emit (e : Event) (he : e.Plain) : Respects (Guarded password) (Op.emit e) := by
  refine fun s => .of_same rfl le_rfl (.refl _) (fun m hm => ⟨m, hm, rfl, rfl⟩)
    (fun t ht => .inl ht) ?_
  show List.countP _ (e :: s.trace) = _
  cases e <;> first | exact he.elim | exact List.countP_cons_of_neg nofun

theorem guarded_deleteMembers (p : PlacementMemberRow → Bool) :
    Respects (Guarded password) (Slot.placementMembers.delete p) :=
  fun _ => .of_same rfl le_rfl (.of_delete _ p)
    (fun m hm => ⟨m, (Table.mem_delete.mp hm).1, rfl, rfl⟩) (fun _ ht => .inl ht) rfl

theorem guarded_lists (f : Db → Db) (h) : Respects (Guarded password) (Op.writeLists f h) :=
  fun s => .frame rfl le_rfl (h s.db).2.2.2.2.2.1 rfl rfl

theorem run_draw_bind {α β : Type} (f : Host → Nat → α) (k : α → Op β) (s : Controller) :
    (Op.draw f >>= k).run s =
      (k (f s.host s.draws)).run { s with draws := s.draws + 1 } := rfl

/-- A password and the nonce of its encryption have been drawn. -/
def Controller.drewSecret (s : Controller) : Controller := { s with draws := s.draws + 2 }

/-- The password encrypted. -/
def Controller.nextSecret (s : Controller) : String :=
  s.host.encryptSecret (s.draws + 1) (s.host.password s.draws)

theorem Controller.decrypt_nextSecret (s : Controller) :
    s.host.decryptSecret s.nextSecret = s.host.password s.draws := s.host.decrypt_encrypt _ _

theorem guarded_drewSecret (s : Controller) : Guarded password s s.drewSecret :=
  .frame rfl (Nat.le_add_right _ _) rfl rfl rfl

theorem drewSecret_lt (s : Controller) : s.draws < s.drewSecret.draws :=
  Nat.lt_add_of_pos_right Nat.two_pos

/-- A new member is stored with its fresh password. -/
theorem guarded_insertMember (placementId studentId : Nat) (s : Controller) :
    Guarded password s ((insertMember placementId studentId s.nextSecret).run s.drewSecret).2 := by
  simp only [insertMember, run_read_bind, id]
  split
  · simp only [run_bind, Slot.insert, Prog.exchange]
    cases hT : (Slot.placementMembers.get s.drewSecret).insert _ _ with
    | none => exact guarded_drewSecret s
    | some T =>
        refine .mint rfl (drewSecret_lt s) (.of_insert hT) rfl rfl
          (s.db.placementMembers.seq + 1) fun m' hm' => ?_
        replace hm' : m' ∈ T.rows := hm'
        rw [(Table.insert_eq_some hT).1] at hm'
        rcases List.mem_append.mp hm' with hm' | hm'
        · have hb : m'.id ≤ s.db.placementMembers.seq := s.db.placementMembers.bounded m' hm'
          exact .inl ⟨by omega, m', hm', rfl, rfl⟩
        · rw [List.mem_singleton.mp hm']
          exact .inr ⟨rfl, _, rfl, s.decrypt_nextSecret⟩
  · exact guarded_drewSecret s

theorem guarded_provisionMember (placement : Placement) (student : ProvisionStudent)
    (actor : Option String) :
    Respects (Guarded password) (provisionMemberOnPlacement placement student actor) := by
  intro s
  unfold provisionMemberOnPlacement
  simp only [Op.query, run_read_bind]
  split
  · exact .refl s
  · rw [run_draw_bind, run_draw_bind]
    exact Respects.bind_at (guarded_insertMember _ _ s) fun _ =>
      .bind (guarded_enqueueTask _ _ _ _) fun _ => .pure _

theorem guarded_updateSecret (i : Nat) (f : PlacementMemberRow → PlacementMemberRow) (h)
    (s : Controller) (hf : ∀ r, (f r).credentialSecret = some s.nextSecret) :
    Guarded password s ((updateMember i f h).run s.drewSecret).2 := by
  refine .mint rfl (drewSecret_lt s) (.of_update _ _ f (keeps_member _ f h)) rfl rfl i
    fun m' hm' => ?_
  obtain ⟨a, ha, rfl⟩ := (Table.mem_update (h := keeps_member _ f h)).mp hm'
  split
  · next heq =>
      exact .inr ⟨(h a).1.trans (beq_iff_eq.mp heq), _, hf a, s.decrypt_nextSecret⟩
  · next hne => exact .inl ⟨fun heq => hne (beq_iff_eq.mpr heq), a, ha, rfl, rfl⟩

/-- A member is stored with a fresh password in place of the old one. -/
theorem guarded_reprovisionMember (placement : Placement) (actor : Option String)
    (m : PlacementMemberRow × StudentRow) :
    Respects (Guarded password) (reprovisionMember placement actor m) := by
  intro s
  unfold reprovisionMember
  rw [run_draw_bind, run_draw_bind]
  simp only [Op.now, run_read_bind]
  exact Respects.bind_at (guarded_updateSecret _ _ _ s fun _ => rfl) fun _ =>
    .bind (guarded_enqueueTask _ _ _ _) fun _ => .pure _

theorem guarded_spawn (thread : Thread) (h : Thread.Silent thread) :
    Respects (Guarded password) (Op.spawn thread) := by
  refine fun s => .of_same rfl le_rfl (.refl _) (fun m hm => ⟨m, hm, rfl, rfl⟩) (fun t ht => ?_) rfl
  rcases List.mem_append.mp ht with ht | ht
  · exact .inl ht
  · rw [List.mem_singleton.mp ht]
    exact .inr (.inl h)

/-- What the delivery of a credential does: nothing, or it hands the password of a member over
that stores it, and waits for the answer. -/
theorem deliverPlacementCredential_cases (labName : Value) (nodeName : String)
    (username : Value) (s : Controller) :
    (∃ e, (deliverPlacementCredential labName nodeName username).run s = (.error e, s)) ∨
    (deliverPlacementCredential labName nodeName username).run s = (.ok [], s) ∨
    ∃ m ∈ s.db.placementMembers.rows, ∃ secret ∈ m.credentialSecret, ∃ e : Event,
      (∀ p, e.discloses p = false) ∧
      (deliverPlacementCredential labName nodeName username).run s =
        (.ok [.credentialSent m.id (s.host.decryptSecret secret) nodeName labName username],
          { s with trace := e :: s.trace }) := by
  unfold deliverPlacementCredential
  rw [run_bind, memberByNames_run]
  cases hj : s.db.lookupMember s.host.conversions labName nodeName username with
  | error e => exact .inl ⟨e, rfl⟩
  | ok found =>
      rw [andThen_ok]
      right
      cases found with
      | none => exact .inl rfl
      | some j =>
          dsimp only
          split
          · next secret email _ hsec _ =>
              rw [run_read_bind]
              split
              · exact .inl rfl
              · obtain ⟨_, _, hmem, _⟩ := Db.lookupMember_eq_some hj
                exact .inr ⟨j.member, (Db.mem_joinedMembers.mp hmem).1, secret, hsec,
                  .credentialMail _ _ _ _ _ _, fun _ => rfl, rfl⟩
          · exact .inl rfl

theorem guarded_startCredentialMail (labName : Value) (node : String) (username : Value) :
    Respects (Guarded password) (startCredentialMail labName node username) := by
  intro s
  unfold startCredentialMail
  have spawn : ∀ waiting, Thread.Silent waiting → Respects (Guarded password)
      (if waiting.isEmpty then pure () else Op.spawn waiting) :=
    fun waiting h => .ite (fun _ => .pure _) fun _ => guarded_spawn _ h
  rcases deliverPlacementCredential_cases labName node username s with
    ⟨e, h⟩ | h | ⟨m, hm, secret, hsec, e, he, h⟩
  · rw [run_bind, run_tryCatch_error h, ← run_bind]
    refine Respects.bind_returns (P := Thread.Silent) (.bind (.bind (.read _) fun _ => ?_)
      fun _ => .pure _)
      (.bind fun _ => .pure Thread.silent_nil) spawn s
    split
    · exact guarded_lists _ _
    · exact .pure _
  · rw [run_bind_ok (run_tryCatch_ok h _)]
    exact spawn _ Thread.silent_nil s
  · rw [run_bind_ok (run_tryCatch_ok h _)]
    refine .of_same rfl le_rfl (.refl _) (fun m hm => ⟨m, hm, rfl, rfl⟩) (fun t ht => ?_) ?_
    · rcases List.mem_append.mp ht with ht | ht
      · exact .inl ht
      · rw [List.mem_singleton.mp ht]
        -- the member stores it, and nobody else does
        refine .inr (.inr ⟨_, _, _, _, _, rfl, fun ho heq => ?_⟩)
        have hs : s.Stores m password := ⟨secret, hsec, heq⟩
        exact ⟨ho.drawn m hm hs, fun m' hm' hs' => ho.single m' hm' m hm hs' hs⟩
    · exact List.countP_cons_of_neg (by rw [he]; exact nofun)

/-- **Nothing but the two ways to burn a password discloses one or takes one away.** -/
theorem guardedWalk : TableWalk (Guarded password) where
  lists := guarded_lists
  emit := guarded_emit
  alertState _ _ _ := .frame rfl le_rfl rfl rfl rfl
  gpuMailState _ _ _ := .frame rfl le_rfl rfl rfl rfl
  draw _ _ := .frame rfl (Nat.le_succ _) rfl rfl rfl
  spawn := guarded_spawn
  takeThread i s := .of_same rfl le_rfl (.refl _) (fun m hm => ⟨m, hm, rfl, rfl⟩)
    (fun t ht => .inl (List.mem_of_mem_eraseIdx ht)) rfl
  clock f h hf s := by
    obtain ⟨now, settings, -, he⟩ := hf s
    show Guarded password s (f s)
    rw [he]
    exact .frame rfl le_rfl rfl rfl rfl
  claimTask := guarded_claimTask
  ackTask _ _ _ _ := .frame rfl le_rfl rfl rfl rfl
  retryTask _ _ _ := .bind (.read _) fun _ _ => .frame rfl le_rfl rfl rfl rfl
  updateTasks _ _ _ _ := .frame rfl le_rfl rfl rfl rfl
  enqueueTask := guarded_enqueueTask
  updateNode _ _ _ _ _ := .frame rfl le_rfl rfl rfl rfl
  labs _ _ := .frame rfl le_rfl rfl rfl rfl
  students _ _ := .frame rfl le_rfl rfl rfl rfl
  labMembers _ _ := .frame rfl le_rfl rfl rfl rfl
  labPlacements _ _ := .frame rfl le_rfl rfl rfl rfl
  provisionMember := guarded_provisionMember
  reprovisionMember := guarded_reprovisionMember
  deleteMembers := guarded_deleteMembers
  startCredentialMail := guarded_startCredentialMail

theorem guarded_updateMember (i : Nat) (f : PlacementMemberRow → PlacementMemberRow) (h)
    (hf : ∀ r, (f r).credentialSecret = r.credentialSecret) :
    Respects (Guarded password) (updateMember i f h) := by
  refine fun s => .of_same rfl le_rfl (.of_update _ _ f (keeps_member _ f h)) (fun m' hm' => ?_)
    (fun t ht => .inl ht) rfl
  obtain ⟨m, hm, rfl⟩ := (Table.mem_update (h := keeps_member _ f h)).mp hm'
  refine ⟨m, hm, ?_⟩
  split
  · exact ⟨(h m).1.symm, (hf m).symm⟩
  · exact ⟨rfl, rfl⟩

theorem guarded_startCompletionMail (labName : Value) (node : String) :
    Respects (Guarded password) (startCompletionMail labName node) := by
  refine respects_startCompletionMail (fun _ => respects_update guardedWalk.labPlacements _ _ _)
    (fun _ _ _ _ _ s => ?_)
    (fun _ _ _ => guarded_spawn _ fun await hmem => ?_) (fun f h _ => guarded_lists f h) labName node
  · exact .of_same rfl le_rfl (.refl _) (fun m hm => ⟨m, hm, rfl, rfl⟩) (fun t ht => .inl ht)
      (List.countP_cons_of_neg nofun)
  · rw [List.mem_singleton.mp hmem]
    exact id

theorem guarded_handleResult (node : String) (frame : ResultFrame) :
    Respects (Guarded password) (handleResult node frame) := by
  refine walk_handleResult guardedWalk.enrols.toWalk (fun _ _ _ => trivial) guardedWalk.updateTasks
    guardedWalk.deletePlacements (fun node id ok s => .of_same rfl le_rfl (.refl _) (fun m hm => ⟨m, hm, rfl, rfl⟩)
      (fun t ht => .inl ht) (List.countP_cons_of_neg nofun))
    (fun _ _ _ _ _ => respects_update guardedWalk.labPlacements _ _ _)
    (fun _ _ _ _ => guarded_updateMember _ _ _ fun _ => rfl) guarded_startCompletionMail node frame

/-- The act burns a stored password. -/
def Act.Burns (s : Controller) : Act → Prop
  | .consumePlacementCredential .. => True
  | .resume i answer => ∃ await callers, s.threads[i]? = some (await :: callers) ∧
      await.Burns answer
  | _ => False

theorem guarded_routine {s : Controller} {a : Act} (ha : a.Routine) :
    Guarded password s (step s a) :=
  walk_act guardedWalk.enrols (fun _ _ _ => trivial)
    (fun _ _ _ => respects_update guardedWalk.labs _ _ _) (fun _ => guarded_startCompletionMail)
    (fun _ _ _ _ _ => respects_update guardedWalk.labPlacements _ _ _)
    (walk_telemetry guardedWalk.enrols.toWalk guarded_lists) ha s

/-- **An act that burns no password guards them all.** -/
theorem guarded_step {s : Controller} (hs : s.Threaded) {a : Act} (ha : ¬ a.Burns s) :
    Guarded password s (step s a) := by
  have hnodes : ∀ (s : Controller) T, Guarded password s (Slot.nodes.set s T) := fun _ _ =>
    .frame rfl le_rfl rfl rfl rfl
  have hdelete : ∀ p, Respects (Guarded password) (deleteTasks p) := fun _ _ =>
    .frame rfl le_rfl rfl rfl rfl
  by_cases hreg : a.Registry
  · exact walk_registryAct guardedWalk.enrols.toWalk hnodes guardedWalk.deletePlacements
      (fun _ _ _ _ => hdelete _) hreg s
  cases a with
  | frame node received =>
      cases received with
      | result frame => exact guarded_handleResult _ _ s
      | _ => exact guarded_routine (.inl trivial)
  | removeStudentFromLab labId studentId deleteData actor =>
      exact walk_removeStudentFromLab guardedWalk.enrols.toWalk (fun _ _ _ => trivial)
        guardedWalk.deleteMembers (respects_delete guardedWalk.labMembers) _ _ _ _ s
  | consumePlacementCredential => exact absurd trivial ha
  | resume i answer =>
      refine walk_resumeThread guardedWalk.enrols (fun _ _ _ => trivial) s i answer
        (fun await callers heq => ⟨fun hburns => ha ⟨await, callers, heq, hburns⟩,
          fun waiting hwaiting => .ite (fun _ => .pure _) fun _ =>
            guarded_spawn _ (hwaiting.silent.append ?_)⟩)
        fun _ _ => respects_update guardedWalk.labPlacements _ _ _
      rcases hs _ (List.mem_of_getElem? heq) with hsilent | ⟨_, _, _, _, _, hone⟩
      · exact fun c hc => hsilent c (List.mem_cons_of_mem _ hc)
      · rw [(List.cons.inj hone).2]
        exact Thread.silent_nil
  | provisionNode | rotateNodeToken | revokeNode | deleteNode | setNodeColdStorage
  | registerNode | deregisterNode => exact absurd trivial hreg
  | createPlacement | recreatePlacement | addStudentToLab | copyMembers =>
      exact guarded_routine (.inr (.inl trivial))
  | ensurePiAccess | applyRosterImport => exact guarded_routine (.inr (.inr trivial))
  | _ => exact guarded_routine (.inl trivial)

/-! ## Burning a password -/

/-- What a member stores. -/
def Controller.stored (s : Controller) (i : Nat) : Option String :=
  (s.db.placementMembers.get i).bind PlacementMemberRow.credentialSecret

/-- A password is disclosed, and what its member stores is burnt. -/
structure BurnStep (p : String) (i : Nat) (s s' : Controller) : Prop where
  host : s'.host = s.host
  draws : s'.draws = s.draws
  threads : ∀ t ∈ s'.threads, t ∈ s.threads
  trace : ∃ e, s'.trace = e :: s.trace ∧ ∀ q, e.discloses q = (p == q)
  rows : ∀ m' ∈ s'.db.placementMembers.rows, ∃ m ∈ s.db.placementMembers.rows,
    m.id = m'.id ∧ m'.credentialSecret = if m.id = i then none else m.credentialSecret

/-- Every stored password that is taken away is disclosed on the way. -/
def BurntDisclosed (s s' : Controller) : Prop :=
  ∀ m ∈ s.db.placementMembers.rows, ∀ secret ∈ m.credentialSecret,
    ∀ m' ∈ s'.db.placementMembers.rows, m'.id = m.id → m'.credentialSecret = none →
      ∃ new, s'.trace = new ++ s.trace ∧
        ∃ e ∈ new, e.discloses (s.host.decryptSecret secret) = true

/-- The password is what the member stores; or the member stores nothing, and the password
has not been disclosed. -/
def Controller.Current (s : Controller) (p : String) (i : Nat) : Prop :=
  match s.stored i with
  | some secret => s.host.decryptSecret secret = p
  | none => s.disclosures p = 0

instance (s : Controller) (p : String) (i : Nat) : Decidable (s.Current p i) := by
  unfold Controller.Current
  split <;> infer_instance

theorem Controller.stored_of_mem {s : Controller} {m : PlacementMemberRow}
    (hm : m ∈ s.db.placementMembers.rows) : s.stored m.id = m.credentialSecret := by
  have hget : s.db.placementMembers.get m.id = some m := Table.get_eq_some.mpr ⟨hm, rfl⟩
  rw [Controller.stored, hget]
  rfl

theorem Guarded.burntDisclosed {s s' : Controller} (h : Guarded password s s') :
    BurntDisclosed s s' := by
  intro m hm secret hsec m' hm' hid hnone
  have hne : m.credentialSecret ≠ none := by
    rw [show m.credentialSecret = some secret from hsec]
    exact nofun
  exact absurd hnone (h.stored m hm hne m' hm' hid)

theorem BurnStep.burntDisclosed {p : String} {i : Nat} {s s' : Controller}
    (h : BurnStep p i s s') (hc : s.Current p i) : BurntDisclosed s s' := by
  intro m hm secret hsec m' hm' hid hnone
  obtain ⟨n, hn, hnid, hn'⟩ := h.rows m' hm'
  obtain rfl : n = m := s.db.placementMembers.eq_of_id hn hm (hnid.trans hid)
  have hi : n.id = i := by
    by_contra hne
    rw [if_neg hne, hnone, show n.credentialSecret = some secret from hsec] at hn'
    cases hn'
  have hp : s.host.decryptSecret secret = p := by
    rw [Controller.Current, ← hi, Controller.stored_of_mem hn,
      show n.credentialSecret = some secret from hsec] at hc
    exact hc
  obtain ⟨e, htrace, he⟩ := h.trace
  exact ⟨[e], htrace, e, List.mem_singleton_self _, by rw [he, hp]; exact beq_self_eq_true p⟩

/-- A member that lost its password stores none, and the others what they stored. -/
theorem BurnStep.stores {p : String} {i : Nat} {s s' : Controller} (h : BurnStep p i s s')
    {m' : PlacementMemberRow} (hm' : m' ∈ s'.db.placementMembers.rows)
    (hs : s'.Stores m' password) :
    m'.id ≠ i ∧ ∃ m ∈ s.db.placementMembers.rows, m.id = m'.id ∧ s.Stores m password := by
  obtain ⟨m, hm, hid, hsec⟩ := h.rows m' hm'
  obtain ⟨secret, hmem, hp⟩ := hs
  by_cases hi : m.id = i
  · rw [if_pos hi] at hsec
    rw [hsec] at hmem
    cases hmem
  · rw [if_neg hi] at hsec
    exact ⟨hid ▸ hi, m, hm, hid, secret, hsec ▸ hmem, h.host ▸ hp⟩

theorem Once.burn {p : String} {i : Nat} {s s' : Controller} (ho : Once password s)
    (h : BurnStep p i s s') (hc : s.Current p i) (hp : p = password → s.StoredOnly password i) :
    Once password s' := by
  obtain ⟨e, htrace, he⟩ := h.trace
  have hbefore : StoredBefore password s s' := fun m' hm' hs => (h.stores hm' hs).2
  have hdis : s'.disclosures password =
      s.disclosures password + if p == password then 1 else 0 := by
    rw [Controller.disclosures, htrace, List.countP_cons, he]
    rfl
  by_cases heq : p = password
  · obtain ⟨hdrew, honly⟩ := hp heq
    have hnone : ∀ m' ∈ s'.db.placementMembers.rows, ¬ s'.Stores m' password := by
      intro m' hm' hs
      obtain ⟨hne, m, hm, hid, hs⟩ := h.stores hm' hs
      exact hne (hid.symm.trans (honly m hm hs))
    -- it was not disclosed yet: the member still stores it, or the condition says so
    have hzero : s.disclosures password = 0 := by
      by_contra hpos
      have hburnt := (ho.burnt (Nat.pos_of_ne_zero hpos)).2
      unfold Controller.Current at hc
      split at hc
      · next secret hst =>
          obtain ⟨m, hm, hsec⟩ := Option.bind_eq_some_iff.mp hst
          exact hburnt m (Table.get_eq_some.mp hm).1 ⟨secret, hsec, hc.trans heq⟩
      · exact hpos (heq ▸ hc)
    have hdrew' : s'.Drew password := hdrew.mono h.host h.draws.ge
    refine ⟨fun m' hm' hs => absurd hs (hnone m' hm'), fun m₁ h₁ _ _ hs _ => absurd hs (hnone m₁ h₁),
      fun _ _ _ _ _ => ⟨hdrew', fun m' hm' hs => absurd hs (hnone m' hm')⟩,
      fun _ => ⟨hdrew', hnone⟩, ?_⟩
    rw [hdis, hzero]
    split <;> omega
  · refine ho.keep h.host h.draws.ge hbefore (fun t ht => .inl (h.threads t ht)) ?_
    rw [hdis, if_neg (by simpa using heq), Nat.add_zero]

theorem burnStep_clear {p : String} {i : Nat} {s s' : Controller} (hh : s'.host = s.host)
    (hd : s'.draws = s.draws) (ht : ∀ t ∈ s'.threads, t ∈ s.threads) (e : Event)
    (htrace : s'.trace = e :: s.trace) (he : ∀ q, e.discloses q = (p == q))
    (hrows : s'.db.placementMembers = ((clearCredential i).after s).db.placementMembers) :
    BurnStep p i s s' where
  host := hh
  draws := hd
  threads := ht
  trace := ⟨e, htrace, he⟩
  rows m' hm' := by
    rw [hrows] at hm'
    obtain ⟨m, hm, rfl⟩ := List.mem_map.mp hm'
    refine ⟨m, hm, ?_⟩
    by_cases hi : m.id = i
    · simp [hi]
    · simp [hi]

/-- A reveal burns the password it discloses, or changes nothing. -/
theorem consumePlacementCredential_cases (placementId studentId : Nat) (actor : Option String)
    (s : Controller) :
    (consumePlacementCredential placementId studentId actor).after s = s ∨
    ∃ m ∈ s.db.placementMembers.rows, ∃ secret ∈ m.credentialSecret,
      BurnStep (s.host.decryptSecret secret) m.id s
        ((consumePlacementCredential placementId studentId actor).after s) := by
  unfold consumePlacementCredential
  simp only [Op.query, Prog.after, run_read_bind]
  cases hfind : s.db.joinedMembers.find? fun m =>
      m.member.placementId == placementId && m.member.studentId == studentId with
  | none => exact .inl rfl
  | some j =>
      have hmem := (Db.mem_joinedMembers.mp (List.mem_of_find?_eq_some hfind)).1
      dsimp only
      split
      · exact .inl rfl
      · cases hsec : j.member.credentialSecret with
        | none => exact .inl rfl
        | some secret =>
            simp only [run_read_bind]
            split
            · exact .inl rfl
            · split
              · exact .inl rfl
              · exact .inr ⟨j.member, hmem, secret, hsec, burnStep_clear rfl rfl (fun _ ht => ht)
                  (.credentialReveal _ _ _ _ _) rfl (fun _ => rfl) rfl⟩

/-- The answer that a mail was sent burns the password of the mail. -/
theorem resume_burns {s : Controller} (hs : s.Threaded) {k : Nat} {answer : Answer}
    {await : Await} {callers : Thread} (heq : s.threads[k]? = some (await :: callers))
    (hburns : await.Burns answer) :
    ∃ i p node lab user, s.threads[k]? = some [.credentialSent i p node lab user] ∧
      answer = .sent ∧ BurnStep p i s (step s (.resume k answer)) := by
  obtain ⟨i, p, node, lab, user, rfl, rfl⟩ := hburns.sent
  have hmem : Await.credentialSent i p node lab user :: callers ∈ s.threads :=
    List.mem_of_getElem? heq
  have hnil : callers = [] := by
    rcases hs _ hmem with hsilent | ⟨_, _, _, _, _, hone⟩
    · exact absurd trivial (hsilent _ List.mem_cons_self)
    · exact (List.cons.inj hone).2
  subst hnil
  refine ⟨i, p, node, lab, user, heq, rfl, ?_⟩
  have hstep : step s (.resume k .sent) = (clearCredential i).after
      { s with
        threads := s.threads.eraseIdx k
        trace := .credentialMailed i p :: s.trace } := by
    show ((resumeThread k .sent).run s).2 = _
    unfold resumeThread
    rw [run_read_bind, heq]
    rfl
  rw [hstep]
  exact burnStep_clear rfl rfl (fun t ht => List.mem_of_mem_eraseIdx ht) (.credentialMailed i p)
    rfl (fun _ => rfl) rfl

end

/-! ## Whole runs -/

/-- A mail that is reported as sent carried what its member stores; or the member stores
nothing, and the password of the mail was not disclosed in the meantime. -/
def MailCurrent (s : Controller) : Act → Prop
  | .resume k .sent =>
    match s.threads[k]? with
    | some (.credentialSent i p _ _ _ :: _) => s.Current p i
    | _ => True
  | _ => True

instance (s : Controller) : (a : Act) → Decidable (MailCurrent s a) := by
  intro a
  unfold MailCurrent
  split
  · split <;> infer_instance
  · infer_instance

/-- What every run along the condition keeps. -/
structure Discreetly (host : Host) (s : Controller) : Prop where
  sameHost : s.host = host
  threads : s.Threaded
  once : ∀ p, host.Unrepeated p → Once p s

theorem discreetly_init (host : Host) : Discreetly host (.init host) where
  sameHost := rfl
  threads t ht := by cases ht
  once p _ :=
    { drawn := fun m hm => by cases hm
      single := fun m hm => by cases hm
      mailed := fun _ _ _ _ hmem => by cases hmem
      burnt := fun h => absurd h (Nat.lt_irrefl 0)
      once := Nat.zero_le 1 }

/-- A step either guards the stored passwords or burns the one it discloses. -/
theorem Discreetly.step_cases {host : Host} {s : Controller} (h : Discreetly host s) {a : Act}
    (hc : MailCurrent s a) :
    (∀ p, Guarded p s (step s a)) ∨
    ∃ p i, BurnStep p i s (step s a) ∧ s.Current p i ∧
      ∀ q, host.Unrepeated q → p = q → s.StoredOnly q i := by
  by_cases hb : a.Burns s
  swap
  · exact .inl fun _ => guarded_step h.threads hb
  cases a with
  | consumePlacementCredential placementId studentId actor =>
      have hstep : step s (.consumePlacementCredential placementId studentId actor) =
          (consumePlacementCredential placementId studentId actor).after s := by
        show (andThen _ _).2 = _
        rcases hr : (consumePlacementCredential placementId studentId actor).run s with ⟨e | a, s'⟩
        · simp [Prog.after, hr]
        · simp [Prog.after, hr]
      rw [hstep]
      rcases consumePlacementCredential_cases placementId studentId actor s with
        hsame | ⟨m, hm, secret, hsec, hburn⟩
      · rw [hsame]
        exact .inl fun _ => .refl s
      · refine .inr ⟨_, _, hburn, ?_, fun q hq heq => ?_⟩
        · rw [Controller.Current, Controller.stored_of_mem hm,
            show m.credentialSecret = some secret from hsec]
        · have hs : s.Stores m q := ⟨secret, hsec, heq⟩
          exact ⟨(h.once q hq).drawn m hm hs,
            fun m' hm' hs' => (h.once q hq).single m' hm' m hm hs' hs⟩
  | resume k answer =>
      obtain ⟨await, callers, heq, hburns⟩ := hb
      obtain ⟨i, p, node, lab, user, hthread, rfl, hburn⟩ := resume_burns h.threads heq hburns
      refine .inr ⟨p, i, hburn, ?_, fun q hq hpq => ?_⟩
      · simpa only [MailCurrent, hthread] using hc
      · subst hpq
        exact (h.once p hq).mailed i node lab user (List.mem_of_getElem? hthread)
  | _ => exact hb.elim

theorem Discreetly.step {host : Host} {s : Controller} (h : Discreetly host s) {a : Act}
    (hc : MailCurrent s a) : Discreetly host (MassDeployment.step s a) := by
  rcases h.step_cases hc with hg | ⟨p, i, hburn, hcur, honly⟩
  · exact ⟨(hg "").host.trans h.sameHost, (hg "").threads h.threads,
      fun q hq => (hg q).once (h.sameHost ▸ hq) (h.once q hq)⟩
  · exact ⟨hburn.host.trans h.sameHost, fun t ht => h.threads t (hburn.threads t ht),
      fun q hq => (h.once q hq).burn hburn hcur (honly q hq)⟩

/-- **Credentials are one-time.** In every run along the condition each password is disclosed
at most once, and no stored password is taken away undisclosed. -/
theorem credentials_disclosed_once (host : Host) (acts : List Act)
    (hacts : Run.Along step MailCurrent (.init host) acts) :
    (∀ p, host.Unrepeated p → (Run.run step (.init host) acts).disclosures p ≤ 1) ∧
    ∀ earlier a later, acts = earlier ++ a :: later →
      BurntDisclosed (Run.run step (.init host) earlier)
        (step (Run.run step (.init host) earlier) a) := by
  have hkeep : ∀ acts, Run.Along step MailCurrent (.init host) acts →
      Discreetly host (Run.run step (.init host) acts) := fun acts h =>
    Run.invariant (fun _ _ hs hc => hs.step hc) (discreetly_init host) h
  refine ⟨fun p hp => ((hkeep acts hacts).once p hp).once, ?_⟩
  rintro earlier a later rfl
  obtain ⟨hbefore, ha⟩ := Run.along_append.mp hacts
  rcases (hkeep earlier hbefore).step_cases ha.1 with hg | ⟨p, i, hburn, hcur, _⟩
  · exact (hg "").burntDisclosed
  · exact hburn.burntDisclosed hcur

theorem plain_unrepeated (password : String) : Host.plain.Unrepeated password := by
  intro d d' h h'
  have hlist := congrArg String.toList (h.trans h'.symm)
  simpa [Host.plain] using congrArg List.length hlist

/-- The `student.add` of `enrolled` succeeds, and the mail with its password is on its way. -/
def mailing : List Act := enrolled ++ [succeeded "n" "uuuu"]

/-- The mail is sent. -/
theorem credentials_disclosed_once_mailed :
    (Run.run step (.init .plain) (mailing ++ [.resume 1 .sent])).disclosures "pp" ≤ 1 := by
  obtain ⟨honce, -⟩ := credentials_disclosed_once .plain (mailing ++ [.resume 1 .sent])
    (by decide +kernel)
  exact honce "pp" (plain_unrepeated "pp")

/-- The container is recreated while the mail is on its way. When the mailer answers, the new
password is taken away, and nobody has seen it. -/
theorem new_password_wiped :
    ¬ BurntDisclosed (Run.run step (.init .plain) (mailing ++ [.recreatePlacement 1 {} none]))
      (Run.run step (.init .plain)
        (mailing ++ [.recreatePlacement 1 {} none, .resume 1 .sent])) := by
  intro h
  have hwiped : ∃ m ∈ (Run.run step (.init .plain)
      (mailing ++ [.recreatePlacement 1 {} none])).db.placementMembers.rows,
      m.credentialSecret = some "pppppp" ∧ ∃ m' ∈ (Run.run step (.init .plain)
        (mailing ++ [.recreatePlacement 1 {} none, .resume 1 .sent])).db.placementMembers.rows,
        m'.id = m.id ∧ m'.credentialSecret = none := by
    decide +kernel
  have hunseen : ∀ e ∈ (Run.run step (.init .plain)
      (mailing ++ [.recreatePlacement 1 {} none, .resume 1 .sent])).trace,
      e.discloses ((Run.run step (.init .plain)
        (mailing ++ [.recreatePlacement 1 {} none])).host.decryptSecret "pppppp") = false := by
    decide +kernel
  obtain ⟨m, hm, hsec, m', hm', hid, hnone⟩ := hwiped
  obtain ⟨new, hnew, e, he, hdis⟩ := h m hm "pppppp" hsec m' hm' hid hnone
  have hmem := hunseen e (hnew ▸ List.mem_append_left _ he)
  rw [hmem] at hdis
  cases hdis

/-- A reveal while the mail is on its way discloses its password a second time. -/
example : (Run.run step (.init .plain) (mailing ++
    [.consumePlacementCredential 1 1 none, .resume 1 .sent])).disclosures "pp" = 2 := by
  decide +kernel

end MassDeployment

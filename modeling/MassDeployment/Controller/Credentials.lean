import MassDeployment.Controller.Results

set_option autoImplicit false

/-! # Which passwords leave the controller

A member's password is stored when `student.add` is queued and may leave once the member is
`active`. The row holds the newest password only, and the result of an older `student.add`
activates it all the same. This file shows that every disclosed password was confirmed by
the agent, as long as the result that activates a member is that of the task that carries
the stored password.
-/

namespace MassDeployment

open Js Prog

/-! ## Confirmed passwords -/

/-- A `student.add` that sets this password for this user of this lab. -/
structure TaskFrame.Sets (task : TaskFrame) (lab username password : String) : Prop where
  action : task.action = .studentAdd
  lab : task.param "lab" = some lab
  username : task.param "username" = some username
  password : task.param "password" = some password

instance (task : TaskFrame) (lab username password : String) :
    Decidable (task.Sets lab username password) :=
  decidable_of_iff (task.action = .studentAdd ∧ task.param "lab" = some lab ∧
      task.param "username" = some username ∧ task.param "password" = some password)
    ⟨fun h => ⟨h.1, h.2.1, h.2.2.1, h.2.2.2⟩, fun h => ⟨h.action, h.lab, h.username, h.password⟩⟩

/-- A `student.add` with this password was issued to the node, and its result `ok` is among
the events. -/
def Confirmed (issued : List (String × TaskFrame)) (events : List Event)
    (lab node username password : String) : Prop :=
  ∃ task, (node, task) ∈ issued ∧ task.Sets lab username password ∧
    .settled node task.id true ∈ events

/-- A password that leaves was confirmed by an event before. -/
def Event.Confirmed (issued : List (String × TaskFrame)) (before : List Event) : Event → Prop
  | .credentialMail _ lab node username password _
  | .credentialReveal _ lab node username password =>
    MassDeployment.Confirmed issued before lab node username password
  | _ => True

theorem Confirmed.mono {issued issued' : List (String × TaskFrame)} {events events' : List Event}
    {lab node username password : String} (h : Confirmed issued events lab node username password)
    (hi : issued <:+ issued') (he : events <:+ events') :
    Confirmed issued' events' lab node username password := by
  obtain ⟨task, hmem, hsets, hev⟩ := h
  exact ⟨task, hi.subset hmem, hsets, he.subset hev⟩

theorem Event.Confirmed.mono {issued issued' : List (String × TaskFrame)}
    {before before' : List Event} {e : Event} (h : e.Confirmed issued before)
    (hi : issued <:+ issued') (he : before <:+ before') : e.Confirmed issued' before' := by
  cases e <;> first | trivial | exact MassDeployment.Confirmed.mono h hi he

/-! ## The condition -/

/-- The member a result of `student.add` is attributed to. -/
def Controller.memberFor (s : Controller) (node : String) (frame : ResultFrame) (t : TaskRow) :
    Option JoinedMember :=
  match resultLab frame t, Value.get (safeParams t.params) "username" with
  | .ok lab, .ok user =>
    match s.db.lookupMember s.host.conversions lab node user with
    | .ok found => found
    | .error _ => none
  | _, _ => none

/-- Where the result of a `student.add` is `ok`, the member it is attributed to is active
already, has no stored password, or is stored with the password of this very task. -/
def Confirming (s : Controller) : Act → Prop
  | .frame node (.result frame) =>
    frame.ok = true → ∀ t ∈ s.db.taskLog.rows, t.openFor node frame.id = true →
      t.action = .studentAdd → ∀ j ∈ s.memberFor node frame t,
        j.member.state = .active ∨ ∀ secret ∈ j.member.credentialSecret,
          ∃ x ∈ s.issued, x.1 = node ∧ x.2.id = frame.id ∧ node = j.placement.nodeName ∧
            x.2.Sets j.placement.labName j.student.username (s.host.decryptSecret secret)
  | _ => True

instance (s : Controller) : (a : Act) → Decidable (Confirming s a) :=
  decidableOnReports (fun _ frame => inferInstanceAs (Decidable (frame.ok = true → _))) fun a ha => by
    unfold Confirming
    split
    · exact absurd rfl (ha _ _)
    · trivial

/-! ## The invariant -/

/-- Every stored password of an active member is confirmed, and so was every password that
left when it left. -/
structure Discreet (s : Controller) : Prop where
  linked : s.db.Linked
  stored : ∀ j ∈ s.db.joinedMembers, j.member.state = .active →
    ∀ secret ∈ j.member.credentialSecret,
      Confirmed s.issued s.trace j.placement.labName j.placement.nodeName j.student.username
        (s.host.decryptSecret secret)
  left : ∀ e before, e :: before <:+ s.trace → e.Confirmed s.issued before

theorem discreet_init (host : Host) : Discreet (.init host) where
  linked := Db.linked_empty
  stored j hj := by cases hj
  left e before h := by cases List.suffix_nil.mp h

theorem Controller.Evolves.issued_suffix {s s' : Controller} (h : s.Evolves s') :
    s.issued <:+ s'.issued := by
  obtain ⟨new, hnew, _⟩ := h.issued
  exact ⟨new, hnew.symm⟩

/-- An event of `new ++ old` has happened in `old`, or after all of it. -/
theorem suffix_append_cases {α : Type} {e : α} {before new old : List α}
    (h : e :: before <:+ new ++ old) : e :: before <:+ old ∨ (e ∈ new ∧ old <:+ before) := by
  induction new with
  | nil => exact .inl h
  | cons x new ih =>
      rcases List.suffix_cons_iff.mp h with heq | h
      · cases heq
        exact .inr ⟨List.mem_cons_self, List.suffix_append _ _⟩
      · exact (ih h).imp_right fun ⟨hmem, hsuf⟩ => ⟨List.mem_cons_of_mem _ hmem, hsuf⟩

/-- The invariant goes on where active members keep their password or have it confirmed, and
every event of the way was confirmed. -/
theorem Discreet.evolves {s s' : Controller} (h : Discreet s) (hev : s.Evolves s')
    (hl : s'.db.Linked)
    (hstored : ∀ j ∈ s'.db.joinedMembers, j.member.state = .active →
      ∀ secret ∈ j.member.credentialSecret,
        (∃ m ∈ s.db.placementMembers.rows, j.member.id = m.id ∧ m.state = .active ∧
          secret ∈ m.credentialSecret) ∨
        Confirmed s'.issued s'.trace j.placement.labName j.placement.nodeName j.student.username
          (s.host.decryptSecret secret))
    (hleft : ∃ new, s'.trace = new ++ s.trace ∧ ∀ e ∈ new, e.Confirmed s.issued s.trace) :
    Discreet s' where
  linked := hl
  stored j' hj' hact secret hsec := by
    rw [hev.host]
    rcases hstored j' hj' hact secret hsec with ⟨m, hm, hid, hmact, hmsec⟩ | hc
    · obtain ⟨j, hj, rfl, hlab, hnode, huser⟩ := hev.member_names h.linked hj' hm hid
      rw [← hlab, ← hnode, ← huser]
      exact (h.stored j hj hmact secret hmsec).mono hev.issued_suffix hev.trace
    · exact hc
  left e before he := by
    obtain ⟨new, hnew, hc⟩ := hleft
    rcases suffix_append_cases (hnew ▸ he) with hold | ⟨hmem, hsuf⟩
    · exact (h.left e before hold).mono hev.issued_suffix (List.suffix_refl _)
    · exact (hc e hmem).mono hev.issued_suffix hsuf

/-- A vouched password is the stored one of an active member, hence confirmed. -/
theorem Discreet.confirmed {s : Controller} (h : Discreet s) {e : Event} (he : Vouched s e) :
    e.Confirmed s.issued s.trace := by
  have key : ∀ id lab node username password,
      (∃ j ∈ s.db.joinedMembers, j.member.id = id ∧ j.placement.labName = lab ∧
        j.placement.nodeName = node ∧ j.student.username = username ∧ j.member.state = .active ∧
        ∃ secret, j.member.credentialSecret = some secret ∧
          s.host.decryptSecret secret = password) →
      Confirmed s.issued s.trace lab node username password := by
    rintro id lab node username password ⟨j, hj, -, rfl, rfl, rfl, hact, secret, hsec, rfl⟩
    exact h.stored j hj hact secret hsec
  cases e <;> first | trivial | exact key _ _ _ _ _ he

/-- A quiet stretch discloses stored passwords of active members only. -/
theorem Discreet.quiet {A : String → TaskFrame → Prop} {K : String → Prop} {s s' : Controller}
    (h : Discreet s) (hq : Quiet A K s s') : Discreet s' := by
  refine h.evolves hq.evolves (hq.linked h.linked) (fun j' hj' hact secret hsec => .inl ?_) ?_
  · rcases hq.members.rows _ (Db.mem_joinedMembers.mp hj').1 with ⟨m, hm, hid, hmq⟩ | ⟨_, hn⟩
    · obtain ⟨hmact, hs⟩ := hmq hact
      refine ⟨m, hm, hid, hmact, ?_⟩
      rcases hs with hs | hs
      · exact hs ▸ hsec
      · rw [hs] at hsec
        cases hsec
    · exact absurd hact hn
  · obtain ⟨new, hnew, hv⟩ := hq.trace h.linked
    exact ⟨new, hnew, fun e he => h.confirmed (hv e he)⟩

/-! ## Results -/

/-- The verdict of a task touches no member and discloses nothing. -/
theorem Discreet.settled {s : Controller} (h : Discreet s) (node : String) (frame : ResultFrame) :
    Discreet (s.settled node frame) :=
  h.evolves (evolves_settled s node frame) (linked_settled h.linked)
    (fun j hj hact secret hsec =>
      .inl ⟨j.member, (Db.mem_joinedMembers.mp hj).1, rfl, hact, hsec⟩)
    ⟨[.settled node frame.id frame.ok], rfl, fun e he => by rw [List.mem_singleton.mp he]; trivial⟩

/-- The write of a result activates at most the member it finds. -/
theorem Discreet.write {node : String} {frame : ResultFrame} {t : TaskRow} {s s' : Controller}
    (h : Discreet s) (hw : ResultWrite node frame t s s')
    (hfound : frame.ok = true → t.action = .studentAdd → ∀ j ∈ s.memberFor node frame t,
      j.member.state = .active ∨ ∀ secret ∈ j.member.credentialSecret,
        Confirmed s.issued s.trace j.placement.labName j.placement.nodeName j.student.username
          (s.host.decryptSecret secret)) : Discreet s' := by
  have hkept : ∀ s'' : Controller, s''.db.placementMembers.rows ⊆ s.db.placementMembers.rows →
      ∀ j ∈ s''.db.joinedMembers, j.member.state = .active →
      ∀ secret ∈ j.member.credentialSecret,
        (∃ m ∈ s.db.placementMembers.rows, j.member.id = m.id ∧ m.state = .active ∧
          secret ∈ m.credentialSecret) ∨
        Confirmed s''.issued s''.trace j.placement.labName j.placement.nodeName
          j.student.username (s.host.decryptSecret secret) :=
    fun s'' hsub j hj hact secret hsec =>
      .inl ⟨j.member, hsub (Db.mem_joinedMembers.mp hj).1, rfl, hact, hsec⟩
  have hev := hw.evolves
  have hl := hw.linked h.linked
  cases hw with
  | none _ => exact h
  | created lab p error _ _ _ _ =>
      exact h.evolves hev hl (hkept _ fun _ hm => hm) ⟨[], rfl, by simp⟩
  | destroyFailed lab p error _ _ _ _ _ =>
      exact h.evolves hev hl (hkept _ fun _ hm => hm) ⟨[], rfl, by simp⟩
  | destroyed lab p _ _ _ _ _ _ =>
      exact h.evolves hev hl (hkept _ fun _ hm => (Table.mem_delete.mp hm).1) ⟨[], rfl, by simp⟩
  | added lab user j error ha hlab huser hj =>
      refine h.evolves hev hl (fun j' hj' hact secret hsec => ?_) ⟨[], rfl, by simp⟩
      have hmem := (Db.mem_joinedMembers.mp hj').1
      obtain ⟨m, hm, hmark⟩ := List.mem_map.mp hmem
      have hid : j'.member.id = m.id := by
        rw [← hmark]
        split <;> rfl
      split at hmark
      · -- the member that is found: its state is the verdict, its password is what it was
        rename_i hmj
        obtain ⟨_, _, hjoined, _⟩ := Db.lookupMember_eq_some hj
        have hjm := (Db.mem_joinedMembers.mp hjoined).1
        obtain rfl : m = j.member :=
          s.db.placementMembers.eq_of_id hm hjm (beq_iff_eq.mp hmj)
        rw [← hmark] at hact hsec
        have hok : frame.ok = true := by
          by_contra hno
          simp [PlacementMemberRow.marked, ResultFrame.memberState, hno] at hact
        have hfor : j ∈ s.memberFor node frame t := by
          simp [Controller.memberFor, hlab, huser, hj]
        rcases hfound hok ha j hfor with hmact | hc
        · exact .inl ⟨j.member, hm, hid, hmact, hsec⟩
        · obtain ⟨i, hi, him, h1, h2, h3⟩ := hev.member_names h.linked hj' hjm hid
          obtain rfl : i = j := Db.joinedMembers_key hi hjoined (congrArg _ him)
          rw [← h1, ← h2, ← h3]
          exact .inr (hc secret hsec)
      · exact .inl ⟨m, hm, hid, hmark ▸ hact, hmark ▸ hsec⟩

theorem Discreet.result {s : Controller} (h : Discreet s) {node : String} {frame : ResultFrame}
    (hc : Confirming s (.frame node (.result frame))) :
    Discreet (step s (.frame node (.result frame))) := by
  by_cases hex : ∃ t ∈ s.db.taskLog.rows, t.openFor node frame.id = true
  swap
  · rw [ignored_step (by simpa using hex)]
    exact h
  obtain ⟨t, ht, hopen⟩ := hex
  obtain ⟨s₁, s₂, hq, hm, hw, hq', _⟩ := accepted_step ht hopen
  have h₁ : Discreet s₁ := (h.settled node frame).quiet hq
  refine (h₁.write hw fun hok ha j hj => ?_).quiet hq'
  -- the lookup meets the members the condition speaks of
  have hfor : s₁.memberFor node frame t = s.memberFor node frame t := by
    unfold Controller.memberFor
    rw [hm.1, hm.2.1]
    rfl
  rw [hfor] at hj
  refine (hc hok t ht hopen ha j hj).imp_right fun hsets secret hsec => ?_
  obtain ⟨x, hx, rfl, hid, hnode, hset⟩ := hsets secret hsec
  rw [hm.2.1, ← hnode]
  have hi : s.issued <:+ s₁.issued := ((evolves_settled s x.1 frame).trans hq.evolves).issued_suffix
  exact ⟨x.2, hi.subset hx, hset, hq.evolves.trace.subset (by
    rw [hid]
    exact List.mem_cons.mpr (.inl (by rw [hok])))⟩

theorem Discreet.step {s : Controller} (h : Discreet s) {a : Act} (hc : Confirming s a) :
    Discreet (MassDeployment.step s a) := by
  by_cases hr : ∃ node frame, a = .frame node (.result frame)
  · obtain ⟨node, frame, rfl⟩ := hr
    exact h.result hc
  · exact h.quiet (quiet_step fun node frame he => hr ⟨node, frame, he⟩)

/-! ## Whole runs -/

/-- **Only confirmed passwords leave.** In every run along the condition, an event that hands
a password out comes after the result `ok` of a `student.add` with this password, for the
member it is handed out for. -/
theorem disclosed_only_confirmed (host : Host) (acts : List Act)
    (hacts : Run.Along step Confirming (.init host) acts) (e : Event) (before : List Event)
    (he : e :: before <:+ (Run.run step (.init host) acts).trace) :
    e.Confirmed (Run.run step (.init host) acts).issued before :=
  (Run.invariant (I := Discreet) (fun _ _ h hc => h.step hc) (discreet_init host) hacts).left e before he

/-- A student with an address is added to the placement of `placedLab`: `student.add` is task
`uuuu`, with password `pp`. -/
def enrolled : List Act :=
  placedLab ++ [.addStudentToLab 1 { username := "s", email := some "e" } none,
    succeeded "n" "u"]

/-- The `student.add` succeeds: its password is mailed. -/
theorem disclosed_only_confirmed_enrolled :
    (Event.credentialMail 1 "lab" "n" "s" "pp" "e").Confirmed
      (Run.run step (.init .plain) (enrolled ++ [succeeded "n" "uuuu"])).issued
      (Run.run step (.init .plain) (enrolled ++ [succeeded "n" "uuuu"])).trace.tail :=
  disclosed_only_confirmed .plain (enrolled ++ [succeeded "n" "uuuu"]) (by decide +kernel) _ _
    (by decide +kernel)

/-- The container is recreated while that task is open: the member gets the password
`pppppp`. The result of the old task activates the member, and the new password is mailed,
with its own `student.add` still queued. -/
theorem replaced_password_disclosed :
    ∃ before,
      .credentialMail 1 "lab" "n" "s" "pppppp" "e" :: before =
        (Run.run step (.init .plain) (enrolled ++ [.recreatePlacement 1 {} none,
          succeeded "n" "uuuu"])).trace ∧
      ¬ (Event.credentialMail 1 "lab" "n" "s" "pppppp" "e").Confirmed
        (Run.run step (.init .plain) (enrolled ++ [.recreatePlacement 1 {} none,
          succeeded "n" "uuuu"])).issued before := by
  refine ⟨[.settled "n" "uuuu" true, .settled "n" "u" true], by decide +kernel, ?_⟩
  rintro ⟨task, hmem, hsets, hev⟩
  have hnone : ∀ x ∈ (Run.run step (.init .plain) (enrolled ++ [.recreatePlacement 1 {} none,
      succeeded "n" "uuuu"])).issued, x.2.Sets "lab" "s" "pppppp" →
      .settled "n" x.2.id true ∉ [Event.settled "n" "uuuu" true, .settled "n" "u" true] := by
    decide +kernel
  exact hnone _ hmem hsets hev

end MassDeployment

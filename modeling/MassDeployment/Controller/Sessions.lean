import Mathlib.Data.List.Induction
import MassDeployment.Lib.History
import MassDeployment.Lib.JsValue
import MassDeployment.Lib.Table

set_option autoImplicit false

/-! # Admin sessions (`auth.ts`)

A session is a signed statement about an admin that was true when it was issued: who it is, and
the `token_version` of the account. The gates look the subject up again, and accept a session
while the account is active and has the version the session carries. So two writes end a session,
and only one of them for good: `logoutAllSessions` moves the version, which never moves back, while
`setAdminActive` writes a flag that the next call writes again.
-/

namespace MassDeployment

/-! ## Accounts -/

/-- A row of `admins`. -/
structure AccountRow where
  id : Nat
  name : String
  email : String
  passwordHash : String
  createdAt : Nat
  isActive : Bool := true
  tokenVersion : Nat := 0

instance : Row AccountRow where
  id := AccountRow.id
  clash a b := a.email = b.email
  clash_symm _ _ h := h.symm
  decClash _ _ := inferInstance
  grows a b := b.id = a.id ∧ b.name = a.name ∧ b.email = a.email
  grows_id _ _ h := h.1
  grows_refl _ := ⟨rfl, rfl, rfl⟩
  grows_trans _ _ _ h h' := ⟨h'.1.trans h.1, h'.2.1.trans h.2.1, h'.2.2.trans h.2.2⟩

/-- The table `admins` and the clock. -/
structure Accounts where
  admins : Table AccountRow := .empty
  /-- `Date.now()`. -/
  now : Nat := 0

/-- What `auth.ts` takes from its environment. -/
structure AuthHost where
  /-- `env.signupToken`. -/
  signupToken : String
  /-- `bcrypt.hash(password, BCRYPT_COST)`. -/
  bcrypt : String → String
  trim : String → String
  toLowerCase : String → String

/-- `Admin`, as the callers of this file hand it around. -/
structure Admin where
  id : Nat
  name : String
  email : String
  deriving DecidableEq

/-- The payload of a session token. Its signature is not modelled: the tokens that verify are the
ones `issueSession` returned. -/
structure Session where
  sub : String
  email : String
  name : String
  /-- `token_version` when the token was issued. -/
  ver : Nat
  iat : Nat
  exp : Nat
  deriving DecidableEq

namespace Accounts

/-- `UPDATE admins SET … WHERE id = ?`. -/
def update (s : Accounts) (adminId : Nat) (f : AccountRow → AccountRow)
    (h : ∀ r, (f r).id = r.id ∧ (f r).name = r.name ∧ (f r).email = r.email) : Accounts :=
  { s with
    admins := s.admins.update (fun r => r.id == adminId) f
      ⟨fun r _ => h r, fun a _ hc => (h a).2.2.symm.trans hc⟩ }

/-- Register an admin; without one where the source throws. -/
def createAdmin (host : AuthHost) (s : Accounts) (name email password signupToken : String) :
    Option Admin × Accounts :=
  let normEmail := host.toLowerCase (host.trim email)
  if signupToken ≠ host.signupToken then (none, s)
  else if Js.length password < 12 then (none, s)
  else if normEmail = "" then (none, s)
  else
    let row := fun i : Nat =>
      { id := i, name, email := normEmail, passwordHash := host.bcrypt password
        createdAt := s.now : AccountRow }
    match s.admins.insert row fun _ => rfl with
    | some T => (some ⟨T.seq, name, normEmail⟩, { s with admins := T })
    | none => (none, s)

/-- The version of an account, or 0 where there is none. -/
def tokenVersion (s : Accounts) (adminId : Nat) : Nat :=
  match s.admins.get adminId with
  | some row => row.tokenVersion
  | none => 0

/-- The time in the seconds of a token. -/
def epoch (s : Accounts) : Nat := s.now / 1000

def issueSession (s : Accounts) (admin : Admin) : Session :=
  { sub := admin.id.repr, email := admin.email, name := admin.name
    ver := s.tokenVersion admin.id, iat := s.epoch, exp := s.epoch + 24 * 60 * 60 }

def logoutAllSessions (s : Accounts) (adminId : Nat) : Accounts :=
  s.update adminId (fun r => { r with tokenVersion := r.tokenVersion + 1 }) fun _ => ⟨rfl, rfl, rfl⟩

def setAdminActive (s : Accounts) (adminId : Nat) (active : Bool) : Accounts :=
  s.update adminId (fun r => { r with isActive := active }) fun _ => ⟨rfl, rfl, rfl⟩

/-! ## The gates -/

/-- The claims of the session in the cookie, while it has not expired. -/
def currentAdmin (s : Accounts) (cookie : Option Session) : Option Session :=
  match cookie with
  | none => none
  | some token => if token.exp ≤ s.epoch then none else some token

/-- `Number(claims.sub)`, for the decimal text of a key. -/
def subjectId (claims : Session) : Nat := Nat.ofDigitChars 10 claims.sub.toList 0

/-- The gate of the actions: the verified admin or a redirection, and the cookie that is left. -/
def requireAdmin (s : Accounts) (cookie : Option Session) : Option Admin × Option Session :=
  match s.currentAdmin cookie with
  | none => (none, cookie)
  | some claims =>
    match s.admins.get (subjectId claims) with
    | none => (none, none)
    | some row =>
      if !row.isActive || row.tokenVersion != claims.ver then (none, none)
      else (some ⟨row.id, row.name, row.email⟩, cookie)

/-- The gate of the pages, which may not write cookies. -/
def requireAdminPage (s : Accounts) (cookie : Option Session) : Option Admin :=
  match s.currentAdmin cookie with
  | none => none
  | some claims =>
    match s.admins.get (subjectId claims) with
    | none => none
    | some row =>
      if !row.isActive || row.tokenVersion != claims.ver then none
      else some ⟨row.id, row.name, row.email⟩

/-- The two gates let the same sessions pass. -/
theorem requireAdminPage_eq (s : Accounts) (cookie : Option Session) :
    s.requireAdminPage cookie = (s.requireAdmin cookie).1 := by
  unfold requireAdminPage requireAdmin
  split
  · rfl
  · split
    · rfl
    · split <;> rfl

end Accounts

/-! ## Runs -/

inductive SessionAct where
  | createAdmin (name email password signupToken : String)
  /-- The token goes to the browser and leaves no trace here. -/
  | issueSession (admin : Admin)
  | logoutAllSessions (adminId : Nat)
  | setAdminActive (adminId : Nat) (active : Bool)
  | tick (ms : Nat)
  deriving DecidableEq

/-- One call. -/
def SessionAct.step (host : AuthHost) (s : Accounts) : SessionAct → Accounts
  | .createAdmin name email password signupToken =>
    (s.createAdmin host name email password signupToken).2
  | .issueSession _ => s
  | .logoutAllSessions adminId => s.logoutAllSessions adminId
  | .setAdminActive adminId active => s.setAdminActive adminId active
  | .tick ms => { s with now := s.now + ms }

namespace SessionAct

/-- The account whose flag a call writes, and what it writes. -/
def toggle : SessionAct → Option (Nat × Bool)
  | .setAdminActive adminId active => some (adminId, active)
  | _ => none

/-- The call ends the sessions of the admin: it logs them all out, or disables the account. -/
def Revokes (adminId : Nat) (a : SessionAct) : Prop :=
  a = .logoutAllSessions adminId ∨ a = .setAdminActive adminId false

/-- What a call does to the row of an account. -/
def onRow (adminId : Nat) (row : AccountRow) : SessionAct → AccountRow
  | .logoutAllSessions i => if i = adminId then { row with tokenVersion := row.tokenVersion + 1 } else row
  | .setAdminActive i active => if i = adminId then { row with isActive := active } else row
  | _ => row

end SessionAct

/-! ## What a run does to an account -/

namespace Accounts

variable {host : AuthHost} {s : Accounts} {adminId : Nat} {row : AccountRow}

theorem get_update (s : Accounts) (i : Nat) (f : AccountRow → AccountRow) (h) (adminId : Nat) :
    (s.update i f h).admins.get adminId =
      (s.admins.get adminId).map fun r => if r.id == i then f r else r := by
  have keeps : Row.Keeps (fun r => r.id == i) f :=
    ⟨fun r _ => h r, fun a _ hc => (h a).2.2.symm.trans hc⟩
  refine @Table.find_update AccountRow _ s.admins (fun r => r.id == i) (fun r => r.id == adminId)
    f keeps fun r _ => ?_
  rw [(h r).1]

theorem get_update_some (hrow : s.admins.get adminId = some row) (i : Nat)
    (f : AccountRow → AccountRow) (h) :
    (s.update i f h).admins.get adminId = some (if i = adminId then f row else row) := by
  have hid : row.id = adminId := (Table.get_eq_some.mp hrow).2
  rw [get_update, hrow, Option.map_some, hid]
  by_cases hi : i = adminId
  · rw [if_pos hi, if_pos (by simp [hi])]
  · rw [if_neg hi, if_neg (by simpa using Ne.symm hi)]

/-- Registering an admin leaves the accounts that are there. -/
theorem get_createAdmin (hrow : s.admins.get adminId = some row)
    (name email password signupToken : String) :
    (s.createAdmin host name email password signupToken).2.admins.get adminId = some row := by
  simp only [createAdmin]
  split
  · exact hrow
  · split
    · exact hrow
    · split
      · exact hrow
      · split
        · rename_i T hins
          obtain ⟨hmem, hid⟩ := Table.get_eq_some.mp hrow
          refine Table.get_eq_some.mpr ⟨?_, hid⟩
          rw [(Table.insert_eq_some hins).1]
          exact List.mem_append_left _ hmem
        · exact hrow

/-- One call writes the row of an account as `onRow` says. -/
theorem get_step (hrow : s.admins.get adminId = some row) (a : SessionAct) :
    (a.step host s).admins.get adminId = some (a.onRow adminId row) := by
  cases a with
  | createAdmin name email password signupToken => exact get_createAdmin hrow _ _ _ _
  | issueSession admin => exact hrow
  | logoutAllSessions i =>
      exact get_update_some hrow i (fun r => { r with tokenVersion := r.tokenVersion + 1 })
        fun _ => ⟨rfl, rfl, rfl⟩
  | setAdminActive i active =>
      exact get_update_some hrow i (fun r => { r with isActive := active }) fun _ => ⟨rfl, rfl, rfl⟩
  | tick ms => exact hrow

/-- A run writes it call by call. -/
theorem get_run (hrow : s.admins.get adminId = some row) (acts : List SessionAct) :
    (Run.run (SessionAct.step host) s acts).admins.get adminId =
      some (acts.foldl (SessionAct.onRow adminId) row) := by
  induction acts generalizing s row with
  | nil => exact hrow
  | cons a acts ih => exact ih (get_step hrow a)

end Accounts

namespace SessionAct

variable (adminId : Nat) (row : AccountRow)

/-- Who an account belongs to does not change. -/
theorem identity_onRow (a : SessionAct) : (a.onRow adminId row).id = row.id ∧
    (a.onRow adminId row).name = row.name ∧ (a.onRow adminId row).email = row.email := by
  cases a with
  | logoutAllSessions i => by_cases hi : i = adminId <;> simp [onRow, hi]
  | setAdminActive i active => by_cases hi : i = adminId <;> simp [onRow, hi]
  | _ => exact ⟨rfl, rfl, rfl⟩

theorem identity_foldl (acts : List SessionAct) :
    (acts.foldl (onRow adminId) row).id = row.id ∧
    (acts.foldl (onRow adminId) row).name = row.name ∧
    (acts.foldl (onRow adminId) row).email = row.email := by
  induction acts generalizing row with
  | nil => exact ⟨rfl, rfl, rfl⟩
  | cons a acts ih =>
      obtain ⟨hid, hname, hemail⟩ := identity_onRow adminId row a
      obtain ⟨hid', hname', hemail'⟩ := ih (a.onRow adminId row)
      exact ⟨hid'.trans hid, hname'.trans hname, hemail'.trans hemail⟩

/-- One call writes the flag of the account its toggle names, and no other. -/
theorem isActive_onRow (a : SessionAct) : (a.onRow adminId row).isActive =
    (Run.latest adminId a.toggle.toList).getD row.isActive := by
  cases a with
  | setAdminActive i active =>
      by_cases hi : i = adminId <;> simp [onRow, toggle, Run.latest, hi]
  | logoutAllSessions i => by_cases hi : i = adminId <;> simp [onRow, toggle, hi]
  | _ => rfl

/-- The flag is what the latest of the calls that write it wrote. -/
theorem isActive_foldl (acts : List SessionAct) : (acts.foldl (onRow adminId) row).isActive =
    (Run.latest adminId (acts.filterMap toggle)).getD row.isActive := by
  induction acts using List.reverseRecOn with
  | nil => rfl
  | append_singleton acts a ih =>
      have hlast : [a].filterMap toggle = a.toggle.toList := by
        cases h : a.toggle <;> simp [h]
      rw [List.foldl_append, List.foldl_cons, List.foldl_nil, isActive_onRow, ih,
        List.filterMap_append, hlast, Run.latest_append]
      cases Run.latest adminId a.toggle.toList <;> rfl

/-- One call moves the version by one if it logs the admin out, and leaves it otherwise. -/
theorem tokenVersion_onRow (a : SessionAct) :
    (a = .logoutAllSessions adminId ∧ (a.onRow adminId row).tokenVersion = row.tokenVersion + 1) ∨
      (a ≠ .logoutAllSessions adminId ∧ (a.onRow adminId row).tokenVersion = row.tokenVersion) := by
  cases a with
  | logoutAllSessions i =>
      by_cases hi : i = adminId
      · exact .inl ⟨by rw [hi], by rw [onRow, if_pos hi]⟩
      · exact .inr ⟨fun h => hi (SessionAct.logoutAllSessions.inj h), by rw [onRow, if_neg hi]⟩
  | setAdminActive i active =>
      refine .inr ⟨nofun, ?_⟩
      by_cases hi : i = adminId <;> simp [onRow, hi]
  | _ => exact .inr ⟨nofun, rfl⟩

/-- The version never moves back, and stays only where no call logs the admin out. -/
theorem tokenVersion_foldl (acts : List SessionAct) :
    row.tokenVersion ≤ (acts.foldl (onRow adminId) row).tokenVersion ∧
    ((acts.foldl (onRow adminId) row).tokenVersion = row.tokenVersion ↔
      SessionAct.logoutAllSessions adminId ∉ acts) := by
  induction acts generalizing row with
  | nil => simp
  | cons a acts ih =>
      obtain ⟨hle, heq⟩ := ih (a.onRow adminId row)
      rw [List.foldl_cons, List.mem_cons, not_or]
      rcases tokenVersion_onRow adminId row a with ⟨ha, hmore⟩ | ⟨ha, hsame⟩
      · rw [hmore] at hle
        exact ⟨by omega, iff_of_false (by omega) fun h => h.1 ha.symm⟩
      · rw [hsame] at hle heq
        exact ⟨hle, heq.trans (and_iff_right (Ne.symm ha)).symm⟩

end SessionAct

/-! ## Which sessions pass -/

/-- The session passes both gates as the admin it was issued to. -/
def Admits (s : Accounts) (session : Session) (row : AccountRow) : Prop :=
  (s.requireAdmin (some session)).1 = some ⟨row.id, row.name, row.email⟩ ∧
    s.requireAdminPage (some session) = some ⟨row.id, row.name, row.email⟩

/-- Both gates turn the session away. -/
def Refuses (s : Accounts) (session : Session) : Prop :=
  (s.requireAdmin (some session)).1 = none ∧ s.requireAdminPage (some session) = none

section

variable {host : AuthHost} {s : Accounts} {admin : Admin} {row : AccountRow}

/-- The gate's verdict on a session some calls after it was issued. -/
theorem requireAdmin_run (hrow : s.admins.get admin.id = some row) (acts : List SessionAct) :
    ((Run.run (SessionAct.step host) s acts).requireAdmin (some (s.issueSession admin))).1 =
      if (Run.run (SessionAct.step host) s acts).epoch < (s.issueSession admin).exp ∧
          (Run.latest admin.id (acts.filterMap SessionAct.toggle)).getD row.isActive = true ∧
          SessionAct.logoutAllSessions admin.id ∉ acts then
        some ⟨row.id, row.name, row.email⟩
      else none := by
  have hsub : Accounts.subjectId (s.issueSession admin) = admin.id := by
    show Nat.ofDigitChars 10 admin.id.repr.toList 0 = admin.id
    rw [Nat.toList_repr, Nat.ofDigitChars_ten_toDigits]
  have hver : (s.issueSession admin).ver = row.tokenVersion := by
    show s.tokenVersion admin.id = _
    rw [Accounts.tokenVersion, hrow]
  have hget : (Run.run (SessionAct.step host) s acts).admins.get admin.id =
      some (acts.foldl (SessionAct.onRow admin.id) row) := Accounts.get_run hrow acts
  obtain ⟨hid, hname, hemail⟩ := SessionAct.identity_foldl admin.id row acts
  have hactive := SessionAct.isActive_foldl admin.id row acts
  have hversion := (SessionAct.tokenVersion_foldl admin.id row acts).2
  unfold Accounts.requireAdmin Accounts.currentAdmin
  by_cases hexp : (Run.run (SessionAct.step host) s acts).epoch < (s.issueSession admin).exp
  · simp only [Nat.not_le.mpr hexp, if_false, hsub, hget, hver, hid, hname, hemail, hexp, true_and,
      ← hactive, ← hversion]
    cases (acts.foldl (SessionAct.onRow admin.id) row).isActive with
    | false => simp
    | true =>
        by_cases hv : (acts.foldl (SessionAct.onRow admin.id) row).tokenVersion = row.tokenVersion
        · simp [hv]
        · simp [hv]
  · simp [Nat.not_lt.mp hexp, hexp]

theorem admits_run_iff (hrow : s.admins.get admin.id = some row) (acts : List SessionAct) :
    Admits (Run.run (SessionAct.step host) s acts) (s.issueSession admin) row ↔
      (Run.run (SessionAct.step host) s acts).epoch < (s.issueSession admin).exp ∧
        (Run.latest admin.id (acts.filterMap SessionAct.toggle)).getD row.isActive = true ∧
        SessionAct.logoutAllSessions admin.id ∉ acts := by
  rw [Admits, Accounts.requireAdminPage_eq, and_self, requireAdmin_run hrow]
  split <;> simp_all

theorem refuses_run_iff (hrow : s.admins.get admin.id = some row) (acts : List SessionAct) :
    Refuses (Run.run (SessionAct.step host) s acts) (s.issueSession admin) ↔
      ¬ ((Run.run (SessionAct.step host) s acts).epoch < (s.issueSession admin).exp ∧
        (Run.latest admin.id (acts.filterMap SessionAct.toggle)).getD row.isActive = true ∧
        SessionAct.logoutAllSessions admin.id ∉ acts) := by
  rw [Refuses, Accounts.requireAdminPage_eq, and_self, requireAdmin_run hrow]
  split <;> simp_all

/-- A call that writes the flag of an account wrote its latest value. -/
theorem mem_of_latest_toggle {acts : List SessionAct} {adminId : Nat} {active : Bool}
    (h : Run.latest adminId (acts.filterMap SessionAct.toggle) = some active) :
    SessionAct.setAdminActive adminId active ∈ acts := by
  obtain ⟨a, ha, hat⟩ := List.mem_filterMap.mp (Run.mem_of_latest h)
  cases a with
  | setAdminActive i b =>
      cases hat
      exact ha
  | _ => cases hat

/-- **When revocation is permanent.** A session issued to an admin, and any calls after it. Where
one of them logs the admin out or disables the account, both gates turn the session away; where
none does and the account was active, they let it pass until it expires. This holds exactly
unless, before the session expires, the account was disabled and enabled again with nobody logging
the admin out. -/
theorem session_revocation_iff (hrow : s.admins.get admin.id = some row) (acts : List SessionAct) :
    (((∃ a ∈ acts, SessionAct.Revokes admin.id a) →
        Refuses (Run.run (SessionAct.step host) s acts) (s.issueSession admin)) ∧
      (row.isActive = true → (∀ a ∈ acts, ¬ SessionAct.Revokes admin.id a) →
        (Run.run (SessionAct.step host) s acts).epoch < (s.issueSession admin).exp →
        Admits (Run.run (SessionAct.step host) s acts) (s.issueSession admin) row)) ↔
    ¬ ((Run.run (SessionAct.step host) s acts).epoch < (s.issueSession admin).exp ∧
      SessionAct.setAdminActive admin.id false ∈ acts ∧
      SessionAct.logoutAllSessions admin.id ∉ acts ∧
      Run.latest admin.id (acts.filterMap SessionAct.toggle) = some true) := by
  rw [refuses_run_iff hrow, admits_run_iff hrow]
  constructor
  · rintro ⟨hreject, -⟩ ⟨hexp, hdisabled, hout, henabled⟩
    refine hreject ⟨_, hdisabled, .inr rfl⟩ ⟨hexp, ?_, hout⟩
    rw [henabled]
    rfl
  · intro hcond
    refine ⟨fun ⟨a, ha, hrev⟩ ⟨hexp, hactive, hout⟩ => ?_, fun hactive hnone hexp => ?_⟩
    · rcases hrev with rfl | rfl
      · exact hout ha
      · have hm : (admin.id, false) ∈ acts.filterMap SessionAct.toggle :=
          List.mem_filterMap.mpr ⟨_, ha, rfl⟩
        obtain ⟨b, hb⟩ := Run.exists_latest hm
        rw [hb, Option.getD_some] at hactive
        exact hcond ⟨hexp, ha, hout, hactive ▸ hb⟩
    · refine ⟨hexp, ?_, fun hout => hnone _ hout (.inl rfl)⟩
      cases hl : Run.latest admin.id (acts.filterMap SessionAct.toggle) with
      | none => exact hactive
      | some b =>
          cases b with
          | true => rfl
          | false => exact absurd (.inr rfl) (hnone _ (mem_of_latest_toggle hl))

end

/-- The environment of runs on fixed inputs. -/
def AuthHost.plain : AuthHost := ⟨"token", id, id, id⟩

/-- A table with one admin. -/
def oneAdmin : Accounts :=
  (({} : Accounts).createAdmin AuthHost.plain "Ed" "ed@uga.edu" "correct horse" "token").2

/-- A disabled account turns the session away as long as nobody enables it. -/
theorem session_revocation_disabled :
    Refuses (Run.run (SessionAct.step AuthHost.plain) oneAdmin [.setAdminActive 1 false])
      (oneAdmin.issueSession ⟨1, "Ed", "ed@uga.edu"⟩) := by
  have hrow : (oneAdmin.admins.get (Admin.mk 1 "Ed" "ed@uga.edu").id) =
      some { id := 1, name := "Ed", email := "ed@uga.edu", passwordHash := "correct horse", createdAt := 0 } := by
    rfl
  refine ((session_revocation_iff hrow _).mpr ?_).1 ⟨_, by simp, .inr rfl⟩
  rintro ⟨-, -, -, henabled⟩
  exact absurd henabled (by decide)

/-- A session that was issued before its account was disabled passes again once the account is
enabled. -/
theorem session_survives_disabling :
    let session := oneAdmin.issueSession ⟨1, "Ed", "ed@uga.edu"⟩
    let acts := [SessionAct.setAdminActive 1 false, .setAdminActive 1 true]
    let s' := Run.run (SessionAct.step AuthHost.plain) oneAdmin acts
    (∃ a ∈ acts, SessionAct.Revokes 1 a) ∧
      (s'.requireAdmin (some session)).1 = some ⟨1, "Ed", "ed@uga.edu"⟩ ∧
      s'.requireAdminPage (some session) = some ⟨1, "Ed", "ed@uga.edu"⟩ :=
  ⟨⟨_, by simp, .inr rfl⟩, by decide +kernel, by decide +kernel⟩

end MassDeployment

import MassDeployment.Controller.RosterImport

set_option autoImplicit false

/-! # Account names on the node (`executors/users.py`)

What the agent asks of a username and of a numeric id before it makes an account.
-/

namespace MassDeployment.Agent

/-- `[a-z_][a-z0-9_-]{0,31}`, for a whole text. -/
def usernameChars : List Char → Bool
  | [] => false
  | c :: rest => (('a' ≤ c && c ≤ 'z') || c == '_') &&
      rest.all (fun c => ('a' ≤ c && c ≤ 'z') || ('0' ≤ c && c ≤ '9') || c == '_' || c == '-') &&
      rest.length ≤ 31

/-- `USERNAME_RE.match`; the `$` of the pattern also matches in front of a last newline. -/
def matchesUsername (username : String) : Bool :=
  usernameChars username.toList ||
    (username.toList.getLast? == some '\n' && usernameChars username.toList.dropLast)

/-- `validate_username`. -/
def validateUsername (username : String) : Except String Unit :=
  if matchesUsername username then .ok () else .error s!"invalid username '{username}'"

def minStudentUid : Int := 10000

def maxStudentUid : Int := 59999

/-- `validate_uid`. -/
def validateUid (uid gid : Int) : Except String Unit :=
  if uid ≠ gid ∨ ¬ (minStudentUid ≤ uid ∧ uid ≤ maxStudentUid) then
    .error s!"student uid/gid must match and be in {minStudentUid}..{maxStudentUid}"
  else .ok ()

@[simp] theorem validateUsername_eq_ok (username : String) :
    validateUsername username = .ok () ↔ matchesUsername username = true := by
  unfold validateUsername
  split <;> simp_all

@[simp] theorem validateUid_eq_ok (uid gid : Int) :
    validateUid uid gid = .ok () ↔ uid = gid ∧ 10000 ≤ uid ∧ uid ≤ 59999 := by
  unfold validateUid minStudentUid maxStudentUid
  split
  next h =>
    simp only [reduceCtorEq, false_iff]
    omega
  next h =>
    simp only [true_iff]
    omega

/-- The roster import lets no username through that the agent refuses. -/
theorem matchesUsername_of_isUsername {s : String} (h : isUsername s = true) :
    matchesUsername s = true := by
  unfold matchesUsername
  rw [Bool.or_eq_true]
  refine .inl ?_
  unfold isUsername at h
  cases hs : s.toList with
  | nil =>
      rw [hs] at h
      cases h
  | cons c rest =>
      rw [hs] at h
      exact h

end MassDeployment.Agent

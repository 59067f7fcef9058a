import MassDeployment.Controller.Acts

set_option autoImplicit false

/-! # What suspended calls wait for

A call that puts students on rosters or placements waits for the calls it makes. Two calls wait
for the mailer, the delivery of a credential and that of a completion mail, and each of them on its
own: no other call waits for it to return.
-/

namespace MassDeployment

open Js Prog

/-- The call waits for the mailer's answer about a password. -/
def Await.Mailing : Await → Prop
  | .credentialSent .. => True
  | _ => False

/-- No call of the thread waits for an answer about a password. -/
def Thread.Silent (thread : Thread) : Prop := ∀ await ∈ thread, ¬ await.Mailing

/-- The call does not wait for the mailer. -/
def Await.Working : Await → Prop
  | .credentialSent .. | .completionSent .. => False
  | _ => True

/-- No call of the thread waits for the mailer. -/
def Thread.Working (thread : Thread) : Prop := ∀ await ∈ thread, await.Working

theorem Thread.silent_nil : Thread.Silent [] := fun _ h => absurd h List.not_mem_nil

theorem Thread.Silent.append {t t' : Thread} (h : Thread.Silent t) (h' : Thread.Silent t') :
    Thread.Silent (t ++ t') := by
  intro await hmem
  rcases List.mem_append.mp hmem with hmem | hmem
  · exact h await hmem
  · exact h' await hmem

theorem Thread.working_nil : Thread.Working [] := fun _ h => absurd h List.not_mem_nil

theorem Thread.Working.append {t t' : Thread} (h : Thread.Working t) (h' : Thread.Working t') :
    Thread.Working (t ++ t') := by
  intro await hmem
  rcases List.mem_append.mp hmem with hmem | hmem
  · exact h await hmem
  · exact h' await hmem

theorem Thread.working_singleton {await : Await} (h : await.Working) : Thread.Working [await] := by
  intro a ha
  rw [List.mem_singleton.mp ha]
  exact h

theorem Thread.Working.silent {t : Thread} (h : Thread.Working t) : Thread.Silent t := by
  intro await hmem hmailing
  have hworking := h await hmem
  cases await with
  | credentialSent memberId password node lab username => exact hworking
  | _ => exact hmailing

theorem provisionRoster_working (placement : Placement) (students : List ProvisionStudent)
    (actor : Option String) : Returns Thread.Working (provisionRoster placement students actor) := by
  cases students with
  | nil => exact .pure Thread.working_nil
  | cons student rest => exact .bind fun _ => .pure (Thread.working_singleton trivial)

theorem provisionOn_working (placements : List Placement) (student : ProvisionStudent)
    (actor : Option String) : Returns Thread.Working (provisionOn placements student actor) := by
  cases placements with
  | nil => exact .pure Thread.working_nil
  | cons placement rest => exact .bind fun _ => .pure (Thread.working_singleton trivial)

theorem createPlacement_working (input : CreatePlacementInput) (actor : Option String) :
    Returns Thread.Working (createPlacement input actor) := by
  refine .bind fun node => ?_
  split
  · exact .throw _
  · refine .bind fun _ => .bind fun _ => .ite (.throw _) (.ite (.throw _) ?_)
    refine .bind fun _ => .bind fun _ => .bind fun placement => ?_
    split
    · exact .throw _
    · exact .bind fun _ => .bind fun _ => .bind fun _ => provisionRoster_working _ _ _

theorem addStudentToLab_working (labId : Nat) (student : StudentInput) (actor : Option String) :
    Returns Thread.Working (addStudentToLab labId student actor) := by
  refine .bind fun lab => ?_
  split
  · exact .throw _
  · refine .bind fun _ => .bind fun _ => .ite (.throw _) ?_
    exact .bind fun _ => .bind fun _ => .bind fun _ => provisionOn_working _ _ _

theorem copyEach_working (toLabId : Nat) (actor : Option String) (members : List Member) :
    Returns Thread.Working (copyEach toLabId actor members) := by
  induction members with
  | nil => exact .pure Thread.working_nil
  | cons m rest ih =>
      refine .bind fun _ => .ite ih ?_
      exact .bind_of (addStudentToLab_working _ _ _) fun waiting hwaiting =>
        .pure (hwaiting.append (Thread.working_singleton trivial))

theorem ensurePiAccess_working (labId : Nat) (input : StudentInput) (actor : Option String) :
    Returns Thread.Working (ensurePiAccess labId input actor) := by
  refine .bind fun lab => ?_
  split
  · exact .throw _
  · refine .bind fun _ => .ite (.throw _) (.bind fun _ => .ite (.throw _) ?_)
    refine .bind fun _ => .bind fun _ => .bind fun _ => .bind fun _ => .bind fun _ => ?_
    exact .bind fun _ => provisionOn_working _ _ _

theorem provisionImported_working (labId : Nat) (actor : Option String)
    (students : List ProvisionStudent) :
    Returns Thread.Working (provisionImported labId actor students) := by
  induction students with
  | nil => exact .pure Thread.working_nil
  | cons student rest ih =>
      refine .bind fun placements => ?_
      split
      · exact ih
      · exact .bind fun _ => .pure (Thread.working_singleton trivial)

theorem applyRosterImport_working (labId : Nat) (text : String) (actor : Option String) :
    Returns Thread.Working (applyRosterImport labId text actor) := by
  refine .bind fun s => .ite ?_ (.throw _)
  exact .bind fun _ => .bind fun _ => .bind fun _ => provisionImported_working _ _ _

/-- What a call waits for next is not the mailer. -/
theorem resume_working (answer : Answer) (await : Await) :
    Returns Thread.Working (await.resume answer) := by
  cases await with
  | provisionRoster placement rest actor => exact provisionRoster_working _ _ _
  | provisionOn rest student actor => exact provisionOn_working _ _ _
  | copyRest toLabId rest actor => exact copyEach_working _ _ _
  | importRest labId placements student rest actor =>
      cases placements with
      | nil => exact provisionImported_working _ _ _
      | cons placement others => exact .bind fun _ => .pure (Thread.working_singleton trivial)
  | credentialSent memberId password node lab username =>
      cases answer with
      | sent => exact .bind fun _ => .bind fun _ => .pure Thread.working_nil
      | notSent => exact .pure Thread.working_nil
      | threw e => exact .bind fun _ => .pure Thread.working_nil
  | completionSent placementId node lab =>
      cases answer with
      | sent => exact .bind fun _ => .bind fun _ => .pure Thread.working_nil
      | notSent => exact .bind fun _ => .pure Thread.working_nil
      | threw e => exact .bind fun _ => .pure Thread.working_nil

end MassDeployment

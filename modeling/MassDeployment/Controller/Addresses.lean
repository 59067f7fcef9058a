import Mathlib
import MassDeployment.Controller.Announcements
import MassDeployment.Controller.ImportTwice

set_option autoImplicit false

/-! # The addresses that are stored

Students are stored under normalised addresses, by whatever operation. The address of a PI is
normalised by `ensurePiAccess` and by an import, but not by `createLab` and `updateLabMeta`. So an
announcement reaches everyone once, as long as these two are given no capital letters.
-/

namespace MassDeployment

open Js Prog

/-- The address has no capital letters, if there is one. -/
def Host.Plains (h : Host) (email : Option String) : Prop := ∀ e, email = some e → h.Plain e

/-- The platform is `h`, and no address of the database has capital letters. -/
structure Controller.Plain (h : Host) (s : Controller) : Prop where
  host : s.host = h
  students : ∀ r ∈ s.db.students.rows, h.Plains r.email
  labs : ∀ l ∈ s.db.labs.rows, h.Plains l.piEmail

variable {h : Host}

theorem Controller.Plain.addresses {s : Controller} (hs : s.Plain h) : s.db.PlainAddresses h := by
  rintro (_ | _) e ⟨r, hr, he⟩
  · exact hs.students r hr e he
  · exact hs.labs r hr e he

theorem plains_normalize (hlaws : h.TextLaws) (email : Option String) :
    h.Plains (normalizeEmail h email) := by
  intro e he
  unfold normalizeEmail at he
  split at he
  · cases he
  · dsimp only at he
    split at he
    · cases he
    · cases he
      rename_i given _
      show h.toLowerCase (h.trim (h.toLowerCase (h.trim given))) =
        h.trim (h.toLowerCase (h.trim given))
      rw [hlaws.trim_lower, hlaws.lower_lower]

theorem Host.Plains.orElse {a b : Option String} (ha : h.Plains a) (hb : h.Plains b) :
    h.Plains (a.orElse fun _ => b) := by
  cases a with
  | none => exact hb
  | some _ => exact ha

/-- An empty address is stored as none. -/
theorem plains_orNull {email : Option String} (hemail : h.Plains email) :
    h.Plains (orNull email) := by
  intro e he
  unfold orNull at he
  split at he
  · split at he
    · cases he
    · exact hemail e he
  · cases he

/-! ## The rows of an import -/

theorem plains_nonEmpty (hlaws : h.TextLaws) (cell : String) :
    h.Plains (nonEmpty (h.toLowerCase (h.trim cell))) := by
  intro e he
  unfold nonEmpty at he
  split at he
  · cases he
  · cases he
    show h.toLowerCase (h.trim (h.toLowerCase (h.trim cell))) = h.trim (h.toLowerCase (h.trim cell))
    rw [hlaws.trim_lower, hlaws.lower_lower]

theorem validRow_plains (hlaws : h.TextLaws) {line : Nat} {c : CsvRecord} {r : ValidRow}
    (hr : validRow h line c = .ok r) : h.Plains r.semail := by
  unfold validRow at hr
  dsimp only at hr
  repeat' split at hr
  all_goals try cases hr
  · rename_i hemail _ _
    exact hemail ▸ plains_nonEmpty hlaws _
  · exact plains_nonEmpty hlaws _

theorem fileRows_plains (hlaws : h.TextLaws) {text : String} {r : ValidRow}
    (hr : r ∈ fileRows h text) : h.Plains r.semail := by
  obtain ⟨c, hc, hok⟩ := List.mem_filterMap.mp hr
  obtain ⟨⟨row, i⟩, _, rfl⟩ := List.mem_map.mp hc
  dsimp only at hok
  cases hv : validRow h (i + 2) row with
  | error _ =>
      rw [hv] at hok
      cases hok
  | ok r' =>
      rw [hv] at hok
      cases hok
      exact validRow_plains hlaws hv

section

variable {valid : List ValidRow} (hvalid : ∀ r ∈ valid, h.Plains r.semail)

include hvalid

theorem batchOf_plains {user : String} {info : BatchStudent}
    (he : (user, info) ∈ (batchOf valid).1) : h.Plains info.email :=
  (batchOf_sound (P := fun _ info => h.Plains info.email) (fun r hr => hvalid r hr)
    fun r hr _ hprev => hprev.orElse (hvalid r hr)).entry _ he

theorem piRows_plains : h.Plains (piRows valid).email := by
  have hfold : ∀ acc : PiRows, h.Plains acc.email →
      h.Plains (valid.foldl PiRows.add acc).email := by
    induction valid with
    | nil => exact fun _ hacc => hacc
    | cons r rest ih =>
        intro acc hacc
        refine ih (fun x hx => hvalid x (List.mem_cons_of_mem _ hx)) _ ?_
        unfold PiRows.add
        split
        · exact hacc
        · rcases agree_fst "email" r.line acc.email r.semail with he | he
          · exact fun e hv => hacc e (he.symm.trans hv)
          · exact fun e hv => hvalid r List.mem_cons_self e (he.symm.trans hv)
  exact hfold {} nofun

end

/-- The addresses a plan writes have no capital letters. -/
structure RosterPlan.Plain (h : Host) (plan : RosterPlan) : Prop where
  creates : ∀ c ∈ plan.studentsToCreate, h.Plains c.email
  updates : ∀ u ∈ plan.studentsToUpdate, h.Plains u.email
  pi : ∀ pi, plan.piUpdate = some pi → h.Plains pi.piEmail

theorem Host.Plains.changed {value : Option String} (hv : h.Plains value)
    (stored : Option String) : h.Plains (changed value stored) :=
  fun e he => hv e (Option.filter_eq_some_iff.mp he).1

/-- The address a resolution writes, if any, has no capital letters. -/
def Resolution.Plain (h : Host) : Resolution → Prop
  | .create c => h.Plains c.email
  | .update u => h.Plains u.email
  | _ => True

theorem resolve_plain (d : Db) (user : String) {info : BatchStudent} (hinfo : h.Plains info.email) :
    (resolve d user info).Plain h := by
  unfold resolve
  dsimp only
  refine iteInduction (motive := Resolution.Plain h) (fun _ => trivial) fun _ =>
    iteInduction (motive := Resolution.Plain h) (fun _ => trivial) fun _ => ?_
  split
  · exact hinfo
  · exact iteInduction (motive := Resolution.Plain h) (fun _ => hinfo.changed _) fun _ => trivial

theorem planRows_plain {d : Db} {lab : LabRow} {valid : List ValidRow} {invalid : List ImportIssue}
    (hvalid : ∀ r ∈ valid, h.Plains r.semail) :
    (planRows d lab valid invalid).toRosterPlan.Plain h where
  creates c hc := by
    obtain ⟨x, hx, hcreate⟩ := List.mem_filterMap.mp hc
    obtain ⟨⟨user, info⟩, he, rfl⟩ := List.mem_map.mp hx
    have hplain := resolve_plain d user (batchOf_plains hvalid he)
    dsimp only at hcreate
    generalize resolve d user info = res at hplain hcreate
    cases res <;> cases hcreate
    exact hplain
  updates u hu := by
    obtain ⟨x, hx, hupdate⟩ := List.mem_filterMap.mp hu
    obtain ⟨⟨user, info⟩, he, rfl⟩ := List.mem_map.mp hx
    have hplain := resolve_plain d user (batchOf_plains hvalid he)
    dsimp only at hupdate
    generalize resolve d user info = res at hplain hupdate
    cases res <;> cases hupdate
    exact hplain
  pi pi hpi := by
    change piUpdate d lab (piRows valid) = some pi at hpi
    unfold piUpdate at hpi
    dsimp only at hpi
    split at hpi
    · cases hpi
      exact (piRows_plains hvalid).changed _
    · cases hpi

theorem planRosterImport_plain (hlaws : h.TextLaws) {d : Db} {labId : Nat} {text : String}
    (hok : (planRosterImport h d labId text).ok = true) :
    (planRosterImport h d labId text).toRosterPlan.Plain h := by
  obtain ⟨lab, -, hplan, -⟩ := planRosterImport_ok hok
  rw [hplan]
  exact planRows_plain fun r hr => fileRows_plains hlaws hr

/-! ## The operations -/

/-- Steps that bring no capital letters in. -/
abbrev KeepsPlain (h : Host) : Controller → Controller → Prop := Keeping (Controller.Plain h)

/-- What leaves students and labs alone does so. -/
theorem keepsPlain_of_roster {α : Type} {x : Op α} (hx : Respects SameRoster x) :
    Respects (KeepsPlain h) x := by
  intro s hs
  refine ⟨(x.keeps s).host.trans hs.host, ?_, ?_⟩
  · rw [(hx s).students]
    exact hs.students
  · rw [(hx s).labs]
    exact hs.labs

/-- What comes behind a read of the state may use that it is plain. -/
theorem keepsPlain_read {α β : Type} {f : Controller → α} {k : α → Op β}
    (hk : ∀ s, s.Plain h → Respects (KeepsPlain h) (k (f s))) :
    Respects (KeepsPlain h) (Prog.read f >>= k) := fun s hs => hk s hs s hs

theorem plain_setStudents {s : Controller} (hs : s.Plain h) {T : Table StudentRow}
    (hT : ∀ r ∈ T.rows, h.Plains r.email) : (Slot.students.set s T).Plain h :=
  ⟨hs.host, hT, hs.labs⟩

theorem plain_setLabs {s : Controller} (hs : s.Plain h) {T : Table LabRow}
    (hT : ∀ l ∈ T.rows, h.Plains l.piEmail) : (Slot.labs.set s T).Plain h :=
  ⟨hs.host, hs.students, hT⟩

theorem keepsPlain_insertStudentRow {mk : Nat → StudentRow} {hmk}
    (hemail : ∀ i, h.Plains (mk i).email) :
    Respects (KeepsPlain h) (Slot.students.insert mk hmk) := by
  intro s hs
  rcases Slot.insert_cases Slot.students mk hmk s with heq | ⟨T, heq, hrows, -⟩ <;> rw [heq]
  · exact hs
  · refine plain_setStudents hs fun r hr => ?_
    rw [hrows] at hr
    rcases List.mem_append.mp hr with hr | hr
    · exact hs.students r hr
    · rw [List.mem_singleton.mp hr]
      exact hemail _

theorem keepsPlain_updateStudents {p : StudentRow → Bool} {f : StudentRow → StudentRow} {hf}
    (hemail : ∀ r, h.Plains r.email → h.Plains (f r).email) :
    Respects (KeepsPlain h) (Slot.students.update p f hf) := by
  intro s hs
  refine plain_setStudents hs fun r hr => ?_
  obtain ⟨a, ha, rfl⟩ := Table.mem_update.mp hr
  split
  · exact hemail a (hs.students a ha)
  · exact hs.students a ha

theorem keepsPlain_tryUpdateStudents {p : StudentRow → Bool} {f : StudentRow → StudentRow} {hf}
    (hemail : ∀ r, h.Plains r.email → h.Plains (f r).email) :
    Respects (KeepsPlain h) (Slot.students.tryUpdate p f hf) := by
  refine .exchange fun s a s' hstep => ?_
  split at hstep
  · cases hstep
    intro hs
    rename_i T hT
    refine plain_setStudents hs fun r hr => ?_
    rw [(Table.tryUpdate_eq_some hT).1] at hr
    obtain ⟨a, ha, rfl⟩ := List.mem_map.mp hr
    split
    · exact hemail a (hs.students a ha)
    · exact hs.students a ha
  · cases hstep

theorem keepsPlain_updateLab {labId : Nat} {f : LabRow → LabRow} {hf}
    (hemail : ∀ l, h.Plains l.piEmail → h.Plains (f l).piEmail) :
    Respects (KeepsPlain h) (updateLab labId f hf) := by
  intro s hs
  refine plain_setLabs hs fun l hl => ?_
  obtain ⟨a, ha, rfl⟩ := Table.mem_update.mp hl
  split
  · exact hemail a (hs.labs a ha)
  · exact hs.labs a ha

theorem keepsPlain_insertLab {mk : Nat → LabRow} {hmk} (hemail : ∀ i, h.Plains (mk i).piEmail) :
    Respects (KeepsPlain h) (Slot.labs.insert mk hmk) := by
  intro s hs
  rcases Slot.insert_cases Slot.labs mk hmk s with heq | ⟨T, heq, hrows, -⟩ <;> rw [heq]
  · exact hs
  · refine plain_setLabs hs fun l hl => ?_
    rw [hrows] at hl
    rcases List.mem_append.mp hl with hl | hl
    · exact hs.labs l hl
    · rw [List.mem_singleton.mp hl]
      exact hemail _

theorem keepsPlain_insertLabMember (labId studentId : Nat) :
    Respects (KeepsPlain h) (insertLabMember labId studentId) := by
  refine respects_insertLabMember (fun mk hmk => ?_) labId studentId
  intro s hs
  rcases Slot.insert_cases Slot.labMembers mk hmk s with heq | ⟨T, heq, -, -⟩ <;> rw [heq]
  · exact hs
  · exact ⟨hs.host, hs.students, hs.labs⟩

theorem keepsPlain_audit (actor : Option String) (action : String) (target detail : Option String) :
    Respects (KeepsPlain h) (audit actor action target detail) :=
  keepsPlain_of_roster (memberWalk_roster.audit _ _ _ _)

theorem roster_provisionOn (placements : List Placement) (student : ProvisionStudent)
    (actor : Option String) : Respects SameRoster (provisionOn placements student actor) := by
  cases placements with
  | nil => exact .pure _
  | cons placement rest =>
      exact .bind (memberWalk_roster.provisionMember _ _ _) fun _ => .pure _

theorem roster_provisionRoster (placement : Placement) (students : List ProvisionStudent)
    (actor : Option String) : Respects SameRoster (provisionRoster placement students actor) := by
  cases students with
  | nil => exact .pure _
  | cons student rest => exact .bind (memberWalk_roster.provisionMember _ _ _) fun _ => .pure _

theorem keepsPlain_insertStudent {username : String} {studentId email name : Option String}
    (hemail : h.Plains email) :
    Respects (KeepsPlain h) (insertStudent username studentId email name) := by
  refine .bind (.read _) fun s => ?_
  split
  · exact respects_failWith _
  · exact .bind (keepsPlain_insertStudentRow fun _ => hemail) fun _ => .pure _

theorem keepsPlain_commitRosterPlan {labId : Nat} {plan : RosterPlan} (hplan : plan.Plain h) :
    Respects (KeepsPlain h) (commitRosterPlan labId plan) := by
  refine .bind (.read _) fun _ => .bind (.optionForM _ fun pi hpi =>
    keepsPlain_updateLab fun l hl => (hplan.pi pi hpi).orElse hl) fun _ => ?_
  refine .bind (.forM _ fun c hc =>
    .bind (keepsPlain_insertStudent (hplan.creates c hc)) fun _ => .pure _) fun _ => ?_
  refine .bind (.forM _ fun u hu => ?_) fun _ =>
    .bind (.optionForM _ fun username _ => ?_) fun _ =>
      .bind (.mapM _ fun username _ => ?_) fun _ => .pure _
  · exact .bind (.read _) fun _ => .bind (.optionForM _ fun _ _ =>
      keepsPlain_tryUpdateStudents fun _ hr => hr) fun _ =>
        keepsPlain_updateStudents fun _ hr => (hplan.updates u hu).orElse hr
  · refine .bind (.read _) fun row => ?_
    split
    · exact respects_failWith _
    · exact keepsPlain_updateLab fun _ hl => hl
  · refine .bind (.read _) fun row => ?_
    split
    · exact .throw _
    · exact .bind (.read _) fun _ => .ite (fun _ => .pure _) fun _ =>
        .bind (keepsPlain_insertLabMember _ _) fun _ => .pure _

section

variable (hlaws : h.TextLaws)

include hlaws

theorem keepsPlain_findOrCreateStudent (input : StudentInput) :
    Respects (KeepsPlain h) (findOrCreateStudent input) := by
  refine keepsPlain_read fun s hs => ?_
  dsimp only [id]
  rw [hs.host]
  split
  · exact .pure _
  · split
    · exact .pure _
    · exact .atomically (keepsPlain_insertStudent (plains_normalize hlaws _))

theorem keepsPlain_addStudentToLab (labId : Nat) (student : StudentInput) (actor : Option String) :
    Respects (KeepsPlain h) (addStudentToLab labId student actor) := by
  refine .bind (.read _) fun lab => ?_
  split
  · exact respects_failWith _
  · refine .bind (keepsPlain_findOrCreateStudent hlaws _) fun record => .bind (.read _) fun _ => ?_
    refine .ite (fun _ => respects_failWith _) fun _ =>
      .bind (keepsPlain_insertLabMember _ _) fun _ => ?_
    exact .bind (keepsPlain_audit _ _ _ _) fun _ => .bind (.read _) fun _ =>
      keepsPlain_of_roster (roster_provisionOn _ _ _)

theorem keepsPlain_copyEach (toLabId : Nat) (actor : Option String) (members : List Member) :
    Respects (KeepsPlain h) (copyEach toLabId actor members) := by
  induction members with
  | nil => exact .pure _
  | cons m rest ih =>
      refine .bind (.read _) fun _ => .ite (fun _ => ih) fun _ => ?_
      exact .bind (keepsPlain_addStudentToLab hlaws _ _ _) fun _ => .pure _

theorem keepsPlain_ensurePiAccess (labId : Nat) (input : StudentInput) (actor : Option String) :
    Respects (KeepsPlain h) (ensurePiAccess labId input actor) := by
  refine .bind (.read _) fun lab => ?_
  split
  · exact respects_failWith _
  · refine keepsPlain_read fun s hs => ?_
    rw [hs.host]
    refine .ite (fun _ => respects_failWith _) fun _ =>
      .bind (keepsPlain_findOrCreateStudent hlaws _) fun record =>
        .ite (fun _ => respects_failWith _) fun _ => ?_
    refine .bind (.read _) fun _ =>
      .bind (keepsPlain_updateStudents fun _ _ => plains_normalize hlaws _) fun _ =>
        .bind (keepsPlain_updateLab fun _ _ => plains_normalize hlaws _) fun _ => .bind ?_ fun _ =>
          .bind (keepsPlain_audit _ _ _ _) fun _ => .bind (.read _) fun _ =>
            keepsPlain_of_roster (roster_provisionOn _ _ _)
    exact .bind (.read _) fun _ => .ite (fun _ => .pure _) fun _ => keepsPlain_insertLabMember _ _

theorem keepsPlain_applyRosterImport (labId : Nat) (text : String) (actor : Option String) :
    Respects (KeepsPlain h) (applyRosterImport labId text actor) := by
  refine keepsPlain_read fun s hs => ?_
  dsimp only [id]
  rw [hs.host]
  refine .ite (fun hok => ?_) fun _ => respects_failWith _
  exact .bind (.atomically (keepsPlain_commitRosterPlan (planRosterImport_plain hlaws hok)))
    fun _ => .bind (.read _) fun _ => .bind (keepsPlain_audit _ _ _ _) fun _ =>
      keepsPlain_of_roster (respects_provisionImported _ _ _)

/-- A suspended call that continues. -/
theorem keepsPlain_resume (answer : Answer) (await : Await) :
    Respects (KeepsPlain h) (await.resume answer) := by
  have logged : ∀ source msg node lab user e,
      Respects SameRoster (logMailFailure source msg node lab user e) := by
    intro source msg node lab user e
    refine .bind (.read _) fun _ => ?_
    split
    · exact memberWalk_roster.lists _ _ fun _ => ⟨rfl, rfl⟩
    · exact .pure _
  have completed : ∀ placementId v, Respects SameRoster
      (updatePlacement placementId fun r => { r with completionEmailSentAt := v }) :=
    fun _ _ _ => ⟨rfl, rfl, rfl⟩
  cases await with
  | provisionRoster placement rest actor =>
      exact keepsPlain_of_roster (roster_provisionRoster _ _ _)
  | provisionOn rest student actor => exact keepsPlain_of_roster (roster_provisionOn _ _ _)
  | copyRest toLabId rest actor => exact keepsPlain_copyEach hlaws _ _ _
  | importRest labId placements student rest actor =>
      exact keepsPlain_of_roster (importing_resume
        (show Await.Importing (.importRest _ _ _ _ _) from trivial) _).2
  | credentialSent memberId password node lab username =>
      cases answer with
      | sent =>
          exact keepsPlain_of_roster (.bind (memberWalk_roster.emit _) fun _ =>
            .bind (memberWalk_roster.clearCredential _) fun _ => .pure _)
      | notSent => exact .pure _
      | threw e => exact keepsPlain_of_roster (.bind (logged _ _ _ _ _ _) fun _ => .pure _)
  | completionSent placementId node lab =>
      cases answer with
      | sent =>
          exact keepsPlain_of_roster (.bind (.read _) fun _ =>
            .bind (completed _ _) fun _ => .pure _)
      | notSent => exact keepsPlain_of_roster (.bind (completed _ _) fun _ => .pure _)
      | threw e => exact keepsPlain_of_roster (.bind (logged _ _ _ _ _ _) fun _ => .pure _)

end

/-! ## Every run -/

/-- The calls that write addresses, those that continue them, and those that set up the placements
on which students are provisioned. -/
def Act.Gathers : Act → Prop
  | .createLab .. | .updateLabMeta .. | .ensurePiAccess .. | .addStudentToLab .. => True
  | .copyMembers .. | .applyRosterImport .. | .resume .. => True
  | .provisionNode .. | .createPlacement .. | .tick .. => True
  | _ => False

/-- The calls that store the address of a PI as it is given are given no capital letters. -/
def Act.PlainPi (h : Host) : Act → Prop
  | .createLab _ _ piEmail _ => h.Plains piEmail
  | .updateLabMeta _ _ piEmail _ => h.Plains (piEmail.bind id)
  | _ => True

theorem roster_createPlacement (input : CreatePlacementInput) (actor : Option String) :
    Respects SameRoster (createPlacement input actor) := by
  refine respects_createPlacement (fun _ _ _ _ _ => memberWalk_roster.enqueueTask _ _ _ _)
    (fun _ _ _ _ => memberWalk_roster.audit _ _ _ _) (fun _ _ mk hmk _ => ?_)
    (fun _ _ _ => memberWalk_roster.provisionMember _ _ _) input actor
  refine .bind (.read _) fun _ => ?_
  split
  · intro s
    rcases Slot.insert_cases Slot.labPlacements mk hmk s with heq | ⟨T, heq, -, -⟩ <;> rw [heq]
    · exact refl_of SameRoster s
    · exact ⟨rfl, rfl, rfl⟩
  · exact .throw _

theorem roster_provisionNode (name : String) (actor : Option String) :
    Respects SameRoster (provisionNode name actor) := by
  refine .ite (fun _ => .bind (memberWalk_roster.draw _) fun _ => .bind (.read _) fun s => ?_)
    fun _ => respects_failWith _
  dsimp only
  split
  · exact .bind (fun _ => ⟨rfl, rfl, rfl⟩) fun _ =>
      .bind (memberWalk_roster.audit _ _ _ _) fun _ => .pure _
  · refine .bind (.exchange fun s a s' hs => ?_) fun _ =>
      .bind (memberWalk_roster.audit _ _ _ _) fun _ => .pure _
    split at hs
    · cases hs
      exact ⟨rfl, rfl, rfl⟩
    · cases hs

theorem keepsPlain_suspend (waiting : Thread) : Respects (KeepsPlain h) (suspend waiting) :=
  .ite (fun _ => .pure _) fun _ => keepsPlain_of_roster (memberWalk_roster.spawn _)

theorem keepsPlain_start {x : Op Thread} (hx : Respects (KeepsPlain h) x) :
    Respects (KeepsPlain h) (start x) :=
  .bind hx fun _ => keepsPlain_suspend _

/-- **Step lemma.** No act brings capital letters in, unless it is given the address of a PI with
them. -/
theorem plain_step (hlaws : h.TextLaws) {a : Act} (ha : a.Gathers) (hpi : a.PlainPi h)
    {s : Controller} (hs : s.Plain h) : (step s a).Plain h := by
  suffices hrun : Respects (KeepsPlain h) a.run from hrun s hs
  cases a with
  | createLab name piName piEmail actor =>
      refine .bind (.ite (fun _ => respects_failWith _) fun _ => .bind (.read _) fun lab => ?_)
        fun _ => .pure _
      split
      · exact respects_failWith _
      · exact .bind (.read _) fun _ => .bind (keepsPlain_insertLab fun _ => hpi) fun _ =>
          .bind (keepsPlain_audit _ _ _ _) fun _ => .pure _
  | updateLabMeta labId piName piEmail actor =>
      refine .bind (.read _) fun lab => ?_
      split
      · exact respects_failWith _
      · refine .bind (.read _) fun _ => .bind (keepsPlain_updateLab fun l hl => ?_) fun _ =>
          keepsPlain_audit _ _ _ _
        cases piEmail with
        | none => exact hl
        | some given => exact plains_orNull hpi
  | ensurePiAccess labId student actor =>
      exact keepsPlain_start (keepsPlain_ensurePiAccess hlaws _ _ _)
  | addStudentToLab labId student actor =>
      exact keepsPlain_start (keepsPlain_addStudentToLab hlaws _ _ _)
  | copyMembers fromLabId toLabId actor =>
      exact keepsPlain_start (.bind (.read _) fun _ => keepsPlain_copyEach hlaws _ _ _)
  | applyRosterImport labId text actor =>
      exact keepsPlain_start (keepsPlain_applyRosterImport hlaws _ _ _)
  | resume i answer =>
      refine .bind (.read _) fun thread => ?_
      split
      · exact .pure _
      · exact .pure _
      · exact .bind (keepsPlain_of_roster (memberWalk_roster.takeThread _)) fun _ =>
          .bind (keepsPlain_resume hlaws _ _) fun _ => keepsPlain_suspend _
  | provisionNode name actor =>
      exact .bind (keepsPlain_of_roster (roster_provisionNode _ _)) fun _ => .pure _
  | createPlacement input actor =>
      exact keepsPlain_start (keepsPlain_of_roster (roster_createPlacement _ _))
  | tick ms => exact keepsPlain_of_roster fun _ => ⟨rfl, rfl, rfl⟩
  | _ => exact ha.elim

/-- **Run lemma.** -/
theorem plain_run (hlaws : h.TextLaws) {acts : List Act}
    (hacts : ∀ a ∈ acts, a.Gathers ∧ a.PlainPi h) {s : Controller} (hs : s.Plain h) :
    (Run.run step s acts).Plain h := by
  induction acts generalizing s with
  | nil => exact hs
  | cons a acts ih =>
      obtain ⟨ha, hpi⟩ := hacts a List.mem_cons_self
      exact ih (fun b hb => hacts b (List.mem_cons_of_mem _ hb)) (plain_step hlaws ha hpi hs)

/-- **Announcements reach everyone once.** In every state that a run reaches from empty databases,
where the calls that store the address of a PI as it is given are given no capital letters: a send
to any audiences and any known people, through a mailer that is configured, mails no two addresses
that are the same but for blanks and capitals, and everyone it is meant for. -/
theorem announcement_reaches_once (host : Host) (hlaws : host.TextLaws) (acts : List Act)
    (hacts : ∀ a ∈ acts, a.Gathers ∧ a.PlainPi host) (env : SendEnv) (henv : env.host = host)
    (hsmtp : env.smtpConfigured = true) (input : AnnouncementInput) (hready : input.Ready host) :
    let d := (Run.run step (.init host) acts).db
    (∀ e ∈ input.individuals, ∃ p ∈ listAnnouncementPeople env d, p.email = e) →
      ∃ out, sendAnnouncement env d input = .ok out ∧ ReachesOnce host d input out.mails := by
  intro d hknown
  have hinit : (Controller.init host).Plain host :=
    ⟨rfl, fun _ hr => absurd hr List.not_mem_nil, fun _ hl => absurd hl List.not_mem_nil⟩
  subst henv
  exact reachesOnce_of_plain hlaws (plain_run hlaws hacts hinit).addresses hsmtp hready hknown

/-! ## Runs on fixed inputs -/

/-- A platform that strips spaces and knows the letters of ASCII. -/
def Host.ascii : Host :=
  { Host.plain with
    trim := sqlTrim
    toLowerCase := fun s => String.ofList (s.toList.map Char.toLower) }

theorem rdropWhile_dropWhile (p : Char → Bool) (l : List Char) :
    ((l.dropWhile p).rdropWhile p).dropWhile p = (l.dropWhile p).rdropWhile p := by
  refine List.dropWhile_eq_self_iff.mpr fun hpos => ?_
  have hshort := List.rdropWhile_prefix p (l.dropWhile p)
  rw [hshort.getElem hpos]
  exact List.dropWhile_eq_self_iff.mp (List.dropWhile_idempotent p l) _

theorem sqlTrim_eq (s : String) :
    sqlTrim s = String.ofList ((s.toList.dropWhile (· == ' ')).rdropWhile (· == ' ')) := rfl

theorem toLower_space (c : Char) : (c.toLower == ' ') = (c == ' ') := by
  by_cases h : c.isUpper
  · -- the lower case of a letter is one, and a space is none
    have hlower : c.toLower.isLower = true := by
      rw [Char.isLower_toLower_eq_isAlpha, Char.isAlpha, h]
      rfl
    have hc : c ≠ ' ' := by
      rintro rfl
      cases h
    have hc' : c.toLower ≠ ' ' := by
      intro heq
      rw [heq] at hlower
      cases hlower
    rw [beq_eq_false_iff_ne.mpr hc, beq_eq_false_iff_ne.mpr hc']
  · rw [Char.toLower_eq_of_not_isUpper h]

theorem dropWhile_toLower (l : List Char) :
    (l.map Char.toLower).dropWhile (· == ' ') = (l.dropWhile (· == ' ')).map Char.toLower := by
  rw [List.dropWhile_map]
  exact congrArg (fun p => (l.dropWhile p).map Char.toLower) (funext toLower_space)

theorem ascii_laws : Host.ascii.TextLaws where
  trim_trim s := by
    show sqlTrim (sqlTrim s) = sqlTrim s
    rw [sqlTrim_eq, sqlTrim_eq, String.toList_ofList, rdropWhile_dropWhile,
      List.rdropWhile_idempotent]
  lower_lower s := by
    show String.ofList ((String.ofList _).toList.map _) = String.ofList _
    rw [String.toList_ofList, List.map_map]
    exact congrArg _ (List.map_congr_left fun c _ => Char.toLower_toLower_eq_toLower c)
  trim_lower s := by
    show sqlTrim (String.ofList ((sqlTrim s).toList.map Char.toLower)) =
      String.ofList ((sqlTrim s).toList.map Char.toLower)
    have hlast : ∀ l : List Char, (l.map Char.toLower).rdropWhile (· == ' ') =
        (l.rdropWhile (· == ' ')).map Char.toLower := by
      intro l
      unfold List.rdropWhile
      rw [← List.map_reverse, dropWhile_toLower, List.map_reverse]
    rw [sqlTrim_eq, sqlTrim_eq, String.toList_ofList, String.toList_ofList, dropWhile_toLower,
      rdropWhile_dropWhile, hlast, List.rdropWhile_idempotent]
  lower_blank s := by
    show String.ofList (s.toList.map Char.toLower) = "" ↔ s = ""
    rw [String.ofList_eq_empty_iff, List.map_eq_nil_iff, String.toList_eq_nil_iff]
  trim_spaces _ hs := hs

def asciiEnv : SendEnv where
  host := .ascii
  now := 0
  localeLe := fun a b => decide (a ≤ b)
  smtpConfigured := true
  sent := fun _ _ _ => true

/-- To everybody. -/
def hello : AnnouncementInput where
  subject := "Hello"
  body := "The nodes are back."
  audiences := [.students, .pis]

/-- A lab whose PI is on its roster, too. -/
def piAndStudent (piEmail : String) : List Act :=
  [.createLab "vision" (some "Ann") (some piEmail) none,
    .addStudentToLab 1 { username := "ann", email := some "Ann@x.edu" } none]

/-- The address of the PI is stored with its capital letter, and the student's without. -/
theorem announcement_mails_twice :
    let d := (Run.run step (.init .ascii) (piAndStudent "Ann@x.edu")).db
    (sendAnnouncement asciiEnv d hello).toOption.map
        (fun out => out.mails.map AnnouncementMail.recipient) =
      some ["ann@x.edu", "Ann@x.edu"] ∧
    normalizeEmail .ascii (some "ann@x.edu") = normalizeEmail .ascii (some "Ann@x.edu") := by
  decide +kernel

theorem announcement_reaches_ann :
    let d := (Run.run step (.init .ascii) (piAndStudent "ann@x.edu")).db
    let input := { hello with individuals := ["ann@x.edu"] }
    ∃ out, sendAnnouncement asciiEnv d input = .ok out ∧ ReachesOnce .ascii d input out.mails := by
  refine announcement_reaches_once .ascii ascii_laws _ (fun a ha => ?_) asciiEnv rfl rfl _
    ⟨by decide, by decide, by decide +kernel, .inl (by decide)⟩ fun e he => ?_
  · rcases List.mem_cons.mp ha with rfl | ha
    · refine ⟨trivial, fun e he => ?_⟩
      cases he
      show Host.ascii.toLowerCase (Host.ascii.trim _) = Host.ascii.trim _
      decide +kernel
    · rw [List.mem_singleton.mp ha]
      exact ⟨trivial, trivial⟩
  · rw [List.mem_singleton.mp he]
    have hmem : "ann@x.edu" ∈ (listAnnouncementPeople asciiEnv
        (Run.run step (.init .ascii) (piAndStudent "ann@x.edu")).db).map fun p => p.email :=
      mem_announcementPeople.mpr (by decide +kernel)
    exact List.mem_map.mp hmem

end MassDeployment

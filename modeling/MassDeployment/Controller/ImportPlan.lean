import MassDeployment.Controller.RosterImport

set_option autoImplicit false

/-! # What a committable plan says

A plan that is `ok` has found no conflict, neither within the file nor with the database.
This file reads off what follows for each student of the file. The rows of the file, and
the students they are merged into, do not depend on the database.
-/

namespace MassDeployment

open Js

/-! ## The students of a file -/

theorem lookup_eq_none {batch : Batch} {user : String} :
    batch.lookup user = none ↔ user ∉ batch.map Prod.fst := by
  rw [List.lookup_eq_none_iff]
  constructor
  · intro h hmem
    obtain ⟨e, he, rfl⟩ := List.mem_map.mp hmem
    simpa using h e he
  · intro h e he
    have hne : user ≠ e.1 := fun heq => h (heq ▸ List.mem_map_of_mem he)
    simpa using hne

/-- One more row adds its user to the students, if it is new. -/
theorem map_fst_addToBatch (acc : Batch × List ImportIssue) (r : ValidRow) :
    (addToBatch acc r).1.map Prod.fst =
      if r.user ∈ acc.1.map Prod.fst then acc.1.map Prod.fst
      else acc.1.map Prod.fst ++ [r.user] := by
  unfold addToBatch
  cases h : acc.1.lookup r.user with
  | none =>
      rw [if_neg (lookup_eq_none.mp h)]
      simp
  | some prev =>
      have hmem : r.user ∈ acc.1.map Prod.fst := by
        by_contra hnot
        rw [lookup_eq_none.mpr hnot] at h
        cases h
      rw [if_pos hmem]
      simp only [List.map_map]
      refine List.map_congr_left fun e _ => ?_
      simp only [Function.comp]
      split <;> rfl

theorem mem_of_lookup {batch : Batch} {user : String} {info : BatchStudent}
    (h : batch.lookup user = some info) : (user, info) ∈ batch := by
  obtain ⟨before, after, rfl, _⟩ := List.lookup_eq_some_iff.mp h
  simp

/-- Students that are merged from rows: one entry for each username, and each satisfies `P`. -/
structure Batch.Sound (P : String → BatchStudent → Prop) (batch : Batch) : Prop where
  nodup : (batch.map Prod.fst).Nodup
  entry : ∀ e ∈ batch, P e.1 e.2

theorem Batch.Sound.add {P : String → BatchStudent → Prop} {acc : Batch × List ImportIssue}
    {r : ValidRow} (h : Batch.Sound P acc.1)
    (hnew : P r.user { sid := r.sid, name := r.sname, email := r.semail, line := r.line })
    (hmerge : ∀ prev, P r.user prev → P r.user (prev.merge r)) :
    Batch.Sound P (addToBatch acc r).1 := by
  constructor
  · rw [map_fst_addToBatch]
    split
    · exact h.nodup
    · rename_i hnot
      refine List.nodup_append.mpr ⟨h.nodup, List.pairwise_singleton _ _, ?_⟩
      intro a ha b hb
      rw [List.mem_singleton.mp hb]
      exact fun heq => hnot (heq ▸ ha)
  · unfold addToBatch
    cases hprev : acc.1.lookup r.user with
    | none =>
        intro e he
        rcases List.mem_append.mp he with he | he
        · exact h.entry e he
        · rw [List.mem_singleton.mp he]
          exact hnew
    | some prev =>
        intro e he
        obtain ⟨e₀, he₀, rfl⟩ := List.mem_map.mp he
        split
        · rename_i huser
          rw [huser]
          exact hmerge prev (h.entry _ (mem_of_lookup hprev))
        · exact h.entry e₀ he₀

/-- The students of a file are sound, if every row is. -/
theorem batchOf_sound {P : String → BatchStudent → Prop} {valid : List ValidRow}
    (hnew : ∀ r ∈ valid,
      P r.user { sid := r.sid, name := r.sname, email := r.semail, line := r.line })
    (hmerge : ∀ r ∈ valid, ∀ prev, P r.user prev → P r.user (prev.merge r)) :
    Batch.Sound P (batchOf valid).1 := by
  have hfold : ∀ acc : Batch × List ImportIssue, Batch.Sound P acc.1 →
      Batch.Sound P (valid.foldl addToBatch acc).1 := by
    induction valid with
    | nil => exact fun _ h => h
    | cons r rest ih =>
        intro acc h
        refine ih (fun x hx => hnew x (List.mem_cons_of_mem _ hx))
          (fun x hx => hmerge x (List.mem_cons_of_mem _ hx)) _ ?_
        exact h.add (hnew r List.mem_cons_self) (hmerge r List.mem_cons_self)
  exact hfold _ ⟨List.nodup_nil, fun _ he => absurd he List.not_mem_nil⟩

/-- Every row has its user among the students. -/
theorem mem_batchOf {valid : List ValidRow} {r : ValidRow} (hr : r ∈ valid) :
    r.user ∈ (batchOf valid).1.map Prod.fst := by
  have hgrow : ∀ (rows : List ValidRow) (acc : Batch × List ImportIssue) (user : String),
      user ∈ acc.1.map Prod.fst → user ∈ (rows.foldl addToBatch acc).1.map Prod.fst := by
    intro rows
    induction rows with
    | nil => exact fun _ _ h => h
    | cons x rest ih =>
        intro acc user h
        refine ih _ _ ?_
        rw [map_fst_addToBatch]
        split
        · exact h
        · exact List.mem_append_left _ h
  obtain ⟨before, after, rfl⟩ := List.append_of_mem hr
  unfold batchOf
  rw [List.foldl_append, List.foldl_cons]
  refine hgrow _ _ _ ?_
  rw [map_fst_addToBatch]
  split
  · assumption
  · exact List.mem_append_right _ (List.mem_singleton_self _)

/-! ## Blank cells -/

/-- A value of the file is no blank one. -/
def Filled (value : Option String) : Prop := ∀ v, value = some v → v ≠ ""

theorem filled_nonEmpty (text : String) : Filled (nonEmpty text) := by
  intro v hv
  unfold nonEmpty at hv
  split at hv
  · cases hv
  · cases hv
    assumption

theorem Filled.changed {value : Option String} (h : Filled value) (stored : Option String) :
    Filled (changed value stored) :=
  fun v hv => h v (Option.filter_eq_some_iff.mp hv).1

theorem Filled.orElse {a b : Option String} (ha : Filled a) (hb : Filled b) :
    Filled (a.orElse fun _ => b) := by
  cases a with
  | none => exact hb
  | some _ => exact ha

/-- What the checks of the fields promise of a row. -/
structure ValidRow.Checked (r : ValidRow) : Prop where
  user : isUsername r.user = true
  sid : Filled r.sid
  sname : Filled r.sname
  semail : Filled r.semail

theorem validRow_checked {h : Host} {line : Nat} {c : CsvRecord} {r : ValidRow}
    (hr : validRow h line c = .ok r) : r.Checked := by
  unfold validRow at hr
  dsimp only at hr
  repeat' split at hr
  all_goals try cases hr
  · rename_i huser _ _ hemail _ _
    exact ⟨by simpa using huser, filled_nonEmpty _, filled_nonEmpty _,
      hemail ▸ filled_nonEmpty _⟩
  · rename_i huser _ _
    exact ⟨by simpa using huser, filled_nonEmpty _, filled_nonEmpty _, filled_nonEmpty _⟩

theorem validRows_checked {h : Host} {rows : List CsvRecord} {r : ValidRow}
    (hr : r ∈ validRows (checkRows h rows)) : r.Checked := by
  obtain ⟨c, hc, hok⟩ := List.mem_filterMap.mp hr
  obtain ⟨⟨row, i⟩, _, rfl⟩ := List.mem_map.mp hc
  dsimp only at hok
  cases hv : validRow h (i + 2) row with
  | error _ =>
      rw [hv] at hok
      cases hok
  | ok r' =>
      rw [hv] at hok
      cases hok
      exact validRow_checked hv

/-- What is known of a student of the file. -/
structure BatchStudent.Checked (user : String) (info : BatchStudent) : Prop where
  user : isUsername user = true
  sid : Filled info.sid
  name : Filled info.name
  email : Filled info.email

theorem batchOf_checked {valid : List ValidRow} (h : ∀ r ∈ valid, r.Checked) :
    Batch.Sound BatchStudent.Checked (batchOf valid).1 := by
  refine batchOf_sound (fun r hr => ?_) fun r hr prev hprev => ?_
  · exact ⟨(h r hr).user, (h r hr).sid, (h r hr).sname, (h r hr).semail⟩
  · exact ⟨hprev.user, hprev.sid.orElse (h r hr).sid, hprev.name.orElse (h r hr).sname,
      hprev.email.orElse (h r hr).semail⟩

/-! ## The PI of a file -/

theorem agree_fst (what : String) (line : Nat) (sofar value : Option String) :
    (agree what line sofar value).1 = sofar ∨ (agree what line sofar value).1 = value := by
  unfold agree
  split
  · exact .inl rfl
  · split
    · exact .inl rfl
    · exact .inr rfl
  · exact .inr rfl

/-- The PI's fields come from the rows. -/
structure PiRows.From (valid : List ValidRow) (pi : PiRows) : Prop where
  username : ∀ u, pi.username = some u → ∃ r ∈ valid, r.user = u
  name : (∀ r ∈ valid, r.Checked) → Filled pi.name
  email : (∀ r ∈ valid, r.Checked) → Filled pi.email

theorem piRows_from (valid : List ValidRow) : (piRows valid).From valid := by
  have hfold : ∀ (rows : List ValidRow) (acc : PiRows), (∀ r ∈ rows, r ∈ valid) →
      acc.From valid → (rows.foldl PiRows.add acc).From valid := by
    intro rows
    induction rows with
    | nil => exact fun _ _ h => h
    | cons r rest ih =>
        intro acc hrows h
        refine ih _ (fun x hx => hrows x (List.mem_cons_of_mem _ hx)) ?_
        have hr : r ∈ valid := hrows r List.mem_cons_self
        unfold PiRows.add
        split
        · exact h
        · refine ⟨fun u hu => ?_, fun hc => ?_, fun hc => ?_⟩
          · rcases agree_fst "username" r.line acc.username (some r.user) with he | he
            · exact h.username u (he.symm.trans hu)
            · cases he.symm.trans hu
              exact ⟨r, hr, rfl⟩
          · rcases agree_fst "name" r.line acc.name r.sname with he | he
            · exact fun v hv => h.name hc v (he.symm.trans hv)
            · exact fun v hv => (hc r hr).sname v (he.symm.trans hv)
          · rcases agree_fst "email" r.line acc.email r.semail with he | he
            · exact fun v hv => h.email hc v (he.symm.trans hv)
            · exact fun v hv => (hc r hr).semail v (he.symm.trans hv)
  exact hfold valid {} (fun _ h => h) ⟨nofun, fun _ => nofun, fun _ => nofun⟩

/-! ## Student ids -/

/-- Without an issue, two students of the file share no student id. -/
theorem sharedSids_nil {seen : List (String × String)} {batch : Batch}
    (h : sharedSids seen batch = []) :
    (batch.Pairwise fun e e' => e.2.sid = e'.2.sid → e.2.sid ≠ none → e'.1 = e.1) ∧
      ∀ e ∈ batch, ∀ sid other, e.2.sid = some sid → seen.lookup sid = some other →
        e.1 = other := by
  induction batch generalizing seen with
  | nil => exact ⟨.nil, fun _ he => absurd he List.not_mem_nil⟩
  | cons e rest ih =>
      obtain ⟨user, info⟩ := e
      unfold sharedSids at h
      cases hsid : info.sid with
      | none =>
          rw [hsid] at h
          obtain ⟨hpair, hseen⟩ := ih h
          refine ⟨.cons (fun e' _ _ hne => absurd hsid hne) hpair, fun e' he' sid other hs ho => ?_⟩
          rcases List.mem_cons.mp he' with rfl | he'
          · cases hsid.symm.trans hs
          · exact hseen e' he' sid other hs ho
      | some sid =>
          rw [hsid] at h
          dsimp only at h
          cases hother : seen.lookup sid with
          | none =>
              rw [hother] at h
              obtain ⟨hpair, hseen⟩ := ih h
              refine ⟨.cons (fun e' he' heq _ => ?_) hpair, fun e' he' sid' other hs ho => ?_⟩
              · exact hseen e' he' sid user (heq.symm.trans hsid) (by simp)
              · rcases List.mem_cons.mp he' with rfl | he'
                · cases hsid.symm.trans hs
                  cases hother.symm.trans ho
                · refine hseen e' he' sid' other hs ?_
                  rw [List.lookup_cons]
                  split
                  · rename_i heq
                    rw [beq_iff_eq.mp heq, hother] at ho
                    cases ho
                  · exact ho
          | some other =>
              rw [hother] at h
              dsimp only at h
              split at h
              · cases h
              · rename_i hsame
                have hou : other = user := Decidable.not_not.mp hsame
                obtain ⟨hpair, hseen⟩ := ih h
                refine ⟨.cons (fun e' he' heq _ => ?_) hpair, fun e' he' sid' other' hs ho => ?_⟩
                · exact (hseen e' he' sid other (heq.symm.trans hsid) hother).trans hou
                · rcases List.mem_cons.mp he' with rfl | he'
                  · cases hsid.symm.trans hs
                    exact hou.symm.trans (Option.some.inj (hother.symm.trans ho))
                  · exact hseen e' he' sid' other' hs ho

/-! ## Resolving a student -/

theorem Db.studentByName_eq_some {d : Db} {user : String} {r : StudentRow} :
    d.studentByName user = some r ↔ r ∈ d.students.rows ∧ r.username = user := by
  constructor
  · intro h
    obtain ⟨hmem, hname⟩ := Table.find_some h
    exact ⟨hmem, beq_iff_eq.mp hname⟩
  · rintro ⟨hmem, rfl⟩
    refine Table.find_of_unique hmem (beq_self_eq_true _) fun r' hr' hname => ?_
    exact d.students.eq_of_clash hr' hmem (.inl (beq_iff_eq.mp hname))

theorem Db.studentByName_eq_none {d : Db} {user : String} :
    d.studentByName user = none ↔ ∀ r ∈ d.students.rows, r.username ≠ user := by
  unfold studentByName
  rw [Table.find_eq_none]
  simp

theorem Db.studentBySid_eq_some {d : Db} {sid : String} (hsid : sid ≠ "") {r : StudentRow} :
    d.studentBySid (some sid) = some r ↔ r ∈ d.students.rows ∧ r.studentId = some sid := by
  unfold studentBySid
  dsimp only
  rw [if_neg hsid]
  constructor
  · intro h
    obtain ⟨hmem, hname⟩ := Table.find_some h
    exact ⟨hmem, beq_iff_eq.mp hname⟩
  · rintro ⟨hmem, hs⟩
    refine Table.find_of_unique hmem (beq_iff_eq.mpr hs) fun r' hr' hs' => ?_
    exact d.students.eq_of_clash hr' hmem
      (.inr (.inr ⟨(beq_iff_eq.mp hs').trans hs.symm, by rw [beq_iff_eq.mp hs']; nofun⟩))

/-- What an import does about a student of the file that is stored as `r`. -/
def BatchStudent.compare (user : String) (info : BatchStudent) (r : StudentRow) : Resolution :=
  let name := changed info.name r.name
  let email := changed info.email r.email
  let studentId := if r.studentId.any (· ≠ "") then none else info.sid
  if name.isSome ∨ email.isSome ∨ studentId.isSome then
    .update { username := user, name, email, studentId }
  else .unchanged

/-- The student id an import stores with a student that has none. -/
def BatchStudent.missingSid (info : BatchStudent) (r : StudentRow) : Option String :=
  if r.studentId.any (· ≠ "") then none else info.sid

/-- Either some field changes, and the update has the changes, or none does. -/
theorem BatchStudent.compare_cases (user : String) (info : BatchStudent) (r : StudentRow) :
    info.compare user r = .update { username := user, name := changed info.name r.name
                                    email := changed info.email r.email
                                    studentId := info.missingSid r } ∨
      (info.compare user r = .unchanged ∧ changed info.name r.name = none ∧
        changed info.email r.email = none ∧ info.missingSid r = none) := by
  unfold compare missingSid
  dsimp only
  generalize changed info.name r.name = name
  generalize changed info.email r.email = email
  generalize (if r.studentId.any (· ≠ "") then none else info.sid) = sid
  split
  · exact .inl rfl
  · rename_i hnone
    simp only [not_or, Option.not_isSome_iff_eq_none] at hnone
    exact .inr ⟨rfl, hnone⟩

theorem BatchStudent.compare_unchanged {user : String} {info : BatchStudent} {r : StudentRow}
    (hname : changed info.name r.name = none) (hemail : changed info.email r.email = none)
    (hsid : info.missingSid r = none) : info.compare user r = .unchanged := by
  show (if (changed info.name r.name).isSome ∨ (changed info.email r.email).isSome ∨
    (info.missingSid r).isSome then _ else _) = _
  rw [hname, hemail, hsid]
  rfl

/-- What a student of the file is to the database, where there is no conflict: unknown by both
keys, or the student of that name, with no other student id. -/
inductive Resolved (d : Db) (user : String) (info : BatchStudent) : Resolution → Prop
  | create (hname : ∀ r ∈ d.students.rows, r.username ≠ user)
      (hsid : ∀ sid, info.sid = some sid → ∀ r ∈ d.students.rows, r.studentId ≠ some sid) :
      Resolved d user info
        (.create { username := user, studentId := info.sid, name := info.name, email := info.email })
  | existing (r : StudentRow) (hmem : r ∈ d.students.rows) (hname : r.username = user)
      (hsid : ∀ sid, info.sid = some sid → ∀ r' ∈ d.students.rows, r'.studentId = some sid → r' = r)
      (hsame : ∀ sid, info.sid = some sid → r.studentId.any (· ≠ "") = true →
        r.studentId = some sid) :
      Resolved d user info (info.compare user r)

theorem filter_truthy {o : Option String} :
    (o.filter (· ≠ "")).isSome = o.any (· ≠ "") := by
  cases o with
  | none => rfl
  | some v => by_cases h : v = "" <;> simp [h]

/-- The row that is found by the student id, if any, is the one that is found by name. -/
theorem resolve_resolved {d : Db} {user : String} {info : BatchStudent} (hfilled : Filled info.sid)
    (h : (resolve d user info).issue = none) : Resolved d user info (resolve d user info) := by
  unfold resolve at h ⊢
  dsimp only at h ⊢
  split at h
  · cases h
  · rename_i hid
    rw [if_neg hid]
    split at h
    · cases h
    · rename_i hname
      rw [if_neg hname]
      have hby : ∀ sid, info.sid = some sid → ∀ r ∈ d.students.rows, r.studentId = some sid →
          r.username = user := by
        intro sid hsid r hr hrs
        by_contra hne
        refine hid ?_
        rw [hsid, (Db.studentBySid_eq_some (hfilled sid hsid)).mpr ⟨hr, hrs⟩]
        simpa using hne
      cases hb : d.studentByName user with
      | none =>
          have hnone : ∀ r ∈ d.students.rows, r.username ≠ user := Db.studentByName_eq_none.mp hb
          have hsid : d.studentBySid info.sid = none := by
            cases hs : info.sid with
            | none => rfl
            | some sid =>
                cases hbs : d.studentBySid (some sid) with
                | none => rfl
                | some r =>
                    obtain ⟨hr, hrs⟩ := (Db.studentBySid_eq_some (hfilled sid hs)).mp hbs
                    exact absurd (hby sid hs r hr hrs) (hnone r hr)
          rw [hsid]
          exact .create hnone fun sid hs r hr hrs => hnone r hr (hby sid hs r hr hrs)
      | some r =>
          obtain ⟨hr, hru⟩ := Db.studentByName_eq_some.mp hb
          have hunique : ∀ sid, info.sid = some sid → ∀ r' ∈ d.students.rows,
              r'.studentId = some sid → r' = r := fun sid hs r' hr' hrs =>
            d.students.eq_of_clash hr' hr (.inl ((hby sid hs r' hr' hrs).trans hru.symm))
          have hexisting : ((d.studentBySid info.sid).orElse fun _ => some r) = some r := by
            cases hs : info.sid with
            | none => rfl
            | some sid =>
                cases hbs : d.studentBySid (some sid) with
                | none => rfl
                | some r' =>
                    obtain ⟨hr', hrs⟩ := (Db.studentBySid_eq_some (hfilled sid hs)).mp hbs
                    rw [hunique sid hs r' hr' hrs]
                    rfl
          rw [hexisting]
          refine .existing r hr hru hunique fun sid hs htruthy => ?_
          by_contra hne
          rw [hb, hs] at hname
          refine hname ⟨?_, rfl, ?_⟩
          · exact filter_truthy.trans htruthy
          · cases hrs : r.studentId with
            | none =>
                rw [hrs] at htruthy
                cases htruthy
            | some v =>
                rw [hrs] at htruthy hne
                have hv : v ≠ "" := by simpa using htruthy
                show ¬ Option.filter (fun t => t ≠ "") r.studentId = some sid
                rw [hrs, show Option.filter (fun t => t ≠ "") (some v) = some v by simp [hv]]
                exact hne

theorem resolved_resolve {d : Db} {user : String} {info : BatchStudent} (hfilled : Filled info.sid)
    {x : Resolution} (h : Resolved d user info x) : resolve d user info = x := by
  unfold resolve
  cases h with
  | create hname hsid =>
      have hb : d.studentByName user = none := Db.studentByName_eq_none.mpr hname
      have hs : d.studentBySid info.sid = none := by
        cases hs : info.sid with
        | none => rfl
        | some sid =>
            cases hbs : d.studentBySid (some sid) with
            | none => rfl
            | some r =>
                obtain ⟨hr, hrs⟩ := (Db.studentBySid_eq_some (hfilled sid hs)).mp hbs
                exact absurd hrs (hsid sid hs r hr)
      rw [hb, hs]
      rfl
  | existing r hmem hname hsid hsame =>
      have hb : d.studentByName user = some r := Db.studentByName_eq_some.mpr ⟨hmem, hname⟩
      have hs : d.studentBySid info.sid = none ∨ d.studentBySid info.sid = some r := by
        cases hs : info.sid with
        | none => exact .inl rfl
        | some sid =>
            cases hbs : d.studentBySid (some sid) with
            | none => exact .inl rfl
            | some r' =>
                obtain ⟨hr', hrs⟩ := (Db.studentBySid_eq_some (hfilled sid hs)).mp hbs
                exact .inr (by rw [hsid sid hs r' hr' hrs])
      have hid : ¬ (d.studentBySid info.sid).any (fun r => r.username ≠ user) = true := by
        rcases hs with hs | hs <;> rw [hs]
        · nofun
        · simpa using hname
      have hstored : ¬ ((r.studentId.filter (· ≠ "")).isSome = true ∧ info.sid.isSome = true ∧
          r.studentId.filter (· ≠ "") ≠ info.sid) := by
        rintro ⟨htruthy, hsome, hne⟩
        obtain ⟨sid, hs⟩ := Option.isSome_iff_exists.mp hsome
        have heq : r.studentId = some sid := hsame sid hs (filter_truthy ▸ htruthy)
        refine hne ?_
        rw [heq, hs]
        simp [hfilled sid hs]
      dsimp only
      rw [if_neg hid, hb, Option.bind_some, if_neg hstored]
      rcases hs with hs | hs <;> rw [hs] <;> rfl

/-! ## The plan -/

/-- The rows of a file, which no database has a say in. -/
def fileRows (h : Host) (text : String) : List ValidRow :=
  validRows (checkRows h (parseCsv h.trim text).rows)

/-- What a plan that is `ok` has found. -/
structure Committable (d : Db) (lab : LabRow) (valid : List ValidRow) : Prop where
  pi : (piRows valid).conflicts = []
  merged : (batchOf valid).2 = []
  shared : sharedSids [] (batchOf valid).1 = []
  resolved : ∀ e ∈ (batchOf valid).1, (resolve d e.1 e.2).issue = none

theorem planRows_ok {d : Db} {lab : LabRow} {valid : List ValidRow} {invalid : List ImportIssue} :
    (planRows d lab valid invalid).ok = true ↔ Committable d lab valid ∧ invalid = [] := by
  unfold planRows
  simp only [Bool.and_eq_true, List.isEmpty_iff, List.append_eq_nil_iff, List.filterMap_eq_nil_iff,
    List.mem_map, forall_exists_index, and_imp, forall_apply_eq_imp_iff₂]
  constructor
  · rintro ⟨⟨⟨⟨hpi, hmerged⟩, hshared⟩, hresolved⟩, hinvalid⟩
    exact ⟨⟨hpi, hmerged, hshared, hresolved⟩, hinvalid⟩
  · rintro ⟨⟨hpi, hmerged, hshared, hresolved⟩, hinvalid⟩
    exact ⟨⟨⟨⟨hpi, hmerged⟩, hshared⟩, hresolved⟩, hinvalid⟩

/-- The lab of a plan that is `ok`, and what the text is read as against any other database. -/
theorem planRosterImport_ok {h : Host} {d : Db} {labId : Nat} {text : String}
    (hok : (planRosterImport h d labId text).ok = true) :
    ∃ lab, d.labs.get labId = some lab ∧
      planRosterImport h d labId text = planRows d lab (fileRows h text) [] ∧
      Committable d lab (fileRows h text) ∧
      ∀ d' lab', d'.labs.get labId = some lab' →
        planRosterImport h d' labId text = planRows d' lab' (fileRows h text) [] := by
  unfold planRosterImport at hok
  cases hlab : d.labs.get labId with
  | none =>
      rw [hlab] at hok
      cases hok
  | some lab =>
      rw [hlab] at hok
      dsimp only at hok
      repeat' split at hok
      all_goals try cases hok
      rename_i hsize hheaders husername hrows
      obtain ⟨hcommit, hinvalid⟩ := planRows_ok.mp hok
      have hplan : ∀ d' lab', d'.labs.get labId = some lab' →
          planRosterImport h d' labId text = planRows d' lab' (fileRows h text) [] := by
        intro d' lab' hlab'
        unfold planRosterImport
        rw [hlab']
        dsimp only
        rw [if_neg hsize, if_neg hheaders, if_neg husername, if_neg hrows, hinvalid]
        rfl
      exact ⟨lab, rfl, hplan d lab hlab, hcommit, hplan⟩

/-- A plan the database can take: it violates no constraint, and everyone it names is known. -/
structure RosterPlan.Fits (d : Db) (labId : Nat) (plan : RosterPlan) : Prop where
  lab : ∃ lab, d.labs.get labId = some lab
  created : (plan.studentsToCreate.map StudentCreate.username).Nodup
  createdName : ∀ c ∈ plan.studentsToCreate, ∀ r ∈ d.students.rows, r.username ≠ c.username
  createdSid : ∀ c ∈ plan.studentsToCreate, ∀ sid, c.studentId = some sid →
    ∀ r ∈ d.students.rows, r.studentId ≠ some sid
  createdSids : ∀ c ∈ plan.studentsToCreate, ∀ c' ∈ plan.studentsToCreate,
    ∀ sid, c.studentId = some sid → c'.studentId = some sid → c.username = c'.username
  updated : (plan.studentsToUpdate.map StudentUpdate.username).Nodup
  updatedName : ∀ u ∈ plan.studentsToUpdate, ∃ r ∈ d.students.rows, r.username = u.username
  updatedSid : ∀ u ∈ plan.studentsToUpdate, ∀ sid, u.studentId = some sid →
    ∀ r ∈ d.students.rows, r.studentId ≠ some sid
  updatedSids : ∀ u ∈ plan.studentsToUpdate, ∀ u' ∈ plan.studentsToUpdate,
    ∀ sid, u.studentId = some sid → u'.studentId = some sid → u.username = u'.username
  apart : ∀ u ∈ plan.studentsToUpdate, ∀ c ∈ plan.studentsToCreate,
    ∀ sid, u.studentId = some sid → c.studentId ≠ some sid
  pi : ∀ name, plan.piUpdate.bind PiUpdate.piUsername = some name →
    name ∈ plan.membershipsToAdd ∨
      ∃ r ∈ d.students.rows, r.username = name ∧ d.isMember labId r.id = true
  added : plan.membershipsToAdd.Nodup
  addedName : ∀ name ∈ plan.membershipsToAdd,
    (∃ r ∈ d.students.rows, r.username = name ∧ d.isMember labId r.id = false) ∨
      ∃ c ∈ plan.studentsToCreate, c.username = name

section

variable {d : Db} {lab : LabRow} {valid : List ValidRow} (hc : Committable d lab valid)
  (hchecked : ∀ r ∈ valid, r.Checked)

include hc hchecked

/-- What the students of the file are to the database. -/
theorem Committable.at {user : String} {info : BatchStudent}
    (he : (user, info) ∈ (batchOf valid).1) :
    Resolved d user info (resolve d user info) :=
  resolve_resolved ((batchOf_checked hchecked).entry _ he).sid (hc.resolved _ he)

omit hchecked in
theorem Committable.sids {e e' : String × BatchStudent} (he : e ∈ (batchOf valid).1)
    (he' : e' ∈ (batchOf valid).1) {sid : String} (hs : e.2.sid = some sid)
    (hs' : e'.2.sid = some sid) : e.1 = e'.1 := by
  have hpair := (sharedSids_nil hc.shared).1
  have hsym : (batchOf valid).1.Pairwise fun e e' =>
      e.2.sid = some sid → e'.2.sid = some sid → e.1 = e'.1 := by
    refine hpair.imp fun h hs hs' => (h (hs.trans hs'.symm) (by rw [hs]; nofun)).symm
  rcases List.pairwise_iff_getElem.mp hsym with hall
  obtain ⟨i, hi, rfl⟩ := List.getElem_of_mem he
  obtain ⟨j, hj, rfl⟩ := List.getElem_of_mem he'
  rcases Nat.lt_trichotomy i j with hlt | heq | hgt
  · exact hall i j hi hj hlt hs hs'
  · subst heq
    rfl
  · exact (hall j i hj hi hgt hs' hs).symm

/-- A student to create is in the file, and unknown to the database. -/
theorem Committable.mem_creates {c : StudentCreate}
    (hmem : c ∈ (planRows d lab valid []).studentsToCreate) :
    ∃ info, (c.username, info) ∈ (batchOf valid).1 ∧ c.studentId = info.sid ∧
      c.name = info.name ∧ c.email = info.email ∧
      (∀ r ∈ d.students.rows, r.username ≠ c.username) ∧
      ∀ sid, info.sid = some sid → ∀ r ∈ d.students.rows, r.studentId ≠ some sid := by
  obtain ⟨x, hx, hcreate⟩ := List.mem_filterMap.mp hmem
  obtain ⟨⟨user, info⟩, he, rfl⟩ := List.mem_map.mp hx
  have hres := hc.at hchecked he
  dsimp only at hcreate
  generalize resolve d user info = res at hres hcreate
  cases hres with
  | create hname hsid =>
      cases hcreate
      exact ⟨info, he, rfl, rfl, rfl, hname, hsid⟩
  | existing r _ _ _ _ =>
      rcases info.compare_cases user r with h | ⟨h, _⟩ <;> rw [h] at hcreate <;> cases hcreate

/-- A student to update is in the file, and stored under its name. -/
theorem Committable.mem_updates {u : StudentUpdate}
    (hmem : u ∈ (planRows d lab valid []).studentsToUpdate) :
    ∃ info, (u.username, info) ∈ (batchOf valid).1 ∧ ∃ r ∈ d.students.rows,
      r.username = u.username ∧ info.compare u.username r = .update u ∧
      ∀ sid, u.studentId = some sid → info.sid = some sid ∧
        ∀ r' ∈ d.students.rows, r'.studentId ≠ some sid := by
  obtain ⟨x, hx, hupdate⟩ := List.mem_filterMap.mp hmem
  obtain ⟨⟨user, info⟩, he, rfl⟩ := List.mem_map.mp hx
  have hres := hc.at hchecked he
  dsimp only at hupdate
  generalize resolve d user info = res at hres hupdate
  cases hres with
  | create _ _ => cases hupdate
  | existing r hr hname hsid _ =>
      rcases info.compare_cases user r with h | ⟨h, _⟩
      · rw [h] at hupdate
        cases hupdate
        refine ⟨info, he, r, hr, hname, h, fun sid hs => ?_⟩
        unfold BatchStudent.missingSid at hs
        dsimp only at hs
        split at hs
        · cases hs
        · rename_i hblank
          refine ⟨hs, fun r' hr' hrs => hblank ?_⟩
          rw [← hsid sid hs r' hr' hrs, hrs]
          simpa using ((batchOf_checked hchecked).entry _ he).sid sid hs
      · rw [h] at hupdate
        cases hupdate

omit hc hchecked in
/-- Whatever is done about a student is done under its name. -/
theorem resolve_user (d : Db) (user : String) (info : BatchStudent) :
    (∀ c, (resolve d user info).creates = some c → c.username = user) ∧
      ∀ u, (resolve d user info).updates = some u → u.username = user := by
  unfold resolve
  dsimp only
  split
  · exact ⟨nofun, nofun⟩
  · split
    · exact ⟨nofun, nofun⟩
    · split
      · refine ⟨fun c h => ?_, nofun⟩
        cases h
        rfl
      · rename_i existing _
        show (∀ c, (info.compare user existing).creates = some c → _) ∧
          ∀ u, (info.compare user existing).updates = some u → _
        rcases info.compare_cases user existing with h | ⟨h, _⟩ <;> rw [h]
        · refine ⟨nofun, fun u hu => ?_⟩
          cases hu
          rfl
        · exact ⟨nofun, nofun⟩

/-- Where the roster is looked up by both keys, the name decides. -/
theorem Committable.byName {user : String} {info : BatchStudent}
    (he : (user, info) ∈ (batchOf valid).1) :
    ((d.studentByName user).orElse fun _ => d.studentBySid info.sid) = d.studentByName user := by
  cases hb : d.studentByName user with
  | some r => rfl
  | none =>
      have hnone := Db.studentByName_eq_none.mp hb
      cases hs : info.sid with
      | none => rfl
      | some sid =>
          cases hbs : d.studentBySid (some sid) with
          | none => rfl
          | some r =>
              have hfilled := ((batchOf_checked hchecked).entry _ he).sid sid hs
              obtain ⟨hr, hrs⟩ := (Db.studentBySid_eq_some hfilled).mp hbs
              have hres := hc.at hchecked he
              generalize resolve d user info = res at hres
              cases hres with
              | create _ hsid => exact absurd hrs (hsid sid hs r hr)
              | existing r' hr' hname _ _ => exact absurd hname (hnone r' hr')

omit hc in
theorem planRows_nodup :
    ((planRows d lab valid []).studentsToCreate.map StudentCreate.username).Nodup ∧
      ((planRows d lab valid []).studentsToUpdate.map StudentUpdate.username).Nodup ∧
      (planRows d lab valid []).membershipsToAdd.Nodup := by
  have hkeys := (batchOf_checked hchecked).nodup
  have hpair : ((batchOf valid).1.map fun e => resolve d e.1 e.2).Pairwise fun x y =>
      (∀ c ∈ x.creates, ∀ c' ∈ y.creates, c.username ≠ c'.username) ∧
        ∀ u ∈ x.updates, ∀ u' ∈ y.updates, u.username ≠ u'.username := by
    refine List.pairwise_map.mpr ((List.pairwise_map.mp hkeys).imp fun {e e'} hne => ?_)
    obtain ⟨hc, hu⟩ := resolve_user d e.1 e.2
    obtain ⟨hc', hu'⟩ := resolve_user d e'.1 e'.2
    refine ⟨fun c hcm c' hcm' heq => hne ?_, fun u hum u' hum' heq => hne ?_⟩
    · rw [← hc c hcm, ← hc' c' hcm', heq]
    · rw [← hu u hum, ← hu' u' hum', heq]
  refine ⟨?_, ?_, ?_⟩
  · exact List.pairwise_map.mpr (hpair.filterMap _ fun x y h => h.1)
  · exact List.pairwise_map.mpr (hpair.filterMap _ fun x y h => h.2)
  · exact hkeys.sublist (List.filter_sublist.map Prod.fst)

/-- **A plan that is `ok` fits the database it was made for.** -/
theorem Committable.fits (hlab : d.labs.get lab.id = some lab) :
    (planRows d lab valid []).toRosterPlan.Fits d lab.id := by
  obtain ⟨hcreated, hupdated, hadded⟩ := @planRows_nodup d lab _ hchecked
  -- what the roster lacks of a student of the file
  have hroster : ∀ user info, (user, info) ∈ (batchOf valid).1 →
      (∃ r ∈ d.students.rows, r.username = user) ∨
        ∃ c ∈ (planRows d lab valid []).studentsToCreate, c.username = user := by
    intro user info he
    have hmem : resolve d user info ∈ (batchOf valid).1.map fun e => resolve d e.1 e.2 :=
      List.mem_map.mpr ⟨(user, info), he, rfl⟩
    have hres := hc.at hchecked he
    generalize resolve d user info = res at hres hmem
    cases hres with
    | create _ _ => exact .inr ⟨_, List.mem_filterMap.mpr ⟨_, hmem, rfl⟩, rfl⟩
    | existing r hr hname _ _ => exact .inl ⟨r, hr, hname⟩
  refine { lab := ⟨lab, hlab⟩, created := hcreated, updated := hupdated, added := hadded
           createdName := ?createdName, createdSid := ?createdSid, createdSids := ?createdSids
           updatedName := ?updatedName, updatedSid := ?updatedSid, updatedSids := ?updatedSids
           apart := ?apart, pi := ?pi, addedName := ?addedName }
  case createdName =>
    intro c hmem
    obtain ⟨info, _, _, _, _, hname, _⟩ := hc.mem_creates hchecked hmem
    exact hname
  case createdSid =>
    intro c hmem sid hs
    obtain ⟨info, _, hsid, _, _, _, hfresh⟩ := hc.mem_creates hchecked hmem
    exact hfresh sid (hsid.symm.trans hs)
  case createdSids =>
    intro c hmem c' hmem' sid hs hs'
    obtain ⟨info, he, hsid, _⟩ := hc.mem_creates hchecked hmem
    obtain ⟨info', he', hsid', _⟩ := hc.mem_creates hchecked hmem'
    exact hc.sids he he' (hsid.symm.trans hs) (hsid'.symm.trans hs')
  case updatedName =>
    intro u hmem
    obtain ⟨_, _, r, hr, hname, _⟩ := hc.mem_updates hchecked hmem
    exact ⟨r, hr, hname⟩
  case updatedSid =>
    intro u hmem sid hs
    obtain ⟨_, _, _, _, _, _, hsid⟩ := hc.mem_updates hchecked hmem
    exact (hsid sid hs).2
  case updatedSids =>
    intro u hmem u' hmem' sid hs hs'
    obtain ⟨info, he, _, _, _, _, hsid⟩ := hc.mem_updates hchecked hmem
    obtain ⟨info', he', _, _, _, _, hsid'⟩ := hc.mem_updates hchecked hmem'
    exact hc.sids he he' (hsid sid hs).1 (hsid' sid hs').1
  case apart =>
    intro u hmem c hmem' sid hs hs'
    obtain ⟨info, he, r, hr, hname, _, hsid⟩ := hc.mem_updates hchecked hmem
    obtain ⟨info', he', hsid', _, _, hnew, _⟩ := hc.mem_creates hchecked hmem'
    have heq : u.username = c.username := hc.sids he he' (hsid sid hs).1 (hsid'.symm.trans hs')
    exact hnew r hr (hname.trans heq)
  case pi =>
    intro name hpi
    have hname : (piRows valid).username = some name := by
      have hchanged : changed (piRows valid).username
          ((lab.piStudentId.bind d.students.get).map StudentRow.username) = some name := by
        change (piUpdate d lab (piRows valid)).bind PiUpdate.piUsername = some name at hpi
        unfold piUpdate at hpi
        dsimp only at hpi
        split at hpi
        · exact hpi
        · cases hpi
      exact (Option.filter_eq_some_iff.mp hchanged).1
    obtain ⟨r, hr, rfl⟩ := (piRows_from valid).username name hname
    obtain ⟨⟨user, info⟩, he, huser⟩ := List.mem_map.mp (mem_batchOf hr)
    dsimp only at huser
    subst huser
    by_cases hmember : ((d.studentByName r.user).orElse fun _ => d.studentBySid info.sid).any
        (fun x => d.isMember lab.id x.id) = true
    · rw [hc.byName hchecked he] at hmember
      obtain ⟨x, hx, hxm⟩ := Option.any_eq_true _ _ |>.mp hmember
      obtain ⟨hxr, hxu⟩ := Db.studentByName_eq_some.mp hx
      exact .inr ⟨x, hxr, hxu, hxm⟩
    · refine .inl (List.mem_map.mpr ⟨(r.user, info), List.mem_filter.mpr ⟨he, ?_⟩, rfl⟩)
      simpa using hmember
  case addedName =>
    intro name hmem
    obtain ⟨⟨user, info⟩, hfilter, rfl⟩ := List.mem_map.mp hmem
    obtain ⟨he, hnot⟩ := List.mem_filter.mp hfilter
    dsimp only at hnot ⊢
    rw [hc.byName hchecked he] at hnot
    rcases hroster user info he with ⟨r, hr, hname⟩ | hcreate
    · refine .inl ⟨r, hr, hname, ?_⟩
      rw [Db.studentByName_eq_some.mpr ⟨hr, hname⟩] at hnot
      simpa using hnot
    · exact .inr hcreate

/-- A plan writes no blank cell. -/
theorem Committable.filled :
    (∀ u ∈ (planRows d lab valid []).studentsToUpdate,
      Filled u.studentId ∧ Filled u.name ∧ Filled u.email) ∧
    ∀ pi, (planRows d lab valid []).piUpdate = some pi → Filled pi.piName ∧ Filled pi.piEmail := by
  constructor
  · intro u hu
    obtain ⟨info, he, r, _, _, hcompare, hsid⟩ := hc.mem_updates hchecked hu
    have hinfo := (batchOf_checked hchecked).entry _ he
    rcases info.compare_cases u.username r with h | ⟨h, _⟩
    · have heq := Resolution.update.inj (hcompare.symm.trans h)
      refine ⟨fun v hv => hinfo.sid v (hsid v hv).1, ?_, ?_⟩
      · rw [heq]
        exact hinfo.name.changed _
      · rw [heq]
        exact hinfo.email.changed _
    · cases hcompare.symm.trans h
  · intro pi hpi
    change piUpdate d lab (piRows valid) = some pi at hpi
    unfold piUpdate at hpi
    dsimp only at hpi
    split at hpi
    · cases hpi
      exact ⟨((piRows_from valid).name hchecked).changed _,
        ((piRows_from valid).email hchecked).changed _⟩
    · cases hpi

end

/-- **A plan that is `ok` fits the database.** -/
theorem planRosterImport_fits {h : Host} {d : Db} {labId : Nat} {text : String}
    (hok : (planRosterImport h d labId text).ok = true) :
    (planRosterImport h d labId text).toRosterPlan.Fits d labId := by
  obtain ⟨lab, hlab, hplan, hc, _⟩ := planRosterImport_ok hok
  obtain ⟨_, rfl⟩ := Table.get_eq_some.mp hlab
  rw [hplan]
  exact hc.fits (fun r hr => validRows_checked hr) hlab

end MassDeployment

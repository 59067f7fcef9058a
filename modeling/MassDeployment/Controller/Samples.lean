import MassDeployment.Controller.Heartbeats
import MassDeployment.Controller.Walk
import MassDeployment.Lib.Series
import MassDeployment.Lib.Wp

set_option autoImplicit false

/-! # Storage samples as series (`ingest.ts`)

The rows of `storage_samples` are a sampled series for each placement, student and pool. A row of a
heartbeat is a report under one of these keys, or none where it names no placement of its node or no
member of its lab. Reporting leaves the names and the roster alone, so the rows of one heartbeat are
all looked up in the same tables.
-/

namespace MassDeployment

open Js Prog

/-- What `shouldSample` selects by. -/
@[ext] structure SampleKey where
  placementId : Nat
  studentId : Option Nat
  pool : String
  deriving DecidableEq, Repr

/-- The values of a student and of the root file system change when a scan runs. -/
def SampleKey.scanned (k : SampleKey) : Bool := k.pool == "rootfs" || k.studentId.isSome

def StorageSampleRow.sample (r : StorageSampleRow) : Series.Sample SampleKey Number :=
  ⟨⟨r.placementId, r.studentId, r.pool⟩, r.usedBytes, r.ts⟩

def Db.samples (d : Db) : List (Series.Sample SampleKey Number) :=
  d.storageSamples.map StorageSampleRow.sample

abbrev Lawful (now : Nat) (samples : List (Series.Sample SampleKey Number)) : Prop :=
  Series.Lawful storageSampleMinIntervalMs SampleKey.scanned now samples

/-- `ingestTelemetry` on the samples: what the rows report is recorded, one after the other. -/
abbrev recordAll (now : Nat) (samples : List (Series.Sample SampleKey Number))
    (reports : List (SampleKey × Number)) : List (Series.Sample SampleKey Number) :=
  Series.recordAll storageSampleMinIntervalMs SampleKey.scanned now samples reports

/-- A row is stored where its report is due. -/
theorem shouldSample_eq (d : Db) (k : SampleKey) (used : Number) (now : Nat) :
    shouldSample d k.placementId k.studentId k.pool used now k.scanned =
      Series.due storageSampleMinIntervalMs SampleKey.scanned now d.samples k used := by
  have hseries : Series.of k d.samples = (d.storageSamples.filter fun r =>
      r.placementId == k.placementId && r.studentId == k.studentId && r.pool == k.pool).map
        StorageSampleRow.sample := by
    unfold Series.of Db.samples
    rw [List.filter_map]
    congr 1
    apply List.filter_congr
    intro r _
    rw [Function.comp_apply, Bool.eq_iff_iff, decide_eq_true_iff, SampleKey.ext_iff]
    simp [StorageSampleRow.sample, and_assoc]
  unfold shouldSample Series.due Series.newest
  rw [hseries, List.getLast?_map]
  cases (d.storageSamples.filter fun r =>
      r.placementId == k.placementId && r.studentId == k.studentId && r.pool == k.pool).getLast? with
  | none => rfl
  | some r =>
    have hchanged : (r.usedBytes != used) = decide (r.usedBytes ≠ used) := by
      rw [Bool.eq_iff_iff]
      simp
    dsimp only [Option.map_some]
    rw [hchanged]
    rfl

/-- What a row of a heartbeat reports: of a lab the node hosts, and of a roster member if it names
a user. -/
def Controller.report (s : Controller) (node : String) (ds : Json) : Option (SampleKey × Number) :=
  let tier := (Value.asString (Value.field "tier" ds)).getD ""
  let user := Value.field "user" ds
  match Value.asString (Value.field "lab" ds), Value.asNumber (Value.field "used_bytes" ds) with
  | some labName, some used =>
    if !(["fast", "cold", "rootfs"].contains tier) || !used.isFinite then none
    else
      match s.db.lookupPlacement s.host.conversions (some (.str labName)) node with
      | .ok (some ref) =>
        match s.sampleStudentId ref.labId user with
        | .ok studentId =>
          if user.truthy && studentId.isNone then none else some (⟨ref.id, studentId, tier⟩, used)
        | .error _ => none
      | _ => none
  | _, _ => none

/-- `user` is `null` or a non-empty string. -/
def NamesUser (ds : Json) : Prop :=
  Value.field "user" ds = some .null ∨ ∃ name, name ≠ "" ∧ Value.field "user" ds = some (.str name)

/-! ## Names -/

/-- The placements with the names they are looked up by. -/
def Db.placementKeys (d : Db) : List (Nat × Nat × String × String) :=
  d.placements.map fun p => (p.id, p.labId, p.labName, p.nodeName)

/-- Names and rosters stay. -/
structure SameNames (s s' : Controller) : Prop where
  host : s'.host = s.host
  now : s'.now = s.now
  placements : s'.db.placementKeys = s.db.placementKeys
  roster : ∀ labId, s'.db.roster labId = s.db.roster labId

instance : IsPreorder Controller SameNames where
  refl _ := ⟨rfl, rfl, rfl, fun _ => rfl⟩
  trans _ _ _ h h' := ⟨h'.host.trans h.host, h'.now.trans h.now, h'.placements.trans h.placements,
    fun labId => (h'.roster labId).trans (h.roster labId)⟩

/-- The join reads the keys of a placement, and the names under them. -/
theorem Db.placementKeys_eq (d : Db) : d.placementKeys =
    (d.labPlacements.rows.map fun p => (p.id, p.labId, p.nodeId)).filterMap fun k =>
      match (d.labs.get k.2.1).map LabRow.name, (d.nodes.get k.2.2).map NodeRow.name with
      | some lab, some node => some (k.1, k.2.1, lab, node)
      | _, _ => none := by
  unfold Db.placementKeys Db.placements
  rw [List.map_filterMap, List.filterMap_map]
  congr 1
  funext p
  unfold Db.joinPlacement Function.comp
  dsimp only
  cases d.labs.get p.labId with
  | none => rfl
  | some l => cases d.nodes.get p.nodeId <;> rfl

theorem sameNames_lists (f : Db → Db) (h) : Respects SameNames (Op.writeLists f h) := by
  intro s
  obtain ⟨h1, h2, h3, h4, h5, -, -⟩ := h s.db
  refine ⟨rfl, rfl, ?_, fun labId => ?_⟩
  · show (f s.db).placementKeys = s.db.placementKeys
    rw [Db.placementKeys_eq, Db.placementKeys_eq, h1, h2, h5]
  · show (f s.db).roster labId = s.db.roster labId
    unfold Db.roster
    rw [h3, h4]

theorem sameNames_updateNode (name : String) (f : NodeRow → NodeRow) (h) :
    Respects SameNames (updateNode name f h) := by
  intro s
  refine ⟨rfl, rfl, ?_, fun _ => rfl⟩
  rw [Db.placementKeys_eq, Db.placementKeys_eq]
  congr 1
  funext k
  have hnode : ((s.db.nodes.update (fun n => n.name == name) f (keeps_node _ f h)).get k.2.2).map
      NodeRow.name = (s.db.nodes.get k.2.2).map NodeRow.name := by
    have hget : (s.db.nodes.update (fun n => n.name == name) f (keeps_node _ f h)).get k.2.2 =
        (s.db.nodes.get k.2.2).map fun r => if r.name == name then f r else r :=
      Table.find_update (h := keeps_node _ f h) fun r _ => by
        show (decide _) = decide _
        rw [show Row.id (f r) = Row.id r from (h r).1]
    rw [hget, Option.map_map]
    congr 1
    funext r
    show (if r.name == name then f r else r).name = r.name
    split
    · exact (h r).2
    · rfl
  show (match (s.db.labs.get k.2.1).map LabRow.name,
      ((s.db.nodes.update (fun n => n.name == name) f (keeps_node _ f h)).get k.2.2).map
        NodeRow.name with
    | some lab, some node => some (k.1, k.2.1, lab, node)
    | _, _ => none) = _
  rw [hnode]

theorem sameNames_ingest : IngestWalk SameNames where
  lists := sameNames_lists
  emit _ _ _ := ⟨rfl, rfl, rfl, fun _ => rfl⟩
  alertState _ _ _ := ⟨rfl, rfl, rfl, fun _ => rfl⟩
  updateNode name f h _ _ := sameNames_updateNode name f h
  updatePlacements p f h _ _ _ s := by
    refine ⟨rfl, rfl, ?_, fun _ => rfl⟩
    rw [Db.placementKeys_eq, Db.placementKeys_eq]
    have hrows : (s.db.labPlacements.update p f h).rows.map (fun p => (p.id, p.labId, p.nodeId)) =
        s.db.labPlacements.rows.map fun p => (p.id, p.labId, p.nodeId) := by
      show (s.db.labPlacements.rows.map fun r => if p r then f r else r).map _ = _
      rw [List.map_map]
      refine List.map_congr_left fun r _ => ?_
      show ((if p r then f r else r).id, (if p r then f r else r).labId,
        (if p r then f r else r).nodeId) = _
      split
      · rename_i hp
        obtain ⟨h1, h2, h3⟩ := h.grows r hp
        rw [h1, h2, h3]
      · rfl
    exact congrArg (List.filterMap _) hrows

/-- The placement a name is looked up under, as far as a report needs it. -/
theorem SameNames.lookup {s s' : Controller} (h : SameNames s s') (labName : Value) (node : String) :
    (s'.db.lookupPlacement s'.host.conversions labName node).map
        (Option.map fun p => (p.id, p.labId)) =
      (s.db.lookupPlacement s.host.conversions labName node).map
        (Option.map fun p => (p.id, p.labId)) := by
  have hfind : ∀ (d : Db) (named : String → String → Bool),
      (d.placements.find? fun p => named p.labName p.nodeName).map (fun p => (p.id, p.labId)) =
        (d.placementKeys.find? fun k => named k.2.2.1 k.2.2.2).map fun k => (k.1, k.2.1) := by
    intro d named
    rw [Db.placementKeys, List.find?_map, Option.map_map]
    rfl
  unfold Db.lookupPlacement
  rw [h.host]
  cases namesPlacement s.host.conversions labName node with
  | error e => rfl
  | ok named =>
    show Except.ok _ = Except.ok _
    congr 1
    rw [hfind, hfind, h.placements]

theorem SameNames.report {s s' : Controller} (h : SameNames s s') (node : String) (ds : Json) :
    s'.report node ds = s.report node ds := by
  unfold Controller.report
  dsimp only
  cases Value.asString (Value.field "lab" ds) with
  | none => rfl
  | some labName =>
  cases Value.asNumber (Value.field "used_bytes" ds) with
  | none => rfl
  | some used =>
    have hlookup := h.lookup (some (.str labName)) node
    have hstudent : ∀ labId, s'.sampleStudentId labId = s.sampleStudentId labId := by
      intro labId
      funext user
      unfold Controller.sampleStudentId
      rw [h.roster, h.host]
    dsimp only
    split
    · rfl
    · cases hs : s.db.lookupPlacement s.host.conversions (some (.str labName)) node with
      | error e =>
        cases hs' : s'.db.lookupPlacement s'.host.conversions (some (.str labName)) node with
        | error e => rfl
        | ok ref => rw [hs, hs'] at hlookup; cases hlookup
      | ok ref =>
        cases hs' : s'.db.lookupPlacement s'.host.conversions (some (.str labName)) node with
        | error e => rw [hs, hs'] at hlookup; cases hlookup
        | ok ref' =>
          rw [hs, hs'] at hlookup
          replace hlookup := Except.ok.inj hlookup
          cases ref with
          | none =>
            cases ref' with
            | none => rfl
            | some ref' => cases hlookup
          | some ref =>
            cases ref' with
            | none => cases hlookup
            | some ref' =>
              have hpair := Option.some.inj hlookup
              have hid : ref'.id = ref.id := congrArg Prod.fst hpair
              have hlab : ref'.labId = ref.labId := congrArg Prod.snd hpair
              dsimp only
              rw [hstudent, hlab, hid]

/-! ## What a row writes -/

def SameSamples (s s' : Controller) : Prop := s'.db.storageSamples = s.db.storageSamples

instance : IsPreorder Controller SameSamples where
  refl _ := rfl
  trans _ _ _ h h' := Eq.trans h' h

theorem sameSamples_report : ReportWalk SameSamples where
  lists _ _ hf _ s := hf s.db
  emit _ _ _ := rfl
  alertState _ _ _ := rfl
  updateNode _ _ _ _ _ _ _ := rfl
  updatePlacements _ _ _ _ _ _ _ := rfl

theorem SameSamples.samples {s s' : Controller} (h : SameSamples s s') :
    s'.db.samples = s.db.samples := congrArg (List.map StorageSampleRow.sample) h

section

variable {s : Controller} {node : String} {now : Nat} {ds : Json}

/-- A sample is stored before the warnings it leads to; where its quota does not bind, it is not. -/
theorem wp_recordSample {ref : Placement} {studentId : Option Nat} {tier : String} {used : Number}
    {user quota : Value} : Prog.wp (recordSample node now ref studentId tier used user quota)
      (fun _ s' => s'.db.samples = s.db.samples ++ [⟨⟨ref.id, studentId, tier⟩, used, now⟩])
      (fun _ s' => s'.db.samples = s.db.samples ∨
        s'.db.samples = s.db.samples ++ [⟨⟨ref.id, studentId, tier⟩, used, now⟩]) s := by
  unfold recordSample
  rw [wp_bind]
  cases hbound : bindAll 1 [quota.orElse (some .null)] with
  | error e => exact .inl rfl
  | ok bound =>
    refine (wp_of_ok (lift_run _ s)).mpr ?_
    have hwarn : Respects SameSamples (do
        studentId.forM fun sid =>
          if (assignedUserQuota ref tier quota).truthy then
            maybeStudentQuotaAlert ref.id ref.labId sid node tier used
              (assignedUserQuota ref tier quota) now
          else pure ()
        if !user.truthy && quota.truthy && tier != "rootfs" then
          maybeQuotaAlert ref.id ref.labId tier used quota now
        else pure () : Op Unit) := by
      refine .bind (.optionForM _ fun sid _ => .ite (fun _ => ?_) fun _ => .pure _) fun _ =>
        .ite (fun _ => ?_) fun _ => .pure _
      · exact walk_maybeStudentQuotaAlert sameSamples_report (fun _ _ hf s => hf s.db) _ _ _ _ _ _ _ _
      · exact walk_maybeQuotaAlert sameSamples_report (fun _ _ hf s => hf s.db) _ _ _ _ _ _
    have hstored : ∀ s' : Controller, SameSamples
        { s with db := { s.db with
            storageSamples := s.db.storageSamples ++
              [⟨ref.id, ref.labId, studentId, tier, used, bound.headD .null, now⟩] } } s' →
        s'.db.samples = s.db.samples ++ [⟨⟨ref.id, studentId, tier⟩, used, now⟩] := by
      intro s' hs'
      rw [hs'.samples]
      exact List.map_append
    rw [wp_bind]
    refine (wp_of_ok rfl).mpr (wp_mono (Respects.wp hwarn _) (fun _ s' hs' => ?_) fun _ s' hs' => ?_)
    · exact hstored s' hs'
    · exact .inr (hstored s' hs')

/-- The flag a row is compared with is a matter of its key. -/
theorem scanDerived_eq {labId : Nat} {placementId : Nat} {tier : String} {studentId : Option Nat}
    (huser : NamesUser ds)
    (hstudent : s.sampleStudentId labId (Value.field "user" ds) = .ok studentId)
    (hknown : ¬ ((Value.field "user" ds).truthy = true ∧ studentId = none)) :
    scanDerived tier (Value.field "user" ds) = (SampleKey.mk placementId studentId tier).scanned := by
  unfold scanDerived SampleKey.scanned
  dsimp only
  rcases huser with hnull | ⟨name, hname, huser⟩
  · rw [hnull] at hstudent ⊢
    cases hstudent
    rfl
  · have htruthy : (Value.field "user" ds).truthy = true := by
      rw [huser]
      simpa [Value.truthy] using hname
    have hsome : studentId.isSome = true :=
      Option.isSome_iff_ne_none.mpr fun hnone => hknown ⟨htruthy, hnone⟩
    rw [hsome, huser]

/-- **A row is recorded**, or it throws before or after it is. -/
theorem wp_ingestSample (huser : NamesUser ds) : Prog.wp (ingestSample node now ds)
    (fun _ s' => s'.db.samples = recordAll now s.db.samples (s.report node ds).toList)
    (fun _ s' => s'.db.samples = s.db.samples ∨
      s'.db.samples = recordAll now s.db.samples (s.report node ds).toList) s := by
  unfold ingestSample Controller.report
  dsimp only
  cases Value.asString (Value.field "lab" ds) with
  | none => rfl
  | some labName =>
  cases Value.asNumber (Value.field "used_bytes" ds) with
  | none => rfl
  | some used =>
  dsimp only
  split
  · rfl
  · rw [wp_bind]
    obtain ⟨found, hfound⟩ := lookupPlacement_string s.db s.host.conversions labName node
    refine (wp_of_ok ((getPlacementByLabNode_run _ _ s).trans (by rw [hfound]))).mpr ?_
    rw [hfound]
    cases found with
    | none => rfl
    | some ref =>
      dsimp only
      rw [wp_bind]
      cases hstudent : s.sampleStudentId ref.labId (Value.field "user" ds) with
      | error e =>
        exact (wp_of_error ((sampleStudent_run _ _ s).trans (by rw [hstudent]))).mpr (.inl rfl)
      | ok studentId =>
        refine (wp_of_ok ((sampleStudent_run _ _ s).trans (by rw [hstudent]))).mpr ?_
        rw [wp_bind, Op.query, wp_read]
        dsimp only [id]
        by_cases hknown : (Value.field "user" ds).truthy = true ∧ studentId = none
        · have hskip : ((Value.field "user" ds).truthy && studentId.isNone) = true := by
            rw [hknown.1, hknown.2]
            rfl
          rw [if_pos hskip, if_pos hskip]
          rfl
        · have hkeep : ¬ ((Value.field "user" ds).truthy && studentId.isNone) = true := by
            rw [Bool.and_eq_true, Option.isNone_iff_eq_none]
            exact hknown
          have hshould := shouldSample_eq s.db
            ⟨ref.id, studentId, (Value.asString (Value.field "tier" ds)).getD ""⟩ used now
          rw [← scanDerived_eq huser hstudent hknown] at hshould
          rw [if_neg hkeep, if_neg hkeep]
          show Prog.wp _ (fun _ s' => s'.db.samples = Series.record _ _ _ _ (_, _))
            (fun _ s' => _ ∨ s'.db.samples = Series.record _ _ _ _ (_, _)) s
          unfold Series.record
          -- a report that is not due is not stored
          cases hdue : Series.due storageSampleMinIntervalMs SampleKey.scanned now s.db.samples
              ⟨ref.id, studentId, (Value.asString (Value.field "tier" ds)).getD ""⟩ used with
          | false =>
            rw [hdue] at hshould
            rw [if_pos (by rw [hshould]; rfl)]
            rfl
          | true =>
            rw [hdue] at hshould
            rw [if_neg (by rw [hshould]; exact Bool.false_ne_true)]
            exact wp_recordSample

theorem lawful_ingestSample (huser : NamesUser ds) (h : Lawful now s.db.samples) :
    Lawful now ((ingestSample node now ds).after s).db.samples := by
  have hrecord := h.recordAll (s.report node ds).toList
  refine (wp_after (P := fun s' : Controller => Lawful now s'.db.samples)).mp
    (wp_mono (wp_ingestSample huser) (fun _ s' hs' => ?_) fun _ s' hs' => ?_)
  · rw [hs']
    exact hrecord
  · rcases hs' with hs' | hs'
    · rw [hs']
      exact h
    · rw [hs']
      exact hrecord

/-! ## Rows of one heartbeat -/

variable {rows : List Json}

theorem lawful_rows (hrows : ∀ ds ∈ rows, NamesUser ds) (h : Lawful now s.db.samples) :
    Lawful now ((rows.forM (ingestSample node now)).after s).db.samples := by
  refine (wp_after (P := fun s' : Controller => Lawful now s'.db.samples)).mp
    (wp_forM (I := fun s' : Controller => Lawful now s'.db.samples) (fun ds hds s' hs' => ?_) h)
  exact wp_after.mpr (lawful_ingestSample (hrows ds hds) hs')

/-- Rows that are all looked at are recorded in order, each as it was reported. -/
theorem samples_rows (hrows : ∀ ds ∈ rows, NamesUser ds)
    (hends : Finishes (rows.forM (ingestSample node now)) s) :
    ((rows.forM (ingestSample node now)).after s).db.samples =
      recordAll now s.db.samples (rows.filterMap (s.report node)) := by
  induction rows generalizing s with
  | nil => rfl
  | cons ds rows ih =>
      obtain ⟨hfirst, hrest⟩ := (finishes_seq _ _ _).mp hends
      have hsame : SameNames s ((ingestSample node now ds).after s) :=
        sameNames_ingest.sample node now ds s
      have hsamples : ((ingestSample node now ds).after s).db.samples =
          recordAll now s.db.samples (s.report node ds).toList := by
        obtain ⟨a, ha⟩ := hfirst
        exact wp_returned (wp_ingestSample (hrows ds (by simp))) ha
      have hlater := ih (fun ds hds => hrows ds (by simp [hds])) hrest
      rw [hsamples, funext (hsame.report node)] at hlater
      refine (congrArg (fun s' : Controller => s'.db.samples) (after_seq hfirst _)).trans ?_
      refine hlater.trans ?_
      rw [recordAll, recordAll, Series.recordAll, Series.recordAll, ← List.foldl_append]
      congr 1
      rw [List.filterMap_cons]
      cases s.report node ds <;> rfl

theorem asString_eq_some {v : Value} {text : String} (h : Value.asString v = some text) :
    v = some (.str text) := by
  unfold Value.asString at h
  split at h
  · cases h
    rfl
  · cases h

/-- What a row reports, taken apart. -/
theorem report_eq_some {k : SampleKey} {used : Number} (h : s.report node ds = some (k, used)) :
    ∃ labName ref, Value.field "lab" ds = some (.str labName) ∧
      s.db.lookupPlacement s.host.conversions (some (.str labName)) node = .ok (some ref) ∧
      Value.field "tier" ds = some (.str k.pool) ∧ k.placementId = ref.id ∧
      s.sampleStudentId ref.labId (Value.field "user" ds) = .ok k.studentId ∧
      ((Value.field "user" ds).truthy = true → k.studentId ≠ none) := by
  unfold Controller.report at h
  dsimp only at h
  split at h
  · rename_i labName used hlab hused
    split at h
    · cases h
    · rename_i htier
      split at h
      · rename_i ref hlookup
        split at h
        · rename_i studentId hstudent
          split at h
          · cases h
          · rename_i hknown
            cases h
            refine ⟨labName, ref, asString_eq_some hlab, hlookup, ?_, rfl, hstudent, ?_⟩
            · cases htext : Value.asString (Value.field "tier" ds) with
              | none =>
                rw [htext] at htier
                exact absurd rfl htier
              | some tier => exact asString_eq_some htext
            · intro htruthy hnone
              have hnone' : studentId = none := hnone
              rw [htruthy, hnone'] at hknown
              exact hknown rfl
        · cases h
      · cases h
  · cases h

/-! ## Keys of distinct rows -/

/-- Two rows about one tier of one user of one lab. -/
def SameRow (a b : Json) : Prop :=
  Value.field "lab" a = Value.field "lab" b ∧ Value.field "user" a = Value.field "user" b ∧
    Value.field "tier" a = Value.field "tier" b

/-- A lab has its name. -/
theorem lookup_labName {d : Db} {c : Conversions} {labName : String} {ref : Placement}
    (h : d.lookupPlacement c (some (.str labName)) node = .ok (some ref)) :
    ref ∈ d.placements ∧ labName = ref.labName := by
  obtain ⟨named, hnamed, hmem, hyes⟩ := Db.lookupPlacement_eq_some h
  cases hnamed
  rw [Bool.and_eq_true] at hyes
  exact ⟨hmem, by simpa [SqlValue.isText] using hyes.1⟩

/-- A roster member has its name. -/
theorem sampleStudentId_name {labId i : Nat} {name : String} (hname : name ≠ "")
    (h : s.sampleStudentId labId (some (.str name)) = .ok (some i)) :
    ∃ r ∈ s.db.students.rows, r.id = i ∧ r.username = name := by
  have htruthy : Value.truthy (some (.str name)) = true := by simpa [Value.truthy] using hname
  unfold Controller.sampleStudentId at h
  rw [if_pos htruthy] at h
  obtain ⟨r, hr, hid⟩ := Option.map_eq_some_iff.mp (Except.ok.inj h)
  obtain ⟨m, -, hm⟩ := List.mem_filterMap.mp (List.mem_of_find?_eq_some hr)
  refine ⟨r, (Table.get_eq_some.mp hm).1, hid, ?_⟩
  have hyes := List.find?_some hr
  rw [SqlValue.isText, beq_iff_eq] at hyes
  exact hyes.symm

/-- **Rows with one key are about one tier of one user of one lab.** -/
theorem report_key_inj {ds' : Json} {k : SampleKey} {used used' : Number} (hds : NamesUser ds)
    (hds' : NamesUser ds') (h : s.report node ds = some (k, used))
    (h' : s.report node ds' = some (k, used')) : SameRow ds ds' := by
  obtain ⟨lab, ref, hlab, hlookup, htier, hid, hstudent, hknown⟩ := report_eq_some h
  obtain ⟨lab', ref', hlab', hlookup', htier', hid', hstudent', hknown'⟩ := report_eq_some h'
  obtain ⟨hmem, hname⟩ := lookup_labName hlookup
  obtain ⟨hmem', hname'⟩ := lookup_labName hlookup'
  have href : ref = ref' := Db.placements_key hmem hmem' (hid.symm.trans hid')
  refine ⟨?_, ?_, htier.trans htier'.symm⟩
  · rw [hlab, hlab', hname, hname', href]
  · rcases hds with hnull | ⟨name, hne, huser⟩
    · rw [hnull] at hstudent
      have hnone : k.studentId = none := (Except.ok.inj hstudent).symm
      rcases hds' with hnull' | ⟨name', hne', huser'⟩
      · rw [hnull, hnull']
      · exact absurd hnone (hknown' (by rw [huser']; simpa [Value.truthy] using hne'))
    · rw [huser] at hstudent hknown
      have hsome := hknown (by simpa [Value.truthy] using hne)
      obtain ⟨i, hi⟩ := Option.ne_none_iff_exists'.mp hsome
      rw [hi] at hstudent hstudent'
      obtain ⟨r, hr, hrid, hrname⟩ := sampleStudentId_name hne hstudent
      rcases hds' with hnull' | ⟨name', hne', huser'⟩
      · rw [hnull'] at hstudent'
        cases hstudent'
      · rw [huser'] at hstudent'
        obtain ⟨r', hr', hrid', hrname'⟩ := sampleStudentId_name hne' hstudent'
        have heq : r = r' := s.db.students.eq_of_id hr hr' (hrid.trans hrid'.symm)
        rw [huser, huser', ← hrname, ← hrname', heq]

/-- **After a heartbeat whose rows are all looked at, what a scan produced is up to date.** -/
theorem newest_rows (hrows : ∀ ds ∈ rows, NamesUser ds)
    (hdistinct : rows.Pairwise fun a b => ¬ SameRow a b)
    (hends : Finishes (rows.forM (ingestSample node now)) s) (hds : ds ∈ rows) {k : SampleKey}
    {used : Number} (hreport : s.report node ds = some (k, used)) (hk : k.scanned = true) :
    (Series.newest k ((rows.forM (ingestSample node now)).after s).db.samples).map
      Series.Sample.value = some used := by
  rw [samples_rows hrows hends]
  refine Series.newest_recordAll ?_ (List.mem_filterMap.mpr ⟨ds, hds, hreport⟩) hk
  rw [List.pairwise_filterMap]
  refine hdistinct.imp_of_mem fun {a b} ha hb hab r hr r' hr' hkey => ?_
  obtain ⟨key, u⟩ := r
  obtain ⟨key', u'⟩ := r'
  obtain rfl : key = key' := hkey
  exact hab (report_key_inj (hrows a ha) (hrows b hb) hr hr')

end

end MassDeployment

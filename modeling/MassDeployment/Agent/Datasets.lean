import MassDeployment.Agent.Names
import MassDeployment.Agent.Pools
import MassDeployment.Agent.UsageReport
import MassDeployment.Lib.Text

set_option autoImplicit false

/-! # The names of datasets (`paths.py`, `usagereport.py`)

A lab is a dataset below the root of its tier, and a student with a quota is a dataset below the
lab. `paths.py` puts the names together and `usagereport.py` takes them apart again. The parser
knows two names that no student's dataset has (`shared` and `users`, which lay below a lab once),
and it takes every dataset right below the root for a lab.
-/

namespace MassDeployment.Agent

/-! ## Names put together -/

namespace PoolConfig

variable (cfg : PoolConfig)

def labsFastRoot : String := cfg.fastPool ++ "/labs"

def labsSlowRoot : String := cfg.slowPool ++ "/labs"

def labsRoot : PoolTier → String
  | .fast => cfg.labsFastRoot
  | .slow => cfg.labsSlowRoot

/-- The dataset of a lab below a root. -/
def labDataset (tier : PoolTier) (lab : String) : Except String String := do
  let lab ← validateLabName lab
  return cfg.labsRoot tier ++ "/" ++ lab

/-- The dataset of a student below the one of the lab. -/
def userDataset (tier : PoolTier) (lab user : String) : Except String String := do
  let dataset ← cfg.labDataset tier lab
  return dataset ++ "/" ++ user

def labFast (lab : String) : Except String String := cfg.labDataset .fast lab

def labSlow (lab : String) : Except String String := cfg.labDataset .slow lab

def userFast (lab user : String) : Except String String := cfg.userDataset .fast lab user

def userSlow (lab user : String) : Except String String := cfg.userDataset .slow lab user

/-- The configuration as the usage report reads it. -/
def usage : UsageConfig := ⟨cfg.labsFastRoot, cfg.labsSlowRoot, cfg.slowIsZfs⟩

theorem labDataset_ok {lab : String} (h : validateLabName lab = .ok lab) (tier : PoolTier) :
    cfg.labDataset tier lab = .ok (cfg.labsRoot tier ++ "/" ++ lab) := by
  simp [labDataset, h, bind, Except.bind, pure, Except.pure]

theorem userDataset_ok {lab : String} (h : validateLabName lab = .ok lab) (tier : PoolTier)
    (user : String) :
    cfg.userDataset tier lab user = .ok (cfg.labsRoot tier ++ "/" ++ lab ++ "/" ++ user) := by
  simp [userDataset, labDataset_ok cfg h, bind, Except.bind, pure, Except.pure]

end PoolConfig

/-! ## Names taken apart -/

/-- The names the parser gives to no student. -/
def Reserved (user : String) : Prop := user = "shared" ∨ user = "users"

instance (user : String) : Decidable (Reserved user) := inferInstanceAs (Decidable (_ ∨ _))

/-- A root does not end in a slash, so that none is stripped. -/
theorem datasetPrefix_labs (pool : String) :
    datasetPrefix (pool ++ "/labs") = (pool ++ "/labs" ++ "/").toList := by
  have hlabs : ("/labs" : String).toList.reverse = ['s', 'b', 'a', 'l', '/'] := by decide
  have hslash : ("/labs" : String).toList ++ ("/" : String).toList =
      ['/', 'l', 'a', 'b', 's', '/'] := by decide
  rw [datasetPrefix, String.toList_append, List.reverse_append, hlabs, String.toList_append,
    String.toList_append, List.append_assoc, hslash]
  simp

theorem labsRoot_eq (cfg : PoolConfig) (tier : PoolTier) :
    ∃ pool, cfg.labsRoot tier = pool ++ "/labs" := by
  cases tier
  · exact ⟨cfg.fastPool, rfl⟩
  · exact ⟨cfg.slowPool, rfl⟩

/-- The parser behind the prefix. -/
def parseBelow (rest : String) : Option (String × Option String) :=
  match Text.split '/' rest with
  | [lab] => if lab = "" then none else some (lab, none)
  | [lab, user] =>
    if lab = "" then none
    else if user ≠ "shared" ∧ user ≠ "users" ∧ matchesUsername user = true then
      some (lab, some user)
    else none
  | _ => none

section

variable {pool rest dataset lab user : String}

theorem parseDataset_below :
    parseDataset (pool ++ "/labs" ++ "/" ++ rest) (pool ++ "/labs") = parseBelow rest := by
  have happend : (pool ++ "/labs" ++ "/" ++ rest).toList =
      (pool ++ "/labs" ++ "/").toList ++ rest.toList := String.toList_append
  have hprefix : (pool ++ "/labs" ++ "/").toList.isPrefixOf
      ((pool ++ "/labs" ++ "/").toList ++ rest.toList) = true :=
    List.isPrefixOf_iff_prefix.mpr (List.prefix_append _ _)
  rw [parseDataset, datasetPrefix_labs, happend, if_pos hprefix, List.drop_left]
  rfl

/-- What does not begin with the prefix is outside the root. -/
theorem parseDataset_outside (h : ¬ ∃ rest, dataset = pool ++ "/labs" ++ "/" ++ rest) :
    parseDataset dataset (pool ++ "/labs") = none := by
  rw [parseDataset, datasetPrefix_labs, if_neg]
  intro hprefix
  obtain ⟨rest, hrest⟩ := List.isPrefixOf_iff_prefix.mp hprefix
  refine h ⟨.ofList rest, ?_⟩
  rw [← String.toList_inj, String.toList_append, String.toList_ofList, hrest]

theorem split_join (a b : String) :
    Text.split '/' (a ++ "/" ++ b) = Text.split '/' a ++ Text.split '/' b :=
  Text.split_append '/' a b

theorem parseBelow_lab_iff :
    parseBelow rest = some (lab, none) ↔ rest = lab ∧ lab ≠ "" ∧ '/' ∉ lab.toList := by
  constructor
  · intro h
    unfold parseBelow at h
    split at h
    · rename_i first hsplit
      split at h
      · cases h
      · rename_i hne
        simp only [Option.some.injEq, Prod.mk.injEq, and_true] at h
        subst h
        have hrest := (Text.split_eq_iff (by simp)).mp hsplit
        simp only [List.map_cons, List.map_nil, List.intercalate_singleton, List.mem_singleton,
          forall_eq, String.toList_inj] at hrest
        exact ⟨hrest.1, hne, hrest.2⟩
    · split at h
      · cases h
      · split at h <;> simp at h
    · cases h
  · rintro ⟨rfl, hne, hslash⟩
    simp [parseBelow, Text.split_of_not_mem hslash, hne]

theorem parseBelow_user_iff : parseBelow rest = some (lab, some user) ↔
    rest = lab ++ "/" ++ user ∧ lab ≠ "" ∧ '/' ∉ lab.toList ∧ '/' ∉ user.toList ∧
      ¬ Reserved user ∧ matchesUsername user = true := by
  constructor
  · intro h
    unfold parseBelow at h
    split at h
    · split at h <;> simp at h
    · rename_i first second hsplit
      split at h
      · cases h
      · rename_i hne
        split at h
        · rename_i hvalid
          simp only [Option.some.injEq, Prod.mk.injEq] at h
          obtain ⟨rfl, rfl⟩ := h
          have hrest := (Text.split_eq_iff (by simp)).mp hsplit
          have hlab : '/' ∉ first.toList := hrest.2 _ (by simp)
          have huser : '/' ∉ second.toList := hrest.2 _ (by simp)
          have heq : rest = first ++ "/" ++ second := by
            rw [← String.toList_inj, hrest.1]
            simp [List.intercalate_cons_cons]
          exact ⟨heq, hne, hlab, huser, not_or.mpr ⟨hvalid.1, hvalid.2.1⟩, hvalid.2.2⟩
        · cases h
    · cases h
  · rintro ⟨rfl, hne, hlab, huser, hreserved, hvalid⟩
    have hnot := not_or.mp hreserved
    simp [parseBelow, split_join, Text.split_of_not_mem hlab, Text.split_of_not_mem huser, hne,
      hnot.1, hnot.2, hvalid]

theorem parseBelow_of_three (h : 3 ≤ (Text.split '/' rest).length) : parseBelow rest = none := by
  unfold parseBelow
  split
  · rename_i hsplit
    simp [hsplit] at h
  · rename_i hsplit
    simp [hsplit] at h
  · rfl

/-- A dataset deeper than a student's. -/
theorem parseBelow_deeper (deeper : String) :
    parseBelow (lab ++ "/" ++ user ++ "/" ++ deeper) = none := by
  have hlab := List.length_pos_iff.mpr (Text.split_ne_nil '/' lab)
  have huser := List.length_pos_iff.mpr (Text.split_ne_nil '/' user)
  have hdeeper := List.length_pos_iff.mpr (Text.split_ne_nil '/' deeper)
  apply parseBelow_of_three
  rw [split_join, split_join, List.length_append, List.length_append]
  omega

/-- A dataset two levels below the root that is no student's. -/
theorem parseBelow_invalid (h : Reserved user ∨ matchesUsername user = false) :
    parseBelow (lab ++ "/" ++ user) = none := by
  have hlab := List.length_pos_iff.mpr (Text.split_ne_nil '/' lab)
  have huser := List.length_pos_iff.mpr (Text.split_ne_nil '/' user)
  by_cases hthree : 3 ≤ (Text.split '/' (lab ++ "/" ++ user)).length
  · exact parseBelow_of_three hthree
  · rw [split_join, List.length_append] at hthree
    -- neither of the two names holds a slash
    have hone : (Text.split '/' user).length = 1 := by omega
    obtain ⟨name, hname⟩ := List.length_eq_one_iff.mp hone
    have huser : name = user := by
      have hsplit := (Text.split_eq_iff (by simp)).mp hname
      exact String.toList_inj.mp (by simpa using hsplit.1.symm)
    have hone : (Text.split '/' lab).length = 1 := by omega
    obtain ⟨first, hfirst⟩ := List.length_eq_one_iff.mp hone
    have hboth : Text.split '/' (lab ++ "/" ++ user) = [first, user] := by
      rw [split_join, hfirst, hname, huser]
      rfl
    have hnot : ¬ (user ≠ "shared" ∧ user ≠ "users" ∧ matchesUsername user = true) := by
      rintro ⟨hshared, husers, hmatch⟩
      rcases h with (h | h) | h
      · exact hshared h
      · exact husers h
      · exact absurd hmatch (by simp [h])
    simp only [parseBelow, hboth, if_neg hnot, ite_self]

end

/-! ## Names that are accepted -/

/-- A character that the pattern avoids is in no name it accepts, unless it is the line feed that
may stand behind one. -/
theorem not_mem_of_matchesLine {whole : List Char → Bool} {r : Regex}
    (hwhole : ∀ s, whole s = true ↔ r.Accepts s) {c : Char} (hr : r.avoids c = true)
    (hc : c ≠ '\n') {name : String} (h : matchesLine whole name = true) : c ∉ name.toList := by
  have havoids : ∀ s, whole s = true → c ∉ s := fun s hs =>
    Regex.not_mem_of_matches hr _ _ _ ((hwhole s).mp hs)
  rcases matchesLine_iff.mp h with h | ⟨t, rfl, ht⟩
  · exact havoids _ h
  · simpa [hc] using havoids _ ht

theorem labName_part {lab : String} (h : validateLabName lab = .ok lab) :
    lab ≠ "" ∧ '/' ∉ lab.toList := by
  have hmatch := (validateLabName_ok lab).mp h
  constructor
  · rintro rfl
    exact absurd hmatch (by decide)
  · exact not_mem_of_matchesLine labNameChars_iff (by decide) (by decide) hmatch

theorem username_part {user : String} (h : matchesUsername user = true) : '/' ∉ user.toList :=
  not_mem_of_matchesLine usernameChars_iff (by decide) (by decide) h

/-! ## Usage by student -/

/-- The rows that are read for a tier. -/
def UsageConfig.rows (cfg : UsageConfig) (r : Readings) : PoolTier → List ZfsUsage
  | .fast => r.fastRows
  | .slow => if cfg.slowIsZfs then r.slowRows else []

/-- The usage of a student on a tier. -/
def datasetUsage (out : Dict String LabUsage) (lab user : String) (tier : PoolTier) :
    Option ZfsUsage :=
  ((out.lookup lab).bind fun entry => entry.users.lookup user).bind fun tiers => tiers.lookup tier

theorem datasetUsage_eq (out : Dict String LabUsage) (lab user : String) (tier : PoolTier) :
    datasetUsage out lab user tier =
      ((((out.lookup lab).getD {}).users.lookup user).getD []).lookup tier := by
  unfold datasetUsage
  cases out.lookup lab with
  | none => rfl
  | some entry =>
      simp only [Option.bind_some, Option.getD_some]
      cases entry.users.lookup user <;> rfl

/-- The row is one of the student on the tier. -/
def IsRow (root lab user : String) (u : ZfsUsage) : Prop :=
  parseDataset u.dataset root = some (lab, some user)

instance (root lab user : String) (u : ZfsUsage) : Decidable (IsRow root lab user u) :=
  inferInstanceAs (Decidable (_ = _))

section

variable {root lab user : String} {tier t : PoolTier}

/-- A row is the usage of its student on its tier, and leaves every other usage as it is. -/
theorem datasetUsage_ingestRow (out : Dict String LabUsage) (u : ZfsUsage) :
    datasetUsage (ingestRow root tier out u) lab user t =
      if t = tier ∧ IsRow root lab user u then some u else datasetUsage out lab user t := by
  have hrow : IsRow root lab user u ↔ parseDataset u.dataset root = some (lab, some user) := Iff.rfl
  unfold ingestRow
  rcases hparse : parseDataset u.dataset root with _ | ⟨lab', user'⟩
  · simp [hrow, hparse]
  · simp only [datasetUsage_eq, hrow, hparse]
    cases user' with
      | none =>
          -- a row of a lab leaves the students of the lab
          have husers : ∀ entry : LabUsage, (entry.setTier u tier).users = entry.users := by
            intro entry
            cases tier <;> rfl
          by_cases hlab : lab = lab'
          · simp [Dict.lookup_set, hlab, husers]
          · simp [Dict.lookup_set, hlab]
      | some user' =>
          by_cases hlab : lab = lab'
          · by_cases huser : user = user'
            · by_cases htier : t = tier
              · simp [Dict.lookup_set, hlab, huser, htier]
              · simp [Dict.lookup_set, hlab, huser, htier]
            · have hne : user' ≠ user := Ne.symm huser
              simp [Dict.lookup_set, hlab, huser, hne]
          · have hne : lab' ≠ lab := Ne.symm hlab
            simp [Dict.lookup_set, hlab, hne]

theorem datasetUsage_ingestRows (rows : List ZfsUsage) (out : Dict String LabUsage) :
    datasetUsage (ingestRows out rows root tier) lab user t =
      if t = tier then
        (rows.filter fun u => IsRow root lab user u).getLast?.or (datasetUsage out lab user t)
      else datasetUsage out lab user t := by
  induction rows generalizing out with
  | nil => simp [ingestRows]
  | cons u rows ih =>
      have hstep : ingestRows out (u :: rows) root tier =
          ingestRows (ingestRow root tier out u) rows root tier := rfl
      rw [hstep, ih, datasetUsage_ingestRow]
      by_cases htier : t = tier
      · by_cases hrow : IsRow root lab user u
        · simp [htier, hrow, List.getLast?_cons]
        · simp [htier, hrow]
      · simp [htier]

end

/-- The usage of a student on a tier is the last row that names the student. -/
theorem datasetUsage_collect (cfg : PoolConfig) (r : Readings) (lab user : String)
    (tier : PoolTier) :
    datasetUsage (collectZfsUsage cfg.usage r) lab user tier =
      ((cfg.usage.rows r tier).filter fun u => IsRow (cfg.labsRoot tier) lab user u).getLast? := by
  have hempty : datasetUsage [] lab user tier = none := rfl
  unfold collectZfsUsage
  cases hslow : cfg.usage.slowIsZfs with
  | false =>
      cases tier with
      | fast => simp [datasetUsage_ingestRows, hempty, UsageConfig.rows]; rfl
      | slow => simp [datasetUsage_ingestRows, hempty, UsageConfig.rows, hslow]
  | true =>
      cases tier with
      | fast => simp [datasetUsage_ingestRows, hempty, UsageConfig.rows]; rfl
      | slow => simp [datasetUsage_ingestRows, hempty, UsageConfig.rows, hslow]; rfl

/-! ## Parsing back -/

/-- A row is a student's exactly if its dataset is. -/
theorem isRow_iff (cfg : PoolConfig) (tier : PoolTier) {lab user : String}
    (hlab : validateLabName lab = .ok lab) (huser : validateUsername user = .ok ())
    (hreserved : ¬ Reserved user) (u : ZfsUsage) : IsRow (cfg.labsRoot tier) lab user u ↔
      u.dataset = cfg.labsRoot tier ++ "/" ++ lab ++ "/" ++ user := by
  obtain ⟨pool, hpool⟩ := labsRoot_eq cfg tier
  have hmatch := (validateUsername_eq_ok user).mp huser
  obtain ⟨hne, hslash⟩ := labName_part hlab
  rw [IsRow, hpool]
  constructor
  · intro h
    by_cases hbelow : ∃ rest, u.dataset = pool ++ "/labs" ++ "/" ++ rest
    · obtain ⟨rest, hrest⟩ := hbelow
      rw [hrest, parseDataset_below, parseBelow_user_iff] at h
      rw [hrest, h.1]
      simp [String.append_assoc]
    · rw [parseDataset_outside hbelow] at h
      cases h
  · intro h
    have hbelow : u.dataset = pool ++ "/labs" ++ "/" ++ (lab ++ "/" ++ user) := by
      rw [h]
      simp [String.append_assoc]
    rw [hbelow, parseDataset_below, parseBelow_user_iff]
    exact ⟨rfl, hne, hslash, username_part hmatch, hreserved, hmatch⟩

/-- **Dataset names parse back to their owner**, on either tier: the dataset of a lab to the lab,
and the dataset of a student to the student, unless the student has a reserved name. What is
outside the root or too deep, and what no student can be called, parses to nothing. So the usage of
a student is what is read of the student's own dataset. -/
theorem datasets_parse_back (cfg : PoolConfig) (tier : PoolTier) :
    (∀ lab, validateLabName lab = .ok lab → ∃ dataset, cfg.labDataset tier lab = .ok dataset ∧
      parseDataset dataset (cfg.labsRoot tier) = some (lab, none)) ∧
    (∀ lab user, validateLabName lab = .ok lab → validateUsername user = .ok () →
      ¬ Reserved user → ∃ dataset, cfg.userDataset tier lab user = .ok dataset ∧
        parseDataset dataset (cfg.labsRoot tier) = some (lab, some user) ∧
        ∀ r, datasetUsage (collectZfsUsage cfg.usage r) lab user tier =
          ((cfg.usage.rows r tier).filter fun u => u.dataset = dataset).getLast?) ∧
    (∀ dataset, (¬ ∃ rest, dataset = cfg.labsRoot tier ++ "/" ++ rest) →
      parseDataset dataset (cfg.labsRoot tier) = none) ∧
    (∀ lab user deeper, parseDataset
      (cfg.labsRoot tier ++ "/" ++ (lab ++ "/" ++ user ++ "/" ++ deeper)) (cfg.labsRoot tier) =
        none) ∧
    ∀ lab user, Reserved user ∨ validateUsername user ≠ .ok () →
      parseDataset (cfg.labsRoot tier ++ "/" ++ (lab ++ "/" ++ user)) (cfg.labsRoot tier) = none := by
  obtain ⟨pool, hpool⟩ := labsRoot_eq cfg tier
  refine ⟨fun lab hlab => ?_, fun lab user hlab huser hreserved => ?_, fun dataset hout => ?_,
    fun lab user deeper => ?_, fun lab user hinvalid => ?_⟩
  · obtain ⟨hne, hslash⟩ := labName_part hlab
    refine ⟨_, cfg.labDataset_ok hlab tier, ?_⟩
    rw [hpool, parseDataset_below, parseBelow_lab_iff]
    exact ⟨rfl, hne, hslash⟩
  · have hrow := isRow_iff cfg tier hlab huser hreserved
    refine ⟨_, cfg.userDataset_ok hlab tier user, ?_, fun r => ?_⟩
    · exact (hrow ⟨_, 0, none, none⟩).mpr rfl
    · rw [datasetUsage_collect]
      congr 1
      exact List.filter_congr fun u _ => decide_eq_decide.mpr (hrow u)
  · rw [hpool] at hout ⊢
    exact parseDataset_outside hout
  · rw [hpool, parseDataset_below, parseBelow_deeper]
  · rw [hpool, parseDataset_below]
    refine parseBelow_invalid (hinvalid.imp_right fun h => ?_)
    rwa [ne_eq, validateUsername_eq_ok, Bool.not_eq_true] at h

/-- A node with both tiers. -/
def twoPools : PoolConfig := ⟨"fast", "slow", true⟩

theorem datasets_parse_back_alice :
    ∃ dataset, twoPools.userFast "bio" "alice" = .ok dataset ∧
      parseDataset dataset twoPools.labsFastRoot = some ("bio", some "alice") := by
  obtain ⟨dataset, hdataset, hparse, -⟩ := (datasets_parse_back twoPools .fast).2.1 "bio" "alice"
    (by decide) (by decide) (by decide)
  exact ⟨dataset, hdataset, hparse⟩

/-- A student called `shared` has a dataset that is nobody's, and a name that no lab can have is
taken for one. -/
theorem shared_parses_to_nothing :
    validateLabName "bio" = .ok "bio" ∧ validateUsername "shared" = .ok () ∧
      twoPools.userFast "bio" "shared" = .ok "fast/labs/bio/shared" ∧
      parseDataset "fast/labs/bio/shared" twoPools.labsFastRoot ≠ some ("bio", some "shared") ∧
      validateLabName "b io" ≠ .ok "b io" ∧
      parseDataset "fast/labs/b io" twoPools.labsFastRoot ≠ none := by
  decide +kernel

end MassDeployment.Agent

import MassDeployment.Agent.Users
import MassDeployment.Controller.Labs
import MassDeployment.Lib.Regex

set_option autoImplicit false

/-! # The names both sides accept (`paths.py`, `executors/docker.py`)

The agent checks the names of labs, users and images once more, with copies of the controller's
patterns. The controller's engine lets `$` hold at the end of a text only, the agent's also in
front of a last newline.
-/

namespace MassDeployment

open Js

/-! ## The patterns -/

/-- `LAB_NAME_RE` of `labs.ts`. -/
def labNameRe : Regex :=
  .seq (.set [('a', 'z'), ('A', 'Z'), ('0', '9')])
    (.rep (.set [('a', 'z'), ('A', 'Z'), ('0', '9'), ('_', '_'), ('-', '-')]) 0 (some 39))

/-- `USERNAME_RE` of `labimport.ts`. -/
def usernameRe : Regex :=
  .seq (.set [('a', 'z'), ('_', '_')])
    (.rep (.set [('a', 'z'), ('0', '9'), ('_', '_'), ('-', '-')]) 0 (some 31))

/-- `DOCKER_IMAGE_RE` of `placements.ts`. -/
def dockerImageRe : Regex :=
  .seq (.set [('a', 'z'), ('A', 'Z'), ('0', '9')])
    (.seq (.rep (.set [('a', 'z'), ('A', 'Z'), ('0', '9'), ('.', '.'), ('_', '_'), ('/', '/'),
        ('-', '-')]) 0 none)
      (.seq (.rep (.seq (.text ":") (.rep (.set [('a', 'z'), ('A', 'Z'), ('0', '9'), ('.', '.'),
          ('_', '_'), ('-', '-')]) 1 none)) 0 (some 1))
        (.rep (.seq (.text "@sha256:") (.rep (.set [('a', 'f'), ('0', '9')]) 64 (some 64)))
          0 (some 1))))

namespace Agent

/-- `LAB_NAME_RE` of `paths.py`. -/
def labNameRe : Regex :=
  .seq (.set [('A', 'Z'), ('a', 'z'), ('0', '9')])
    (.rep (.set [('A', 'Z'), ('a', 'z'), ('0', '9'), ('_', '_'), ('-', '-')]) 0 (some 39))

/-- `USERNAME_RE` of `executors/users.py`. -/
def usernameRe : Regex :=
  .seq (.set [('a', 'z'), ('_', '_')])
    (.rep (.set [('a', 'z'), ('0', '9'), ('_', '_'), ('-', '-')]) 0 (some 31))

/-- `IMAGE_RE` of `executors/docker.py`. -/
def imageRe : Regex :=
  .seq (.set [('a', 'z'), ('A', 'Z'), ('0', '9')])
    (.seq (.rep (.set [('a', 'z'), ('A', 'Z'), ('0', '9'), ('.', '.'), ('_', '_'), ('/', '/'),
        ('-', '-')]) 0 none)
      (.seq (.rep (.seq (.text ":") (.rep (.set [('a', 'z'), ('A', 'Z'), ('0', '9'), ('.', '.'),
          ('_', '_'), ('-', '-')]) 1 none)) 0 (some 1))
        (.rep (.seq (.text "@sha256:") (.rep (.set [('a', 'f'), ('0', '9')]) 64 (some 64)))
          0 (some 1))))

/-! ## The checks of the agent -/

/-- `re.match` of a pattern between `^` and `$`. -/
def matchesLine (whole : List Char → Bool) (s : String) : Bool :=
  whole s.toList || (s.toList.getLast? == some '\n' && whole s.toList.dropLast)

/-- `[A-Za-z0-9][A-Za-z0-9_-]{0,39}`, for a whole text. -/
def labNameChars : List Char → Bool
  | [] => false
  | c :: rest => isAlnum c && rest.all (fun c => isAlnum c || c == '_' || c == '-') &&
      rest.length ≤ 39

/-- `validate_lab_name`. -/
def validateLabName (lab : String) : Except String String :=
  if matchesLine labNameChars lab then .ok lab else .error s!"invalid lab name '{lab}'"

/-- The pattern of an image reference, for a whole text. -/
def imageChars : List Char → Bool
  | [] => false
  | c :: s =>
    isAlnum c && tagSuffix (s.dropWhile fun c =>
      isAlnum c || c == '.' || c == '_' || c == '/' || c == '-')

/-- `validate_image`. -/
def validateImage (image : String) : Except String String :=
  if !matchesLine imageChars image || image.length > 256 then
    .error s!"invalid image reference '{image}'"
  else .ok image

end Agent

/-! ## The recognisers are the patterns -/

theorem one_char (a c : Char) : (decide (a ≤ c) && decide (c ≤ a)) = (c == a) := by
  by_cases h : c = a
  · subst h
    simp
  · have hne : ¬ (a ≤ c ∧ c ≤ a) := fun hle => h (Char.le_antisymm hle.2 hle.1)
    simp only [beq_eq_false_iff_ne.mpr h, Bool.and_eq_false_iff, decide_eq_false_iff_not]
    exact not_and_or.mp hne

/-- The sets of the patterns, as the recognisers write them. -/
theorem alnum_set (c : Char) :
    Regex.inRanges [('a', 'z'), ('A', 'Z'), ('0', '9')] c = isAlnum c := by
  simp only [Regex.inRanges, List.any_cons, List.any_nil, Bool.or_false, isAlnum, isDigit]
  grind

theorem lab_set : Regex.inRanges [('a', 'z'), ('A', 'Z'), ('0', '9'), ('_', '_'), ('-', '-')] =
    fun c => isAlnum c || c == '_' || c == '-' := by
  funext c
  simp only [Regex.inRanges, List.any_cons, List.any_nil, Bool.or_false, one_char, isAlnum, isDigit]
  grind

theorem user_set : Regex.inRanges [('a', 'z'), ('0', '9'), ('_', '_'), ('-', '-')] =
    fun c => ('a' ≤ c && c ≤ 'z') || isDigit c || c == '_' || c == '-' := by
  funext c
  simp only [Regex.inRanges, List.any_cons, List.any_nil, Bool.or_false, one_char, isDigit]
  grind

theorem user_head (c : Char) : Regex.inRanges [('a', 'z'), ('_', '_')] c =
    (('a' ≤ c && c ≤ 'z') || c == '_') := by
  simp only [Regex.inRanges, List.any_cons, List.any_nil, Bool.or_false, one_char]

def tagChar (c : Char) : Bool := isAlnum c || c == '.' || c == '_' || c == '-'

def repoChar (c : Char) : Bool := isAlnum c || c == '.' || c == '_' || c == '/' || c == '-'

theorem tag_set : Regex.inRanges [('a', 'z'), ('A', 'Z'), ('0', '9'), ('.', '.'), ('_', '_'),
    ('-', '-')] = tagChar := by
  funext c
  simp only [Regex.inRanges, List.any_cons, List.any_nil, Bool.or_false, one_char, tagChar,
    isAlnum, isDigit]
  grind

theorem repo_set : Regex.inRanges [('a', 'z'), ('A', 'Z'), ('0', '9'), ('.', '.'), ('_', '_'),
    ('/', '/'), ('-', '-')] = repoChar := by
  funext c
  simp only [Regex.inRanges, List.any_cons, List.any_nil, Bool.or_false, one_char, repoChar,
    isAlnum, isDigit]
  grind

theorem hex_set : Regex.inRanges [('a', 'f'), ('0', '9')] = isLowerHex := by
  funext c
  simp only [Regex.inRanges, List.any_cons, List.any_nil, Bool.or_false, isLowerHex, isDigit]
  grind

theorem labNameChars_iff (s : List Char) :
    Agent.labNameChars s = true ↔ labNameRe.Accepts s := by
  rw [labNameRe, Regex.accepts_name, lab_set]
  cases s with
  | nil => simp [Agent.labNameChars]
  | cons c rest =>
      simp only [Agent.labNameChars, Bool.and_eq_true, decide_eq_true_eq, List.cons.injEq,
        alnum_set, and_assoc]
      simp

theorem usernameChars_iff (s : List Char) :
    Agent.usernameChars s = true ↔ usernameRe.Accepts s := by
  rw [usernameRe, Regex.accepts_name, user_set]
  cases s with
  | nil => simp [Agent.usernameChars]
  | cons c rest =>
      simp only [Agent.usernameChars, Bool.and_eq_true, decide_eq_true_eq, List.cons.injEq,
        user_head, isDigit, and_assoc]
      simp

def digestRe : Regex :=
  .rep (.seq (.text "@sha256:") (.rep (.set [('a', 'f'), ('0', '9')]) 64 (some 64))) 0 (some 1)

def tagRe : Regex :=
  .rep (.seq (.text ":") (.rep (.set [('a', 'z'), ('A', 'Z'), ('0', '9'), ('.', '.'), ('_', '_'),
    ('-', '-')]) 1 none)) 0 (some 1)

theorem digestSuffix_iff (s : List Char) : digestSuffix s = true ↔ digestRe.Accepts s := by
  have hdrop : ∀ b, ("@sha256:".toList ++ b).drop 8 = b := fun b => List.drop_left' rfl
  rw [digestRe, Regex.accepts_opt rfl, Regex.accepts_seq rfl rfl]
  simp only [Regex.accepts_rep_set, hex_set, digestSuffix, Bool.or_eq_true, Bool.and_eq_true,
    List.isEmpty_iff, beq_iff_eq]
  constructor
  · rintro (rfl | ⟨⟨hhead, hall⟩, hlen⟩)
    · exact .inl rfl
    · obtain ⟨b, rfl⟩ := List.isPrefixOf_iff_prefix.mp hhead
      rw [hdrop] at hall hlen
      exact .inr ⟨_, b, rfl, rfl, hall, by omega, by simp [hlen]⟩
  · rintro (rfl | ⟨_, b, rfl, rfl, hall, hmin, hmax⟩)
    · exact .inl rfl
    · have hmax := hmax 64 rfl
      refine .inr ⟨⟨List.isPrefixOf_iff_prefix.mpr ⟨b, rfl⟩, ?_⟩, ?_⟩
      · rwa [hdrop]
      · rw [hdrop]
        omega

/-- A digest begins with no character of a tag or of a repository. -/
theorem digestSuffix_head {c : Char} {rest : List Char} (h : digestSuffix (c :: rest) = true) :
    c = '@' := by
  rw [digestSuffix, List.isEmpty_cons, Bool.false_or, Bool.and_eq_true, Bool.and_eq_true] at h
  obtain ⟨b, hb⟩ := List.isPrefixOf_iff_prefix.mp h.1.1
  exact (List.cons.inj hb).1.symm

theorem accepts_tag (a : List Char) : tagRe.Accepts a ↔
    a = [] ∨ ∃ y, a = ':' :: y ∧ y.all tagChar = true ∧ y ≠ [] := by
  rw [tagRe, Regex.accepts_opt rfl, Regex.accepts_seq rfl rfl]
  simp only [Regex.accepts_rep_set, tag_set]
  refine or_congr_right ?_
  constructor
  · rintro ⟨_, y, rfl, rfl, hall, hmin, -⟩
    exact ⟨y, rfl, hall, List.length_pos_iff.mp hmin⟩
  · rintro ⟨y, rfl, hall, hne⟩
    exact ⟨[':'], y, rfl, rfl, hall, List.length_pos_iff.mpr hne, nofun⟩

theorem tagSuffix_of_ne {c : Char} (hc : c ≠ ':') (s : List Char) :
    tagSuffix (c :: s) = digestSuffix (c :: s) := by
  unfold tagSuffix
  split
  · rename_i hs
    exact absurd (List.cons.inj hs).1 hc
  · rfl

theorem tagSuffix_iff (s : List Char) :
    tagSuffix s = true ↔ (Regex.seq tagRe digestRe).Accepts s := by
  rw [Regex.accepts_seq rfl rfl]
  simp only [← digestSuffix_iff, accepts_tag]
  have hhead : ∀ c rest, digestSuffix (c :: rest) = true → tagChar c = false := by
    intro c rest h
    rw [digestSuffix_head h]
    decide
  cases s with
  | nil => exact iff_of_true rfl ⟨[], [], rfl, .inl rfl, rfl⟩
  | cons c s =>
      by_cases hc : c = ':'
      · subst hc
        have hrun := Regex.split_run_iff (P := (· ≠ [])) (Q := (digestSuffix · = true))
          (s := s) hhead
        have htag : tagSuffix (':' :: s) =
            (!(s.takeWhile tagChar).isEmpty && digestSuffix (s.dropWhile tagChar)) := rfl
        rw [htag, Bool.and_eq_true, Bool.not_eq_true', ← Bool.not_eq_true, List.isEmpty_iff]
        refine hrun.symm.trans ?_
        constructor
        · rintro ⟨y, b, rfl, hy, hb⟩
          exact ⟨':' :: y, b, rfl, .inr ⟨y, rfl, hy⟩, hb⟩
        · rintro ⟨a, b, hs, rfl | ⟨y, rfl, hy⟩, hb⟩
          · -- a digest does not begin with a colon
            rw [List.nil_append] at hs
            exact absurd (digestSuffix_head (hs ▸ hb)) (by decide)
          · exact ⟨y, b, (List.cons.inj hs).2, hy, hb⟩
      · rw [tagSuffix_of_ne hc]
        constructor
        · exact fun h => ⟨[], c :: s, rfl, .inl rfl, h⟩
        · rintro ⟨a, b, hs, rfl | ⟨y, rfl, hy⟩, hb⟩
          · rw [hs]
            exact hb
          · exact absurd (List.cons.inj hs).1 hc

theorem imageChars_iff (s : List Char) :
    Agent.imageChars s = true ↔ dockerImageRe.Accepts s := by
  have hhead : ∀ c rest, tagSuffix (c :: rest) = true → repoChar c = false := by
    intro c rest h
    by_cases hc : c = ':'
    · rw [hc]
      decide
    · rw [tagSuffix_of_ne hc] at h
      rw [digestSuffix_head h]
      decide
  have hre : dockerImageRe = .seq (.set [('a', 'z'), ('A', 'Z'), ('0', '9')])
      (.seq (.rep (.set [('a', 'z'), ('A', 'Z'), ('0', '9'), ('.', '.'), ('_', '_'), ('/', '/'),
        ('-', '-')]) 0 none) (.seq tagRe digestRe)) := rfl
  rw [hre, Regex.accepts_set_seq rfl]
  cases s with
  | nil => simp [Agent.imageChars]
  | cons c s =>
      have hrun := Regex.split_run_iff (P := fun _ => True) (Q := (tagSuffix · = true))
        (s := s) hhead
      have himage : Agent.imageChars (c :: s) =
          (isAlnum c && tagSuffix (s.dropWhile repoChar)) := rfl
      rw [himage, Bool.and_eq_true, ← true_and (tagSuffix _ = true), ← hrun]
      constructor
      · rintro ⟨hc, a, b, rfl, ⟨ha, -⟩, hb⟩
        refine ⟨c, a ++ b, rfl, (alnum_set c).trans hc, (Regex.accepts_seq rfl rfl).mpr ?_⟩
        refine ⟨a, b, rfl, Regex.accepts_rep_set.mpr ⟨?_, Nat.zero_le _, nofun⟩, ?_⟩
        · rwa [repo_set]
        · exact (tagSuffix_iff b).mp hb
      · rintro ⟨_, _, ⟨⟩, hc, hrest⟩
        obtain ⟨a, b, rfl, ha, hb⟩ := (Regex.accepts_seq rfl rfl).mp hrest
        have ha := (Regex.accepts_rep_set.mp ha).1
        rw [repo_set] at ha
        exact ⟨(alnum_set c).symm.trans hc, a, b, rfl, ⟨ha, trivial⟩, (tagSuffix_iff b).mpr hb⟩

/-! ## The two engines -/

/-- The patterns of the agent are those of the controller. -/
theorem accepts_agentLab (s : List Char) :
    Agent.labNameRe.Accepts s ↔ labNameRe.Accepts s := by
  have hhead : ∀ c, Regex.inRanges [('A', 'Z'), ('a', 'z'), ('0', '9')] c =
      Regex.inRanges [('a', 'z'), ('A', 'Z'), ('0', '9')] c := by
    intro c
    simp only [Regex.inRanges, List.any_cons, Bool.or_left_comm]
  have htail : Regex.inRanges [('A', 'Z'), ('a', 'z'), ('0', '9'), ('_', '_'), ('-', '-')] =
      Regex.inRanges [('a', 'z'), ('A', 'Z'), ('0', '9'), ('_', '_'), ('-', '-')] := by
    funext c
    simp only [Regex.inRanges, List.any_cons, Bool.or_left_comm]
  simp only [Agent.labNameRe, labNameRe, Regex.accepts_name, hhead, htail]

theorem isValidLabName_eq (s : String) : isValidLabName s = Agent.labNameChars s.toList := by
  unfold isValidLabName
  cases s.toList <;> rfl

theorem isUsername_eq (s : String) : isUsername s = Agent.usernameChars s.toList := by
  unfold isUsername
  cases s.toList <;> rfl

theorem dockerImage_eq (s : String) : dockerImage s = Agent.imageChars s.toList := by
  unfold dockerImage
  cases s.toList <;> rfl

/-- What the controller's engine finds. -/
theorem controller_search (s : String) :
    (isValidLabName s = true ↔ Regex.Search .end labNameRe.anchored s.toList) ∧
    (isUsername s = true ↔ Regex.Search .end usernameRe.anchored s.toList) ∧
    (dockerImage s = true ↔ Regex.Search .end dockerImageRe.anchored s.toList) := by
  rw [Regex.search_anchored rfl, Regex.search_anchored rfl, Regex.search_anchored rfl,
    isValidLabName_eq, isUsername_eq, dockerImage_eq]
  exact ⟨labNameChars_iff _, usernameChars_iff _, imageChars_iff _⟩

theorem matchesLine_iff {whole : List Char → Bool} {s : String} :
    Agent.matchesLine whole s = true ↔
      whole s.toList = true ∨ ∃ t : String, s = t ++ "\n" ∧ whole t.toList = true := by
  unfold Agent.matchesLine
  rw [Bool.or_eq_true, Bool.and_eq_true, beq_iff_eq]
  refine or_congr_right ?_
  constructor
  · rintro ⟨hlast, hwhole⟩
    refine ⟨.ofList s.toList.dropLast, ?_, ?_⟩
    · rw [← String.toList_inj, String.toList_append, String.toList_ofList]
      exact (List.dropLast_append_getLast? _ hlast).symm
    · rwa [String.toList_ofList]
  · rintro ⟨t, rfl, ht⟩
    rw [String.toList_append]
    simpa using ht

/-- What the agent's engine matches. -/
theorem agent_match (s : String) :
    (Agent.matchesLine Agent.labNameChars s = true ↔
      Regex.MatchStart .endOrLastLineFeed Agent.labNameRe.anchored s.toList) ∧
    (Agent.matchesUsername s = true ↔
      Regex.MatchStart .endOrLastLineFeed Agent.usernameRe.anchored s.toList) ∧
    (Agent.matchesLine Agent.imageChars s = true ↔
      Regex.MatchStart .endOrLastLineFeed Agent.imageRe.anchored s.toList) := by
  have hline : ∀ {whole : List Char → Bool} {r : Regex}, r.plain = true →
      (∀ s, whole s = true ↔ r.Accepts s) → (Agent.matchesLine whole s = true ↔
        Regex.MatchStart .endOrLastLineFeed r.anchored s.toList) := by
    intro whole r hr hwhole
    rw [matchesLine_iff, Regex.matchStart_anchored hr, hwhole]
    refine or_congr_right ?_
    constructor
    · rintro ⟨t, rfl, ht⟩
      exact ⟨t.toList, String.toList_append, (hwhole _).mp ht⟩
    · rintro ⟨t, hs, ht⟩
      refine ⟨.ofList t, ?_, (hwhole _).mpr ?_⟩
      · rw [← String.toList_inj, hs, String.toList_append, String.toList_ofList]
        rfl
      · rwa [String.toList_ofList]
  refine ⟨hline rfl ?_, hline rfl usernameChars_iff, hline rfl imageChars_iff⟩
  exact fun s => (labNameChars_iff s).trans (accepts_agentLab s).symm

/-! ## Where they agree -/

/-- A pattern that no line feed is in is found by the one engine where the other matches it, but for
one line feed behind it. -/
theorem engines_agree_iff {r r' : Regex} (hr : r.plain = true) (hr' : r'.plain = true)
    (hsame : ∀ s, r'.Accepts s ↔ r.Accepts s) (hfeed : r.avoids '\n' = true) (s : String) :
    (Regex.Search .end r.anchored s.toList ↔
        Regex.MatchStart .endOrLastLineFeed r'.anchored s.toList) ↔
      ¬ ∃ t : String, s = t ++ "\n" ∧ Regex.Search .end r.anchored t.toList := by
  simp only [Regex.search_anchored hr, Regex.matchStart_anchored hr', hsame]
  constructor
  · rintro hagree ⟨t, hs, ht⟩
    have hlist : s.toList = t.toList ++ ['\n'] := by
      rw [hs, String.toList_append]
      rfl
    have hself := hagree.mpr (.inr ⟨t.toList, hlist, ht⟩)
    refine Regex.not_mem_of_matches hfeed _ _ _ hself ?_
    rw [hlist]
    exact List.mem_append_right _ (List.mem_singleton.mpr rfl)
  · refine fun hno => ⟨.inl, fun h => h.resolve_right ?_⟩
    rintro ⟨t, hs, ht⟩
    refine hno ⟨.ofList t, ?_, by rwa [String.toList_ofList]⟩
    rw [← String.toList_inj, hs, String.toList_append, String.toList_ofList]
    rfl

/-- References of images are ASCII. -/
theorem dockerImage_avoids {c : Char} (hc : 128 ≤ c.toNat) : dockerImageRe.avoids c = true := by
  have hle : ∀ a : Char, a.toNat < 128 → decide (c ≤ a) = false := by
    intro a ha
    rw [decide_eq_false_iff_not, Char.le_def, UInt32.le_iff_toNat_le]
    show ¬ c.toNat ≤ a.toNat
    omega
  have htext : ∀ t : String, (t.toList.all fun a => a.toNat < 128) = true →
      t.toList.contains c = false := by
    intro t ht
    refine Bool.eq_false_iff.mpr fun h => ?_
    have hlt := of_decide_eq_true (List.all_eq_true.mp ht c (List.contains_iff_mem.mp h))
    omega
  simp (disch := decide) only [dockerImageRe, Regex.avoids, Regex.inRanges, List.any_cons,
    List.any_nil, hle, htext, Bool.and_false, Bool.or_false, Bool.not_false, Bool.and_true]

theorem length_of_dockerImage {s : String} (h : dockerImage s = true) :
    Js.length s = s.length := by
  rw [dockerImage_eq, imageChars_iff] at h
  have hunits : ∀ c ∈ s.toList, units c = 1 := by
    intro c hc
    by_cases hascii : 128 ≤ c.toNat
    · exact absurd hc (Regex.not_mem_of_matches (dockerImage_avoids hascii) _ _ _ h)
    · refine if_pos (UInt32.lt_iff_toNat_lt.mpr ?_)
      show c.toNat < 65536
      omega
  rw [Js.length, List.map_congr_left hunits, ← String.length_toList]
  simp

theorem validateLabName_ok (s : String) :
    Agent.validateLabName s = .ok s ↔ Agent.matchesLine Agent.labNameChars s = true := by
  unfold Agent.validateLabName
  split <;> simp_all

theorem validateImage_ok (s : String) : Agent.validateImage s = .ok s ↔
    Agent.matchesLine Agent.imageChars s = true ∧ s.length ≤ 256 := by
  unfold Agent.validateImage
  split
  case isTrue h => simp only [reduceCtorEq, false_iff]; grind
  case isFalse h => simp only [true_iff]; grind

/-- **The two sides accept the same names**, but for a line feed behind an accepted name: such a
text the agent accepts alone. -/
theorem names_agree_iff (s : String) :
    ((isValidLabName s = true ↔ Agent.validateLabName s = .ok s) ↔
      ¬ ∃ t, s = t ++ "\n" ∧ isValidLabName t = true) ∧
    ((isUsername s = true ↔ Agent.validateUsername s = .ok ()) ↔
      ¬ ∃ t, s = t ++ "\n" ∧ isUsername t = true) ∧
    ((dockerImage s = true ∧ Js.length s ≤ 256 ↔ Agent.validateImage s = .ok s) ↔
      ¬ ∃ t, s = t ++ "\n" ∧ dockerImage t = true ∧ t.length ≤ 255) := by
  have hlab := fun t => (controller_search t).1
  have huser := fun t => (controller_search t).2.1
  have himage := fun t => (controller_search t).2.2
  refine ⟨?_, ?_, ?_⟩
  · rw [validateLabName_ok, (agent_match s).1]
    simp only [hlab]
    exact engines_agree_iff rfl rfl accepts_agentLab (by decide) s
  · rw [Agent.validateUsername_eq_ok, (agent_match s).2.1]
    simp only [huser]
    exact engines_agree_iff rfl rfl (fun _ => Iff.rfl) (by decide) s
  · have hboth : dockerImage s = true ∧ Js.length s ≤ 256 ↔
        dockerImage s = true ∧ s.length ≤ 256 :=
      and_congr_right fun h => by rw [length_of_dockerImage h]
    rw [hboth, validateImage_ok, (agent_match s).2.2]
    simp only [himage]
    have hlength : ∀ t, s = t ++ "\n" → s.length = t.length + 1 := by
      rintro t rfl
      rw [String.length_append]
      rfl
    by_cases hlen : s.length ≤ 256
    · simp only [hlen, and_true]
      refine (engines_agree_iff rfl rfl (fun _ => Iff.rfl) (by decide) s).trans ?_
      refine not_congr (exists_congr fun t => and_congr_right fun hs => ?_)
      have := hlength t hs
      exact (and_iff_left (by omega)).symm
    · -- both refuse a text that is too long
      refine iff_of_true (by simp only [hlen, and_false]) ?_
      rintro ⟨t, hs, -, ht⟩
      have := hlength t hs
      omega

/-- A lab, a user and an image with a line feed behind their names. -/
theorem line_feed_accepted :
    ¬ (isValidLabName "bio\n" = true ↔ Agent.validateLabName "bio\n" = .ok "bio\n") ∧
    ¬ (isUsername "alice\n" = true ↔ Agent.validateUsername "alice\n" = .ok ()) ∧
    ¬ (dockerImage "ubuntu:24.04\n" = true ∧ Js.length "ubuntu:24.04\n" ≤ 256 ↔
      Agent.validateImage "ubuntu:24.04\n" = .ok "ubuntu:24.04\n") := by
  decide +kernel

end MassDeployment

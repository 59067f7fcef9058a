import Mathlib.Data.List.Basic

set_option autoImplicit false

/-! # Regular expressions with anchors

The fragment of regular expressions that validators are written in: sets of characters, literal
texts, concatenation, counted repetition and the anchors `^` and `$`. The engines differ in `$`:
without flags it holds at the end of the text only, or, in the other dialect, also in front of a
line feed that ends the text.

`Matches d r pre s post` says that `r` matches the part `s` of the text `pre ++ s ++ post`.
-/

inductive Regex where
  /-- `^` -/
  | start
  /-- `$` -/
  | finish
  /-- A set of characters, given by its ranges. -/
  | set (ranges : List (Char × Char))
  | text (t : String)
  | seq (r s : Regex)
  /-- `r{least,most}`; no `most` where the repetition is not bounded. -/
  | rep (r : Regex) (least : Nat) (most : Option Nat)

namespace Regex

/-- What `$` asks of the text behind it. -/
inductive Dialect where
  | end
  | endOrLastLineFeed

def Dialect.atEnd : Dialect → List Char → Prop
  | .end, post => post = []
  | .endOrLastLineFeed, post => post = [] ∨ post = ['\n']

def inRanges (ranges : List (Char × Char)) (c : Char) : Bool :=
  ranges.any fun range => range.1 ≤ c && c ≤ range.2

/-- A relation that holds `k` times in succession. -/
def Times (R : List Char → List Char → List Char → Prop) :
    Nat → List Char → List Char → List Char → Prop
  | 0, _, s, _ => s = []
  | k + 1, pre, s, post => ∃ a b, s = a ++ b ∧ R pre a (b ++ post) ∧ Times R k (pre ++ a) b post

def Matches (d : Dialect) : Regex → List Char → List Char → List Char → Prop
  | .start, pre, s, _ => pre = [] ∧ s = []
  | .finish, _, s, post => s = [] ∧ d.atEnd post
  | .set ranges, _, s, _ => ∃ c, s = [c] ∧ inRanges ranges c = true
  | .text t, _, s, _ => s = t.toList
  | .seq r r', pre, s, post =>
    ∃ a b, s = a ++ b ∧ Matches d r pre a (b ++ post) ∧ Matches d r' (pre ++ a) b post
  | .rep r least most, pre, s, post =>
    ∃ k, least ≤ k ∧ (∀ m ∈ most, k ≤ m) ∧ Times (Matches d r) k pre s post

/-- A match anywhere in the text. -/
def Search (d : Dialect) (r : Regex) (s : List Char) : Prop :=
  ∃ pre m post, s = pre ++ m ++ post ∧ Matches d r pre m post

/-- A match that begins at the start of the text. -/
def MatchStart (d : Dialect) (r : Regex) (s : List Char) : Prop :=
  ∃ m post, s = m ++ post ∧ Matches d r [] m post

/-- `^r$`. -/
def anchored (r : Regex) : Regex := .seq .start (.seq r .finish)

/-! ## Expressions without anchors -/

def plain : Regex → Bool
  | .start | .finish => false
  | .set _ | .text _ => true
  | .seq r r' => r.plain && r'.plain
  | .rep r _ _ => r.plain

/-- The whole of a text is matched. -/
def Accepts (r : Regex) (s : List Char) : Prop := Matches .end r [] s []

theorem times_congr {R R' : List Char → List Char → List Char → Prop}
    (h : ∀ pre s post pre' post', R pre s post ↔ R' pre' s post') (k : Nat) :
    ∀ s pre post pre' post', Times R k pre s post ↔ Times R' k pre' s post' := by
  induction k with
  | zero => exact fun _ _ _ _ _ => Iff.rfl
  | succ k ih =>
      intro s pre post pre' post'
      constructor
      · rintro ⟨a, b, hs, ha, hb⟩
        exact ⟨a, b, hs, (h ..).mp ha, (ih ..).mp hb⟩
      · rintro ⟨a, b, hs, ha, hb⟩
        exact ⟨a, b, hs, (h ..).mpr ha, (ih ..).mpr hb⟩

/-- Without anchors neither the dialect nor what is around a match matters. -/
theorem matches_plain {r : Regex} (hr : r.plain = true) (d d' : Dialect) :
    ∀ pre s post pre' post', Matches d r pre s post ↔ Matches d' r pre' s post' := by
  induction r with
  | start => cases hr
  | finish => cases hr
  | set ranges => exact fun _ _ _ _ _ => Iff.rfl
  | text t => exact fun _ _ _ _ _ => Iff.rfl
  | seq r r' ih ih' =>
      obtain ⟨h, h'⟩ := Bool.and_eq_true_iff.mp hr
      intro pre s post pre' post'
      constructor
      · rintro ⟨a, b, hs, ha, hb⟩
        exact ⟨a, b, hs, (ih h ..).mp ha, (ih' h' ..).mp hb⟩
      · rintro ⟨a, b, hs, ha, hb⟩
        exact ⟨a, b, hs, (ih h ..).mpr ha, (ih' h' ..).mpr hb⟩
  | rep r least most ih =>
      intro pre s post pre' post'
      refine exists_congr fun k => and_congr_right fun _ => and_congr_right fun _ => ?_
      exact times_congr (ih hr) k ..

theorem matches_iff_accepts {r : Regex} (hr : r.plain = true) {d : Dialect}
    {pre s post : List Char} : Matches d r pre s post ↔ Accepts r s :=
  matches_plain hr ..

/-- With anchors on both sides the dialect decides what may be left. -/
theorem matches_anchored {r : Regex} (hr : r.plain = true) {d : Dialect}
    {pre s post : List Char} :
    Matches d r.anchored pre s post ↔ pre = [] ∧ Accepts r s ∧ d.atEnd post := by
  constructor
  · rintro ⟨a, b, rfl, ⟨rfl, rfl⟩, a', b', rfl, ha', rfl, hpost⟩
    refine ⟨rfl, ?_, hpost⟩
    rw [List.nil_append, List.append_nil]
    exact (matches_iff_accepts hr).mp ha'
  · rintro ⟨rfl, hs, hpost⟩
    refine ⟨[], s, rfl, ⟨rfl, rfl⟩, s, [], (List.append_nil s).symm, ?_, rfl, hpost⟩
    exact (matches_iff_accepts hr).mpr hs

theorem search_anchored {r : Regex} (hr : r.plain = true) {s : List Char} :
    Search .end r.anchored s ↔ Accepts r s := by
  constructor
  · rintro ⟨pre, m, post, rfl, h⟩
    obtain ⟨rfl, hm, hpost⟩ := (matches_anchored hr).mp h
    obtain rfl : post = [] := hpost
    simpa using hm
  · intro h
    exact ⟨[], s, [], by simp, (matches_anchored hr).mpr ⟨rfl, h, rfl⟩⟩

theorem matchStart_anchored {r : Regex} (hr : r.plain = true) {s : List Char} :
    MatchStart .endOrLastLineFeed r.anchored s ↔
      Accepts r s ∨ ∃ t, s = t ++ ['\n'] ∧ Accepts r t := by
  constructor
  · rintro ⟨m, post, rfl, h⟩
    obtain ⟨-, hm, rfl | rfl⟩ := (matches_anchored hr).mp h
    · exact .inl (by simpa using hm)
    · exact .inr ⟨m, rfl, hm⟩
  · rintro (h | ⟨t, rfl, h⟩)
    · exact ⟨s, [], (List.append_nil s).symm, (matches_anchored hr).mpr ⟨rfl, h, .inl rfl⟩⟩
    · exact ⟨t, ['\n'], rfl, (matches_anchored hr).mpr ⟨rfl, h, .inr rfl⟩⟩

/-! ## What is accepted -/

theorem accepts_seq {r r' : Regex} (h : r.plain = true) (h' : r'.plain = true) {s : List Char} :
    Accepts (.seq r r') s ↔ ∃ a b, s = a ++ b ∧ Accepts r a ∧ Accepts r' b := by
  refine exists_congr fun a => exists_congr fun b => and_congr_right fun _ => ?_
  exact and_congr (matches_iff_accepts h) (matches_iff_accepts h')

theorem times_set {d : Dialect} {ranges : List (Char × Char)} {k : Nat} :
    ∀ {pre s post : List Char}, Times (Matches d (.set ranges)) k pre s post ↔
      s.length = k ∧ s.all (inRanges ranges) = true := by
  induction k with
  | zero =>
      intro pre s post
      constructor
      · rintro rfl
        exact ⟨rfl, rfl⟩
      · rintro ⟨h, -⟩
        exact List.length_eq_zero_iff.mp h
  | succ k ih =>
      intro pre s post
      constructor
      · rintro ⟨a, b, rfl, ⟨c, rfl, hc⟩, hb⟩
        obtain ⟨hlen, hall⟩ := ih.mp hb
        simp [hlen, hall, hc]
      · rintro ⟨hlen, hall⟩
        cases s with
        | nil => cases hlen
        | cons c s =>
            obtain ⟨hc, hall⟩ := Bool.and_eq_true_iff.mp hall
            exact ⟨[c], s, rfl, ⟨c, rfl, hc⟩, ih.mpr ⟨Nat.succ.inj hlen, hall⟩⟩

/-- A repeated set. -/
theorem accepts_rep_set {ranges : List (Char × Char)} {least : Nat} {most : Option Nat}
    {s : List Char} : Accepts (.rep (.set ranges) least most) s ↔
      s.all (inRanges ranges) = true ∧ least ≤ s.length ∧ ∀ m ∈ most, s.length ≤ m := by
  constructor
  · rintro ⟨k, hleast, hmost, h⟩
    obtain ⟨rfl, hall⟩ := times_set.mp h
    exact ⟨hall, hleast, hmost⟩
  · rintro ⟨hall, hleast, hmost⟩
    exact ⟨s.length, hleast, hmost, times_set.mpr ⟨rfl, hall⟩⟩

/-- One character, and what may follow it. -/
theorem accepts_set_seq {ranges : List (Char × Char)} {r : Regex} (hr : r.plain = true)
    {s : List Char} : Accepts (.seq (.set ranges) r) s ↔
      ∃ c rest, s = c :: rest ∧ inRanges ranges c = true ∧ Accepts r rest := by
  rw [accepts_seq rfl hr]
  constructor
  · rintro ⟨_, rest, rfl, ⟨c, rfl, hc⟩, hrest⟩
    exact ⟨c, rest, rfl, hc, hrest⟩
  · rintro ⟨c, rest, rfl, hc, hrest⟩
    exact ⟨[c], rest, rfl, ⟨c, rfl, hc⟩, hrest⟩

/-- A name: one character of a set, and a bounded number of another one. -/
theorem accepts_name {head tail : List (Char × Char)} {n : Nat} {s : List Char} :
    Accepts (.seq (.set head) (.rep (.set tail) 0 (some n))) s ↔
      ∃ c rest, s = c :: rest ∧ inRanges head c = true ∧
        rest.all (inRanges tail) = true ∧ rest.length ≤ n := by
  rw [accepts_set_seq rfl]
  simp only [accepts_rep_set, Nat.zero_le, true_and, Option.mem_def, Option.some.injEq,
    forall_eq']

/-- `r?`. -/
theorem accepts_opt {r : Regex} (hr : r.plain = true) {s : List Char} :
    Accepts (.rep r 0 (some 1)) s ↔ s = [] ∨ Accepts r s := by
  constructor
  · rintro ⟨k, -, hmost, h⟩
    have hk := hmost 1 rfl
    match k, h with
    | 0, h => exact .inl h
    | 1, ⟨a, b, hs, ha, hb⟩ =>
        obtain rfl : b = [] := hb
        rw [hs, List.append_nil]
        exact .inr ((matches_iff_accepts hr).mp ha)
  · rintro (rfl | h)
    · exact ⟨0, Nat.le_refl 0, by simp, rfl⟩
    · refine ⟨1, Nat.zero_le 1, by simp, s, [], (List.append_nil s).symm, ?_, rfl⟩
      exact (matches_iff_accepts hr).mpr h

/-- A run of a set in front of what cannot begin with a character of the set is the longest one. -/
theorem split_run_iff {p : Char → Bool} {P Q : List Char → Prop} {s : List Char}
    (hQ : ∀ c rest, Q (c :: rest) → p c = false) :
    (∃ a b, s = a ++ b ∧ (a.all p = true ∧ P a) ∧ Q b) ↔
      P (s.takeWhile p) ∧ Q (s.dropWhile p) := by
  constructor
  · rintro ⟨a, b, rfl, ⟨ha, hP⟩, hb⟩
    have hall := List.all_eq_true.mp ha
    have hrun : b.takeWhile p = [] ∧ b.dropWhile p = b := by
      cases b with
      | nil => exact ⟨rfl, rfl⟩
      | cons c rest =>
          have hc : ¬ p c = true := by simp [hQ c rest hb]
          exact ⟨List.takeWhile_cons_of_neg hc, List.dropWhile_cons_of_neg hc⟩
    rw [List.takeWhile_append_of_pos hall, List.dropWhile_append_of_pos hall, hrun.1, hrun.2,
      List.append_nil]
    exact ⟨hP, hb⟩
  · rintro ⟨hP, hQ⟩
    exact ⟨s.takeWhile p, s.dropWhile p, List.takeWhile_append_dropWhile.symm,
      ⟨List.all_takeWhile, hP⟩, hQ⟩

/-! ## Characters that no match has -/

/-- No set and no text has the character. -/
def avoids (c : Char) : Regex → Bool
  | .start | .finish => true
  | .set ranges => !inRanges ranges c
  | .text t => !t.toList.contains c
  | .seq r r' => r.avoids c && r'.avoids c
  | .rep r _ _ => r.avoids c

theorem not_mem_of_times {R : List Char → List Char → List Char → Prop} {c : Char}
    (hR : ∀ pre s post, R pre s post → c ∉ s) (k : Nat) :
    ∀ pre s post, Times R k pre s post → c ∉ s := by
  induction k with
  | zero =>
      rintro _ _ _ rfl
      exact List.not_mem_nil
  | succ k ih =>
      rintro _ _ _ ⟨a, b, rfl, ha, hb⟩ hc
      rcases List.mem_append.mp hc with hc | hc
      · exact hR _ _ _ ha hc
      · exact ih _ _ _ hb hc

theorem not_mem_of_matches {d : Dialect} {c : Char} {r : Regex} (hr : r.avoids c = true) :
    ∀ pre s post, Matches d r pre s post → c ∉ s := by
  induction r with
  | start =>
      rintro _ _ _ ⟨-, rfl⟩
      exact List.not_mem_nil
  | finish =>
      rintro _ _ _ ⟨rfl, -⟩
      exact List.not_mem_nil
  | set ranges =>
      rintro _ _ _ ⟨c', rfl, hc'⟩ hc
      rw [List.mem_singleton.mp hc] at hr
      simp [avoids, hc'] at hr
  | text t =>
      rintro _ _ _ rfl hc
      simp [avoids, hc] at hr
  | seq r r' ih ih' =>
      obtain ⟨h, h'⟩ := Bool.and_eq_true_iff.mp hr
      rintro _ _ _ ⟨a, b, rfl, ha, hb⟩ hc
      rcases List.mem_append.mp hc with hc | hc
      · exact ih h _ _ _ ha hc
      · exact ih' h' _ _ _ hb hc
  | rep r least most ih =>
      rintro pre s post ⟨k, -, -, h⟩
      exact not_mem_of_times (ih hr) k pre s post h

end Regex

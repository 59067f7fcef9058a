import Mathlib

set_option autoImplicit false

/-! # Sizes as text, in binary units

A size is divided by 1024 until it is below 1024 or the units are used up, and shown with one
decimal place. What two such texts can differ in is the rounding of a size halfway between two
numerals.
-/

namespace ByteText

/-! ## Rounding -/

/-- To the nearest integer, and up from halfway. -/
def roundUp (x : ℚ) : Int := ⌊x + 1 / 2⌋

/-- To the nearest integer, and to the even one from halfway. -/
def roundEven (x : ℚ) : Int :=
  if x < ⌊x⌋ + 1 / 2 then ⌊x⌋
  else if ⌊x⌋ + 1 / 2 < x then ⌊x⌋ + 1
  else if ⌊x⌋ % 2 = 0 then ⌊x⌋ else ⌊x⌋ + 1

theorem floor_eq_of {x : ℚ} {n : Int} (hle : (n : ℚ) ≤ x) (hlt : x < n + 1) : ⌊x⌋ = n :=
  Int.floor_eq_iff.mpr ⟨hle, hlt⟩

theorem roundUp_of_lt {x : ℚ} (h : x < ⌊x⌋ + 1 / 2) : roundUp x = ⌊x⌋ := by
  have hle : (⌊x⌋ : ℚ) ≤ x := Int.floor_le x
  exact floor_eq_of (by linarith) (by linarith)

theorem roundUp_of_le {x : ℚ} (h : ⌊x⌋ + 1 / 2 ≤ x) : roundUp x = ⌊x⌋ + 1 := by
  have hlt : x < ⌊x⌋ + 1 := Int.lt_floor_add_one x
  refine floor_eq_of ?_ ?_
  · push_cast
    linarith
  · push_cast
    linarith

/-- The two roundings differ halfway above an even integer, and there only. -/
theorem roundUp_eq_roundEven {x : ℚ} :
    roundUp x = roundEven x ↔ ¬ ∃ n : Int, x = n + 1 / 2 ∧ n % 2 = 0 := by
  have hfloor : ∀ n : Int, x = n + 1 / 2 → ⌊x⌋ = n := fun n hn =>
    floor_eq_of (by rw [hn]; linarith) (by rw [hn]; linarith)
  unfold roundEven
  split
  · rename_i hlt
    refine iff_of_true (roundUp_of_lt hlt) ?_
    rintro ⟨n, hn, -⟩
    rw [hfloor n hn, hn] at hlt
    exact lt_irrefl _ hlt
  rename_i hge
  replace hge := not_lt.mp hge
  rw [roundUp_of_le hge]
  split
  · rename_i hgt
    refine iff_of_true rfl ?_
    rintro ⟨n, hn, -⟩
    rw [hfloor n hn, hn] at hgt
    exact lt_irrefl _ hgt
  rename_i hle
  have heq : x = ⌊x⌋ + 1 / 2 := le_antisymm (not_lt.mp hle) hge
  split
  · rename_i heven
    refine iff_of_false (by omega) fun h => h ⟨⌊x⌋, heq, heven⟩
  · rename_i hodd
    refine iff_of_true rfl ?_
    rintro ⟨n, hn, heven⟩
    exact hodd (hfloor n hn ▸ heven)

theorem roundUp_intCast (n : Int) : roundUp n = n :=
  floor_eq_of (by linarith) (by linarith)

theorem roundEven_intCast (n : Int) : roundEven n = n := by
  unfold roundEven
  rw [Int.floor_intCast, if_pos (by linarith)]

theorem roundUp_nonneg {x : ℚ} (h : 0 ≤ x) : 0 ≤ roundUp x :=
  Int.floor_nonneg.mpr (by linarith)

theorem roundEven_nonneg {x : ℚ} (h : 0 ≤ x) : 0 ≤ roundEven x := by
  have hfloor : 0 ≤ ⌊x⌋ := Int.floor_nonneg.mpr h
  unfold roundEven
  split <;> [skip; split <;> [skip; split]] <;> omega

/-! ## Numerals -/

def sign (x : ℚ) : String := if x < 0 then "-" else ""

/-- The numeral of a number of tenths. -/
def tenths (t : Nat) : String := (t / 10).repr ++ "." ++ (t % 10).repr

/-- The numeral with one decimal place. -/
def fixed1 (round : ℚ → Int) (x : ℚ) : String := sign x ++ tenths (round (10 * |x|)).toNat

theorem length_digit {d : Nat} (h : d < 10) : d.repr.toList.length = 1 := by
  rw [Nat.toList_repr, Nat.toDigits_of_lt_base h]
  rfl

theorem tenths_inj {s t : Nat} (h : tenths s = tenths t) : s = t := by
  have hlist : ((s / 10).repr ++ ".").toList ++ (s % 10).repr.toList =
      ((t / 10).repr ++ ".").toList ++ (t % 10).repr.toList := by
    rw [← String.toList_append, ← String.toList_append]
    exact congrArg String.toList h
  have hlength : (s % 10).repr.toList.length = (t % 10).repr.toList.length := by
    rw [length_digit (Nat.mod_lt _ (by decide)), length_digit (Nat.mod_lt _ (by decide))]
  obtain ⟨hwhole, hdigit⟩ := List.append_inj' hlist hlength
  rw [String.toList_append, String.toList_append] at hwhole
  have hquot : s / 10 = t / 10 :=
    Nat.repr_inj.mp (String.toList_injective (List.append_cancel_right hwhole))
  have hrem : s % 10 = t % 10 := Nat.repr_inj.mp (String.toList_injective hdigit)
  omega

theorem fixed1_eq_iff {round round' : ℚ → Int} {x : ℚ} (h : 0 ≤ round (10 * |x|))
    (h' : 0 ≤ round' (10 * |x|)) :
    fixed1 round x = fixed1 round' x ↔ round (10 * |x|) = round' (10 * |x|) := by
  constructor
  · intro heq
    have hlist := congrArg String.toList heq
    unfold fixed1 at hlist
    rw [String.toList_append, String.toList_append] at hlist
    have hnat := tenths_inj (String.toList_injective (List.append_cancel_left hlist))
    omega
  · intro heq
    unfold fixed1
    rw [heq]

/-- A whole number, rounded up from halfway. -/
def wholeUp (x : ℚ) : String := (roundUp x).repr

/-- A whole number, rounded to even from halfway, with the sign of what was rounded. -/
def wholeEven (x : ℚ) : String := sign x ++ (roundEven |x|).toNat.repr

theorem whole_intCast (n : Int) : wholeUp n = wholeEven n := by
  unfold wholeUp wholeEven sign
  have habs : |(n : ℚ)| = ((n.natAbs : Int) : ℚ) := by
    rw [Int.natCast_natAbs, Int.cast_abs]
  rw [roundUp_intCast, habs, roundEven_intCast, Int.toNat_natCast]
  cases n with
  | ofNat n =>
      rw [if_neg (by simp), String.empty_append]
      rfl
  | negSucc n =>
      rw [if_pos (by exact_mod_cast Int.negSucc_lt_zero n)]
      rfl

/-! ## Units -/

def units : List String := ["B", "KiB", "MiB", "GiB", "TiB"]

/-- The unit a size is shown in, and the size in this unit. -/
def scaled : List String → ℚ → String × ℚ
  | [], v => ("TiB", v)
  | unit :: rest, v =>
    if |v| < 1024 ∨ unit = "TiB" then (unit, v) else scaled rest (v / 1024)

/-- A size as text, bytes as a whole number and the other units with one decimal place. -/
def formatBytes (whole fixed1 : ℚ → String) (n : ℚ) : String :=
  let (unit, v) := scaled units n
  if unit = "B" then whole v ++ " " ++ unit else fixed1 v ++ " " ++ unit

/-- The unit is the one with this number. -/
structure InUnit (n : Nat) (i : Nat) : Prop where
  unit : i ≤ 4
  least : 0 < i → 1024 ^ i ≤ n
  greatest : i < 4 → n < 1024 ^ (i + 1)

theorem InUnit.unique {n i j : Nat} (hi : InUnit n i) (hj : InUnit n j) : i = j := by
  have hle : ∀ {i j}, InUnit n i → InUnit n j → i ≤ j := by
    intro i j hi hj
    by_contra hlt
    have hlt : j < i := by omega
    have h1 := hi.least (by omega)
    have h2 := hj.greatest (by have := hi.unit; omega)
    have h3 : 1024 ^ (j + 1) ≤ 1024 ^ i := Nat.pow_le_pow_right (by decide) hlt
    omega
  exact le_antisymm (hle hi hj) (hle hj hi)

theorem scaled_units (n : Int) : ∃ i, InUnit n.natAbs i ∧
    scaled units n = (units.getD i "TiB", (n : ℚ) / 1024 ^ i) := by
  have habs : |(n : ℚ)| = (n.natAbs : ℚ) := by
    rw [← Int.cast_abs, Int.abs_eq_natAbs, Int.cast_natCast]
  have hbelow : ∀ i : Nat, |(n : ℚ) / 1024 ^ i| < 1024 ↔ n.natAbs < 1024 ^ (i + 1) := by
    intro i
    rw [abs_div, habs, abs_of_pos (by positivity : (0 : ℚ) < 1024 ^ i),
      div_lt_iff₀ (by positivity), ← pow_succ']
    exact_mod_cast Iff.rfl
  have hnext : ∀ i : Nat, (n : ℚ) / 1024 ^ i / 1024 = n / 1024 ^ (i + 1) := by
    intro i
    rw [div_div, pow_succ]
  -- from the unit `i` on, for a size that is not below the unit
  have hfrom : ∀ k i : Nat, i + k = 4 → (0 < i → 1024 ^ i ≤ n.natAbs) →
      ∃ j, InUnit n.natAbs j ∧
        scaled (units.drop i) ((n : ℚ) / 1024 ^ i) = (units.getD j "TiB", (n : ℚ) / 1024 ^ j) := by
    intro k
    induction k with
    | zero =>
        intro i hi hleast
        obtain rfl : i = 4 := by omega
        refine ⟨4, ⟨le_refl 4, hleast, fun h => absurd h (by decide)⟩, ?_⟩
        exact if_pos (.inr rfl)
    | succ k ih =>
        intro i hi hleast
        have hunit : units.drop i = units.getD i "TiB" :: units.drop (i + 1) ∧
            units.getD i "TiB" ≠ "TiB" := by
          have hlt : i < 4 := by omega
          interval_cases i <;> decide
        rw [hunit.1, scaled]
        by_cases hlt : n.natAbs < 1024 ^ (i + 1)
        · exact ⟨i, ⟨by omega, hleast, fun _ => hlt⟩, if_pos (.inl ((hbelow i).mpr hlt))⟩
        · have hstop : ¬ (|(n : ℚ) / 1024 ^ i| < 1024 ∨ units.getD i "TiB" = "TiB") := by
            rintro (h | h)
            · exact hlt ((hbelow i).mp h)
            · exact hunit.2 h
          rw [if_neg hstop, hnext]
          exact ih (i + 1) (by omega) fun _ => not_lt.mp hlt
  have h := hfrom 4 0 rfl (fun h => absurd h (lt_irrefl 0))
  rwa [pow_zero, div_one] at h

/-- In its unit, the size is halfway above a numeral whose last digit is even. -/
def EvenTie (n : Int) : Prop :=
  ∃ i m : Nat, 0 < i ∧ InUnit n.natAbs i ∧ 20 * n.natAbs = (4 * m + 1) * 1024 ^ i

theorem not_evenTie_of_lt {n : Int} (h : n.natAbs < 1024) : ¬ EvenTie n := by
  rintro ⟨i, m, hpos, hunit, -⟩
  have hleast := hunit.least hpos
  have hpow : 1024 ^ 1 ≤ 1024 ^ i := Nat.pow_le_pow_right (by decide) hpos
  omega

/-- **Texts of a size.** They are the same in both roundings, unless the size is halfway above a
numeral whose last digit is even. -/
theorem formatBytes_eq_iff (n : Int) :
    formatBytes wholeUp (fixed1 roundUp) n = formatBytes wholeEven (fixed1 roundEven) n ↔
      ¬ EvenTie n := by
  obtain ⟨i, hi, hscaled⟩ := scaled_units n
  unfold formatBytes
  rw [hscaled]
  dsimp only
  rcases Nat.eq_zero_or_pos i with rfl | hpos
  · -- bytes are whole numbers
    have hbytes : units.getD 0 "TiB" = "B" := rfl
    rw [pow_zero, div_one, if_pos hbytes, if_pos hbytes, whole_intCast]
    refine iff_of_true rfl ?_
    rintro ⟨j, m, hj, hunit, -⟩
    exact absurd (hi.unique hunit) (by omega)
  have hunit : units.getD i "TiB" ≠ "B" := by
    have := hi.unit
    interval_cases i <;> decide
  rw [if_neg hunit, if_neg hunit]
  set x : ℚ := (n : ℚ) / 1024 ^ i with hx
  have hten : 10 * |x| = 10 * (n.natAbs : ℚ) / 1024 ^ i := by
    rw [hx, abs_div, ← Int.cast_abs, Int.abs_eq_natAbs, Int.cast_natCast,
      abs_of_pos (by positivity : (0 : ℚ) < 1024 ^ i), mul_div_assoc]
  have hnonneg : 0 ≤ 10 * |x| := by positivity
  have htexts : fixed1 roundUp x ++ " " ++ units.getD i "TiB" =
      fixed1 roundEven x ++ " " ++ units.getD i "TiB" ↔ fixed1 roundUp x = fixed1 roundEven x := by
    refine ⟨fun h => ?_, fun h => by rw [h]⟩
    have hlist := congrArg String.toList h
    simp only [String.toList_append, List.append_assoc] at hlist
    exact String.toList_injective (List.append_cancel_right hlist)
  rw [htexts, fixed1_eq_iff (roundUp_nonneg hnonneg) (roundEven_nonneg hnonneg),
    roundUp_eq_roundEven, hten]
  refine not_congr ⟨?_, ?_⟩
  · rintro ⟨k, hk, heven⟩
    have hpow : (0 : ℚ) < 1024 ^ i := by positivity
    have hk0 : 0 ≤ k := by
      by_contra hneg
      have hle : (k : ℚ) ≤ -1 := by exact_mod_cast (by omega : k ≤ -1)
      have hsize : 0 ≤ 10 * (n.natAbs : ℚ) / 1024 ^ i := by positivity
      linarith
    obtain ⟨m, rfl⟩ : ∃ m : Nat, k = 2 * m := ⟨(k / 2).toNat, by omega⟩
    refine ⟨i, m, hpos, hi, ?_⟩
    have heq : 10 * (n.natAbs : ℚ) = (2 * m + 1 / 2) * 1024 ^ i := by
      rw [div_eq_iff hpow.ne'] at hk
      exact_mod_cast hk
    have htwice : (20 : ℚ) * n.natAbs = (4 * m + 1) * 1024 ^ i := by linarith
    exact_mod_cast htwice
  · rintro ⟨j, m, -, hj, htie⟩
    obtain rfl : j = i := hj.unique hi
    refine ⟨2 * m, ?_, by omega⟩
    have hpow : (0 : ℚ) < 1024 ^ j := by positivity
    have htwice : (20 : ℚ) * n.natAbs = (4 * m + 1) * 1024 ^ j := by exact_mod_cast htie
    rw [div_eq_iff hpow.ne']
    push_cast
    linarith

end ByteText

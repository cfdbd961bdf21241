import Mathlib.Data.Nat.Dist
import Mathlib.Tactic.Ring
import Stencil.Number.Binary64

/-! Integers as binary floating point numbers. An integer becomes the nearest one that 53 binary digits suffice for and, of two
as near, the one that 52 suffice for, which is the one of even significand. -/

namespace Stencil.Number
open Binary64 (spacing)

/-- In base two the number has so many digits at most, and zeros behind them. -/
def Spans (digits n : Nat) : Prop := ∃ significand places, significand < 2 ^ digits ∧ n = significand * 2 ^ places

/-- The second number is the first one rounded, where no number is too large. -/
structure IsNearest (n r : Nat) : Prop where
  spans : Spans 53 r
  nearest : ∀ s, Spans 53 s → n.dist r ≤ n.dist s
  even : ∀ s, Spans 53 s → n.dist s = n.dist r → s ≠ r → Spans 52 r

theorem spans_of_le {digits significand : Nat} (some : 0 < digits) (bounded : significand ≤ 2 ^ digits) (places : Nat) :
    Spans digits (significand * 2 ^ places) := by
  rcases Nat.lt_or_eq_of_le bounded with below | rfl
  · exact ⟨significand, places, below, rfl⟩
  · exact ⟨1, digits + places, Nat.one_lt_two_pow some.ne', by rw [Nat.one_mul, Nat.pow_add]⟩

theorem spans_of_small {n : Nat} (small : n ≤ 2 ^ 53) : Spans 53 n := by
  simpa using spans_of_le (by decide) small 0

/-- A significand that needs all of 53 digits can do with 52 exactly if it is even. -/
theorem spans_iff_even {significand : Nat} (full : 2 ^ 52 ≤ significand) (bounded : significand ≤ 2 ^ 53) (places : Nat) :
    Spans 52 (significand * 2 ^ places) ↔ significand % 2 = 0 := by
  constructor
  · rintro ⟨short, places', fewer, same⟩
    have farther : places < places' := by
      by_contra near
      have longer : short * 2 ^ places' < significand * 2 ^ places :=
        Nat.mul_lt_mul_of_lt_of_le (by omega) (Nat.pow_le_pow_right (by decide) (by omega)) (Nat.two_pow_pos _)
      omega
    obtain ⟨more, rfl⟩ := Nat.exists_eq_add_of_lt farther
    have doubled : significand * 2 ^ places = short * 2 ^ more * 2 * 2 ^ places := by rw [same]; ring
    have halves := Nat.eq_of_mul_eq_mul_right (Nat.two_pow_pos places) doubled
    omega
  · intro even
    obtain ⟨half, rfl⟩ := Nat.dvd_of_mod_eq_zero even
    have moved : 2 * half * 2 ^ places = half * 2 ^ (places + 1) := by ring
    rw [moved]
    exact spans_of_le (by decide) (by omega) _

/-- A number in reach of its digits is its own rounding. -/
theorem isNearest_iff_of_spans {n r : Nat} (exact : Spans 53 n) : IsNearest n r ↔ r = n := by
  constructor
  · intro rounded
    have none := rounded.nearest n exact
    rw [Nat.dist_self] at none
    exact (Nat.eq_of_dist_eq_zero (Nat.le_zero.mp none)).symm
  · rintro rfl
    refine ⟨exact, by simp [Nat.dist_self], ?_⟩
    intro s _ same other
    rw [Nat.dist_self] at same
    exact absurd (Nat.eq_of_dist_eq_zero same).symm other

section
variable {n : Nat}

theorem spacing_eq (n : Nat) : spacing n = 2 ^ (n.log2 - 52) := rfl

theorem spacing_pos (n : Nat) : 0 < spacing n := Nat.two_pow_pos _

private theorem quotient_bounds (large : 2 ^ 52 ≤ n) : 2 ^ 52 ≤ n / spacing n ∧ n / spacing n < 2 ^ 53 := by
  have some : n ≠ 0 := by omega
  have digits : 52 ≤ n.log2 := (Nat.le_log2 some).mpr large
  have low : 2 ^ 52 * spacing n = 2 ^ n.log2 := by rw [spacing_eq, ← Nat.pow_add, Nat.add_sub_cancel' digits]
  have high : 2 ^ 53 * spacing n = 2 ^ (n.log2 + 1) := by rw [spacing_eq, ← Nat.pow_add]; congr 1; omega
  rw [Nat.le_div_iff_mul_le (spacing_pos n), Nat.div_lt_iff_lt_mul (spacing_pos n), low, high]
  exact ⟨Nat.log2_self_le some, Nat.lt_log2_self⟩

private theorem spacing_dvd {s : Nat} (spans : Spans 53 s) (large : 2 ^ 52 * spacing n ≤ s) : spacing n ∣ s := by
  obtain ⟨significand, places, bounded, rfl⟩ := spans
  have longer : 2 ^ (52 + (n.log2 - 52)) < 2 ^ (53 + places) := by
    rw [Nat.pow_add, Nat.pow_add]
    exact Nat.lt_of_le_of_lt large (Nat.mul_lt_mul_of_pos_right bounded (Nat.two_pow_pos places))
  have reach := (Nat.pow_lt_pow_iff_right (by decide)).mp longer
  exact Nat.dvd_mul_left_of_dvd (Nat.pow_dvd_pow 2 (by omega)) significand

private theorem beside (large : 2 ^ 52 ≤ n) {s : Nat} (spans : Spans 53 s) :
    s ≤ n / spacing n * spacing n ∨ (n / spacing n + 1) * spacing n ≤ s := by
  by_cases above : s ≤ n / spacing n * spacing n
  · exact .inl above
  right
  have past : 2 ^ 52 * spacing n ≤ s := by
    have fewest := Nat.mul_le_mul_right (spacing n) (quotient_bounds large).1
    omega
  obtain ⟨count, rfl⟩ := spacing_dvd spans past
  rw [Nat.mul_comm (spacing n)] at above ⊢
  exact Nat.mul_le_mul_right _ (Nat.lt_of_mul_lt_mul_right (Nat.lt_of_not_le above))

theorem roundHalfEven_cases (numerator denominator : Nat) :
    2 * (numerator % denominator) < denominator ∧ roundHalfEven numerator denominator = numerator / denominator ∨
      denominator < 2 * (numerator % denominator) ∧ roundHalfEven numerator denominator = numerator / denominator + 1 ∨
      2 * (numerator % denominator) = denominator ∧
        roundHalfEven numerator denominator = numerator / denominator + numerator / denominator % 2 := by
  unfold roundHalfEven
  dsimp only
  split
  next under => exact .inl ⟨under, rfl⟩
  next notUnder =>
    split
    next past => exact .inr (.inl ⟨past, rfl⟩)
    next notPast => exact .inr (.inr ⟨by omega, rfl⟩)

/-- Between two neighbours the nearer is nearest, and halfway the one of even significand. -/
private theorem isNearest_iff_between {n low high r : Nat} (reached : low ≤ n) (ahead : n < high) (below : Spans 53 low)
    (above : Spans 53 high) (sides : ∀ s, Spans 53 s → s ≤ low ∨ high ≤ s) (parity : Spans 52 low ∨ Spans 52 high)
    (odd : ¬ (Spans 52 low ∧ Spans 52 high)) : IsNearest n r ↔
      r = low ∧ (2 * n < low + high ∨ 2 * n = low + high ∧ Spans 52 low) ∨
        r = high ∧ (low + high < 2 * n ∨ 2 * n = low + high ∧ Spans 52 high) := by
  constructor
  · intro rounded
    have near := rounded.nearest low below
    have near' := rounded.nearest high above
    have side := sides r rounded.spans
    simp only [Nat.dist] at near near'
    obtain rfl | rfl : r = low ∨ r = high := by omega
    · refine .inl ⟨rfl, ?_⟩
      rcases Nat.lt_or_eq_of_le (show 2 * n ≤ r + high by omega) with nearer | tie
      · exact .inl nearer
      · exact .inr ⟨tie, rounded.even high above (by simp only [Nat.dist]; omega) (by omega)⟩
    · refine .inr ⟨rfl, ?_⟩
      rcases Nat.lt_or_eq_of_le (show low + r ≤ 2 * n by omega) with nearer | tie
      · exact .inl nearer
      · exact .inr ⟨tie.symm, rounded.even low below (by simp only [Nat.dist]; omega) (by omega)⟩
  · rintro (⟨rfl, chosen⟩ | ⟨rfl, chosen⟩)
    · refine ⟨below, ?_, ?_⟩
      · intro s spans
        have side := sides s spans
        simp only [Nat.dist]
        omega
      · intro s spans same other
        have side := sides s spans
        simp only [Nat.dist] at same
        exact (chosen.resolve_left (by omega)).2
    · refine ⟨above, ?_, ?_⟩
      · intro s spans
        have side := sides s spans
        simp only [Nat.dist]
        omega
      · intro s spans same other
        have side := sides s spans
        simp only [Nat.dist] at same
        exact (chosen.resolve_left (by omega)).2

/-- The neighbours of a large number are the multiples of the spacing below it and above it. -/
private theorem isNearest_iff_of_large (large : 2 ^ 52 ≤ n) (r : Nat) :
    IsNearest n r ↔ r = roundHalfEven n (spacing n) * spacing n := by
  obtain ⟨full, bounded⟩ := quotient_bounds large
  have split := Nat.div_add_mod' n (spacing n)
  have rest := Nat.mod_lt n (spacing_pos n)
  have next : (n / spacing n + 1) * spacing n = n / spacing n * spacing n + spacing n := Nat.succ_mul _ _
  have even : Spans 52 (n / spacing n * spacing n) ↔ n / spacing n % 2 = 0 := spans_iff_even full bounded.le _
  have odd : Spans 52 ((n / spacing n + 1) * spacing n) ↔ (n / spacing n + 1) % 2 = 0 :=
    spans_iff_even (by omega) bounded _
  have between := @isNearest_iff_between n (n / spacing n * spacing n) ((n / spacing n + 1) * spacing n) r (by omega) (by omega)
    (spans_of_le (by decide) bounded.le _) (spans_of_le (by decide) bounded _) (fun s => beside large)
    (by rw [even, odd]; omega) (by rw [even, odd]; omega)
  rw [between, even, odd]
  rcases roundHalfEven_cases n (spacing n) with ⟨under, chosen⟩ | ⟨past, chosen⟩ | ⟨tie, chosen⟩
  · rw [chosen]
    omega
  · rw [chosen]
    omega
  · rcases Nat.mod_two_eq_zero_or_one (n / spacing n) with last | last
    · rw [last, Nat.add_zero] at chosen
      rw [chosen]
      omega
    · rw [last] at chosen
      rw [chosen]
      omega

end

theorem roundHalfEven_exact {denominator : Nat} (some : 0 < denominator) (count : Nat) :
    roundHalfEven (count * denominator) denominator = count := by
  rw [roundHalfEven, Nat.mul_mod_left, Nat.mul_div_left count some]
  exact if_pos some

theorem roundHalfEven_scale {factor : Nat} (some : 0 < factor) (numerator denominator : Nat) :
    roundHalfEven (factor * numerator) (factor * denominator) = roundHalfEven numerator denominator := by
  simp only [roundHalfEven, Nat.mul_div_mul_left _ _ some, Nat.mul_mod_mul_left, Nat.mul_left_comm 2 factor,
    Nat.mul_lt_mul_left some]

theorem roundHalfEven_one (n : Nat) : roundHalfEven n 1 = n := by
  have exact := roundHalfEven_exact Nat.one_pos n
  rwa [Nat.mul_one] at exact

theorem isNearest_iff {n r : Nat} : IsNearest n r ↔ r = roundHalfEven n (spacing n) * spacing n := by
  rcases Nat.lt_or_ge n (2 ^ 52) with small | large
  · have one : spacing n = 1 := by
      have digits : n.log2 ≤ 52 := by
        rcases Nat.eq_zero_or_pos n with rfl | some
        · decide
        · exact ((Nat.log2_lt some.ne').mpr small).le
      rw [spacing_eq, Nat.sub_eq_zero_of_le digits, Nat.pow_zero]
    rw [isNearest_iff_of_spans (spans_of_small (by omega)), one, roundHalfEven_one, Nat.mul_one]
  · exact isNearest_iff_of_large large r

namespace Binary64

def integersBeyond : Nat := Nat.pow 2 1024

theorem unitsPerOne_pos : 0 < unitsPerOne := by decide +kernel

theorem integersBeyond_pos : 0 < integersBeyond := by decide +kernel

theorem unitsBeyond_eq : unitsBeyond = integersBeyond * unitsPerOne := by decide +kernel

private theorem log2_scaled {n : Nat} (some : n ≠ 0) (places : Nat) : (n * 2 ^ places).log2 = n.log2 + places := by
  rw [Nat.log2_eq_iff (Nat.mul_ne_zero some (Nat.two_pow_pos places).ne'), Nat.add_right_comm, Nat.pow_add, Nat.pow_add]
  exact ⟨Nat.mul_le_mul_right _ (Nat.log2_self_le some), Nat.mul_lt_mul_of_pos_right Nat.lt_log2_self (Nat.two_pow_pos places)⟩

/-- In smaller units an integer has more digits, but it is rounded at the same place. -/
private theorem round_scaled {n places : Nat} (some : n ≠ 0) (enough : 52 ≤ places) :
    roundHalfEven (n * Nat.pow 2 places) (spacing (n * Nat.pow 2 places)) * spacing (n * Nat.pow 2 places) =
      roundHalfEven n (spacing n) * spacing n * Nat.pow 2 places := by
  rw [Nat.pow_eq, spacing_eq (n * 2 ^ places), log2_scaled some, spacing_eq n]
  rcases Nat.le_total n.log2 52 with short | long
  · have parts : 2 ^ places = 2 ^ (52 - n.log2) * 2 ^ (n.log2 + places - 52) := by
      rw [← Nat.pow_add]
      congr 1
      omega
    rw [Nat.sub_eq_zero_of_le short, Nat.pow_zero, roundHalfEven_one, Nat.mul_one, parts, ← Nat.mul_assoc,
      roundHalfEven_exact (Nat.two_pow_pos _)]
  · have parts : 2 ^ (n.log2 + places - 52) = 2 ^ places * 2 ^ (n.log2 - 52) := by
      rw [← Nat.pow_add]
      congr 1
      omega
    rw [parts, Nat.mul_comm n, roundHalfEven_scale (Nat.two_pow_pos places)]
    ring

theorem ofDecimal_integer (n : Nat) : ofDecimal false n 0 =
    if roundHalfEven n (spacing n) * spacing n < integersBeyond then
      .finite false (roundHalfEven n (spacing n) * spacing n * unitsPerOne)
    else .infinite false := by
  rcases Nat.eq_zero_or_pos n with rfl | some
  · have nothing : roundHalfEven 0 (spacing 0) * spacing 0 = 0 := rfl
    rw [nothing, Nat.zero_mul, if_pos integersBeyond_pos]
    rfl
  have near : ¬ (decide (n = 0) || decide ((0 : Int) + n.log2 < -400)) = true := by
    simp only [some.ne', decide_false, Bool.false_or, decide_eq_true_eq]
    omega
  have opened : ofDecimal false n 0 = nearest false (n * 1) 1 := by
    rw [ofDecimal.eq_def, if_neg near, if_neg (by decide)]
  obtain ⟨places, enough, same⟩ : ∃ places, 52 ≤ places ∧ unitsPerOne = Nat.pow 2 places :=
    ⟨1074, by decide, by decide +kernel⟩
  have units := round_scaled some.ne' enough
  rw [← same] at units
  rw [opened, nearest]
  simp only [Nat.mul_one, Nat.div_one, Nat.one_mul, units, unitsBeyond_eq, Nat.mul_lt_mul_right unitsPerOne_pos]

/-- An integer equals a numeral without point and exponent exactly if it is that rounded and not too large. -/
theorem equalsInt_ofDecimal (n m : Nat) :
    (ofDecimal false n 0).equalsInt m = true ↔ IsNearest n m ∧ m < integersBeyond := by
  rw [ofDecimal_integer, isNearest_iff]
  generalize roundHalfEven n (spacing n) * spacing n = rounded
  split
  next finite =>
    have factor : (unitsPerOne : Int) ≠ 0 := Int.natCast_ne_zero.mpr unitsPerOne_pos.ne'
    simp only [equalsInt, toUnits?, Bool.false_eq_true, if_false, Option.some.injEq, decide_eq_true_eq]
    push_cast
    rw [mul_left_inj' factor]
    omega
  next infinite =>
    simp only [equalsInt, toUnits?, reduceCtorEq, decide_false, Bool.false_eq_true, false_iff, not_and, not_lt]
    rintro rfl
    omega

end Binary64
end Stencil.Number

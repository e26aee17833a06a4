import Mathlib.Algebra.Order.Floor.Ring
import Mathlib.Data.Int.Log
import Mathlib.Data.Rat.Floor
import Mathlib.Tactic.FieldSimp
import Mathlib.Tactic.Linarith
import Mathlib.Tactic.Positivity

/-! Rounding of nonnegative rationals to double-precision floats. -/

namespace Binary64

/-- To the nearest integer, of two the even one. -/
def roundEven (q : ℚ) : ℤ :=
  if q - ⌊q⌋ < 1 / 2 then ⌊q⌋
  else if 1 / 2 < q - ⌊q⌋ then ⌊q⌋ + 1
  else ⌊q⌋ + ⌊q⌋ % 2

/-- The exponent of the spacing of the floats around a number: 53 significant bits, and no less
than the spacing of the subnormal floats. -/
def exponent (q : ℚ) : ℤ := max (Int.log 2 q - 52) (-1074)

/-- The nearest float, unless that is infinite. -/
def nearest (q : ℚ) : Option ℚ :=
  let d : ℚ := roundEven (q / 2 ^ exponent q) * 2 ^ exponent q
  if d < 2 ^ 1024 then some d else none

/-- The nonnegative floats of any magnitude. -/
def IsFloat (q : ℚ) : Prop := ∃ (m : ℕ) (e : ℤ), m < 2 ^ 53 ∧ -1074 ≤ e ∧ q = m * 2 ^ e

variable {q d : ℚ}

@[simp] theorem roundEven_intCast (k : ℤ) : roundEven (k : ℚ) = k := by simp [roundEven]

theorem le_roundEven {k : ℤ} (h : (k : ℚ) ≤ q) : k ≤ roundEven q := by
  have hfloor : k ≤ ⌊q⌋ := Int.le_floor.mpr h
  unfold roundEven
  split
  · exact hfloor
  · split
    · omega
    · omega

theorem roundEven_le {k : ℤ} (h : q ≤ k) : roundEven q ≤ k := by
  have hfloor : ⌊q⌋ ≤ k := Int.floor_le_iff.mpr (by linarith)
  unfold roundEven
  split
  · exact hfloor
  · rename_i hhalf
    have hlt : ⌊q⌋ < k := by
      by_contra hge
      have heq : k = ⌊q⌋ := le_antisymm (not_lt.mp hge) hfloor
      rw [heq] at h
      linarith
    split
    · omega
    · omega

theorem two_zpow_pos (e : ℤ) : (0 : ℚ) < 2 ^ e := zpow_pos (by norm_num) e

/-- A number is less than 53 bits of its spacing. -/
theorem lt_spacing (q : ℚ) : q / 2 ^ exponent q < 2 ^ 53 := by
  have hlog : q < ((2 : ℕ) : ℚ) ^ (Int.log 2 q + 1) := Int.lt_zpow_succ_log_self (by norm_num) q
  rw [div_lt_iff₀ (two_zpow_pos _)]
  refine hlog.trans_le ?_
  rw [← zpow_natCast, ← zpow_add₀ (by norm_num)]
  refine zpow_le_zpow_right₀ (by norm_num) ?_
  unfold exponent
  have := le_max_left (Int.log 2 q - 52) (-1074)
  push_cast
  omega

theorem nearest_eq_some_iff : nearest q = some d ↔
    d = roundEven (q / 2 ^ exponent q) * 2 ^ exponent q ∧ d < 2 ^ 1024 := by
  unfold nearest
  simp only [Option.ite_none_right_eq_some, Option.some.injEq]
  constructor
  · rintro ⟨hlt, rfl⟩
    exact ⟨rfl, hlt⟩
  · rintro ⟨rfl, hlt⟩
    exact ⟨hlt, rfl⟩

theorem isFloat_of_nearest (hq : 0 ≤ q) (h : nearest q = some d) : IsFloat d := by
  obtain ⟨rfl, _⟩ := nearest_eq_some_iff.mp h
  have hnonneg : 0 ≤ roundEven (q / 2 ^ exponent q) :=
    le_roundEven (by rw [Int.cast_zero]; exact div_nonneg hq (two_zpow_pos _).le)
  have hle : roundEven (q / 2 ^ exponent q) ≤ 2 ^ 53 :=
    roundEven_le (by push_cast; exact (lt_spacing q).le)
  have hexponent : -1074 ≤ exponent q := le_max_right _ _
  obtain ⟨m, hm⟩ := Int.eq_ofNat_of_zero_le hnonneg
  rw [hm] at hle ⊢
  obtain hlt | heq := (show m ≤ 2 ^ 53 by omega).lt_or_eq
  · exact ⟨m, exponent q, hlt, hexponent, by rw [Int.cast_natCast]⟩
  -- the carry into a 54th bit
  · refine ⟨2 ^ 52, exponent q + 1, by norm_num, by omega, ?_⟩
    rw [heq, zpow_add₀ (by norm_num)]
    push_cast
    ring

/-- A float is a whole number of its spacings. -/
theorem roundEven_of_isFloat (h : IsFloat q) :
    (roundEven (q / 2 ^ exponent q) : ℚ) * 2 ^ exponent q = q := by
  obtain ⟨m, e, hm, he, rfl⟩ := h
  rcases Nat.eq_zero_or_pos m with rfl | hpos
  · simp [roundEven]
  · have hq : (0 : ℚ) < m * 2 ^ e := mul_pos (by exact_mod_cast hpos) (two_zpow_pos e)
    have hlt : (m : ℚ) * 2 ^ e < ((2 : ℕ) : ℚ) ^ (53 + e) := by
      rw [Nat.cast_ofNat, zpow_add₀ (by norm_num)]
      refine mul_lt_mul_of_pos_right ?_ (two_zpow_pos e)
      exact_mod_cast hm
    have hexponent : exponent (m * 2 ^ e) ≤ e := by
      have hlog := (Int.lt_zpow_iff_log_lt (by norm_num) hq).mp hlt
      exact max_le (by omega) he
    obtain ⟨k, hk⟩ := Int.eq_ofNat_of_zero_le (sub_nonneg.mpr hexponent)
    have hwhole : (m : ℚ) * 2 ^ e / 2 ^ exponent (m * 2 ^ e) = ((m * 2 ^ k : ℕ) : ℤ) := by
      rw [mul_div_assoc, ← zpow_sub₀ (by norm_num), hk]
      push_cast
      rw [zpow_natCast]
    rw [hwhole, roundEven_intCast, ← hwhole, div_mul_cancel₀ _ (two_zpow_pos _).ne']

theorem nearest_of_isFloat (h : IsFloat q) (hfinite : q < 2 ^ 1024) : nearest q = some q :=
  nearest_eq_some_iff.mpr ⟨(roundEven_of_isFloat h).symm, hfinite⟩

theorem nearest_infinite (h : IsFloat q) (hinfinite : 2 ^ 1024 ≤ q) : nearest q = none := by
  rw [nearest, roundEven_of_isFloat h, if_neg hinfinite.not_gt]

theorem isFloat_natCast {m : ℕ} (h : m < 2 ^ 53) : IsFloat m :=
  ⟨m, 0, h, by norm_num, by rw [zpow_zero, mul_one]⟩

theorem nearest_natCast {m : ℕ} (h : m < 2 ^ 53) : nearest m = some (m : ℚ) := by
  refine nearest_of_isFloat (isFloat_natCast h) ?_
  have hm : (m : ℚ) < 2 ^ 53 := by exact_mod_cast h
  exact hm.trans (pow_lt_pow_right₀ (by norm_num) (by norm_num))

theorem IsFloat.mul_two_pow (h : IsFloat q) (k : ℕ) : IsFloat (q * 2 ^ k) := by
  obtain ⟨m, e, hm, he, rfl⟩ := h
  refine ⟨m, e + k, hm, by omega, ?_⟩
  rw [mul_assoc, zpow_add₀ (by norm_num), zpow_natCast]

theorem nearest_nonneg (hq : 0 ≤ q) (h : nearest q = some d) : 0 ≤ d := by
  obtain ⟨m, e, _, _, rfl⟩ := isFloat_of_nearest hq h
  exact mul_nonneg (Nat.cast_nonneg m) (two_zpow_pos e).le

/-- Rounding does not leave the power of two below a number. -/
theorem two_zpow_log_le (hq : 1 ≤ q) (h : nearest q = some d) : 2 ^ Int.log 2 q ≤ d := by
  obtain ⟨rfl, _⟩ := nearest_eq_some_iff.mp h
  have hlog : 0 ≤ Int.log 2 q := by
    rw [Int.log_of_one_le_right 2 hq]
    exact Int.natCast_nonneg _
  have hexponent : exponent q = Int.log 2 q - 52 := max_eq_left (by omega)
  have hle : ((2 : ℕ) : ℚ) ^ Int.log 2 q ≤ q := Int.zpow_log_le_self (by norm_num) (by linarith)
  have hpower : (((2 : ℤ) ^ 52 : ℤ) : ℚ) * 2 ^ exponent q = 2 ^ Int.log 2 q := by
    rw [hexponent, Int.cast_pow, Int.cast_ofNat, ← zpow_natCast, ← zpow_add₀ (by norm_num)]
    congr 1
    omega
  have hbits : (2 : ℤ) ^ 52 ≤ roundEven (q / 2 ^ exponent q) := by
    refine le_roundEven ?_
    rw [le_div_iff₀ (two_zpow_pos _), hpower]
    exact hle
  rw [← hpower]
  exact mul_le_mul_of_nonneg_right (by exact_mod_cast hbits) (two_zpow_pos _).le

theorem one_le_nearest (hq : 1 ≤ q) (h : nearest q = some d) : 1 ≤ d := by
  refine le_trans ?_ (two_zpow_log_le hq h)
  rw [Int.log_of_one_le_right 2 hq, zpow_natCast]
  exact one_le_pow₀ (by norm_num)

theorem lt_two_mul_nearest (hq : 1 ≤ q) (h : nearest q = some d) : q < 2 * d := by
  have hlog : q < ((2 : ℕ) : ℚ) ^ (Int.log 2 q + 1) := Int.lt_zpow_succ_log_self (by norm_num) q
  have hle := two_zpow_log_le hq h
  rw [zpow_add₀ (by norm_num), zpow_one, Nat.cast_ofNat] at hlog
  linarith

end Binary64

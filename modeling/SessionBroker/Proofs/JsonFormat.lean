import Mathlib.Algebra.Ring.Nat
import SessionBroker.Proofs.JsonText

/-!
# How values are stored

A stored value has the parts of a binary64 number wherever it has such a number, and the fields of an
object in the order of their keys. Whatever is read from a text is stored like this.

The first is a matter of rounding. The exponent of a ratio is chosen by the floor of its logarithm,
and that is estimated by the lengths of the two parts; that the estimate is right is all that the
bounds on the significand need.
-/

namespace SessionBroker

namespace Binary64

variable {negative : Bool} {num den : Nat} {x y z : Binary64}

/-- The parts that a number has in the format. -/
structure InFormat (x : Binary64) : Prop where
  significand_lt : x.significand < 2 ^ 53
  exponent_ge : -1074 ≤ x.exponent
  exponent_le : x.exponent ≤ 971
  /-- No smaller exponent would do. -/
  least : 2 ^ 52 ≤ x.significand ∨ x.exponent = -1074

theorem InFormat.zero (negative : Bool) : (Binary64.zero negative).InFormat where
  significand_lt := Nat.two_pow_pos 53
  exponent_ge := Int.le_refl _
  exponent_le := by
    show (-1074 : Int) ≤ 971
    decide
  least := .inr rfl

/-! ## Ratios and powers of two -/

/-- A ratio above a power of two, here `2 ^ (a - b)`, is above every smaller one. -/
theorem mul_two_pow_le {m n a b a' b' : Nat} (h : m * 2 ^ a ≤ n * 2 ^ b)
    (hexp : a' + b ≤ a + b') : m * 2 ^ a' ≤ n * 2 ^ b' := by
  refine Nat.le_of_mul_le_mul_right ?_ (Nat.two_pow_pos b)
  calc m * 2 ^ a' * 2 ^ b
      = m * 2 ^ (a' + b) := by rw [Nat.mul_assoc, ← Nat.pow_add]
    _ ≤ m * 2 ^ (a + b') := Nat.mul_le_mul_left m (Nat.pow_le_pow_right Nat.two_pos hexp)
    _ = m * 2 ^ a * 2 ^ b' := by rw [Nat.mul_assoc, ← Nat.pow_add]
    _ ≤ n * 2 ^ b * 2 ^ b' := Nat.mul_le_mul_right _ h
    _ = n * 2 ^ b' * 2 ^ b := Nat.mul_right_comm n _ _

/-- A ratio below a power of two is below every larger one. -/
theorem lt_mul_two_pow {m n a b a' b' : Nat} (h : n * 2 ^ b < m * 2 ^ a)
    (hexp : a + b' ≤ a' + b) : n * 2 ^ b' < m * 2 ^ a' :=
  Nat.lt_of_not_le fun hle => Nat.not_le_of_lt h (mul_two_pow_le hle hexp)

theorem floorLog2_le (hnum : num ≠ 0) :
    den * 2 ^ (floorLog2 num den).toNat ≤ num * 2 ^ (-floorLog2 num den).toNat := by
  unfold floorLog2
  dsimp only
  split
  next h => exact h
  next =>
    have hestimate : den * 2 ^ num.log2 ≤ num * 2 ^ (den.log2 + 1) := by
      rw [Nat.mul_comm den]
      exact Nat.mul_le_mul (Nat.log2_self_le hnum) (Nat.le_of_lt Nat.lt_log2_self)
    exact mul_two_pow_le hestimate (by omega)

theorem lt_floorLog2_add_one (hden : den ≠ 0) :
    num * 2 ^ (-(floorLog2 num den + 1)).toNat < den * 2 ^ (floorLog2 num den + 1).toNat := by
  unfold floorLog2
  dsimp only
  split
  next =>
    have hestimate : num * 2 ^ den.log2 < den * 2 ^ (num.log2 + 1) := by
      rw [Nat.mul_comm den]
      exact Nat.mul_lt_mul_of_lt_of_le Nat.lt_log2_self (Nat.log2_self_le hden)
        (Nat.pos_of_ne_zero hden)
    exact lt_mul_two_pow hestimate (by omega)
  next h => exact lt_mul_two_pow (Nat.lt_of_not_le h) (by omega)

/-! ## Rounding -/

theorem le_roundDiv {c : Nat} (hden : 0 < den) (h : c * den ≤ num) : c ≤ roundDiv num den := by
  have hfloor : c ≤ num / den := (Nat.le_div_iff_mul_le hden).mpr h
  unfold roundDiv
  dsimp only
  split
  · exact hfloor
  · split <;> omega

theorem roundDiv_le {c : Nat} (hden : 0 < den) (h : num < c * den) : roundDiv num den ≤ c := by
  have hfloor : num / den < c := (Nat.div_lt_iff_lt_mul hden).mpr h
  unfold roundDiv
  dsimp only
  split
  · exact Nat.le_of_lt hfloor
  · split <;> omega

/-- The exponent of the units in which a ratio is rounded. -/
def unitExponent (num den : Nat) : Int := max (floorLog2 num den - 52) (-1074)

/-- The ratio in whole units. -/
def units (num den : Nat) : Nat :=
  roundDiv (num * 2 ^ (-unitExponent num den).toNat) (den * 2 ^ (unitExponent num den).toNat)

/-- The units as a number, whether or not the format holds it. -/
def rounded (negative : Bool) (num den : Nat) : Binary64 :=
  if units num den = 2 ^ 53 then ⟨negative, 2 ^ 52, unitExponent num den + 1⟩
  else ⟨negative, units num den, unitExponent num den⟩

theorem nearest?_eq (hnum : num ≠ 0) : nearest? negative num den =
    if 971 < (rounded negative num den).exponent then none
    else some (rounded negative num den) := by
  unfold nearest?
  rw [if_neg hnum]
  rfl

theorem units_le (hden : den ≠ 0) : units num den ≤ 2 ^ 53 := by
  have hbelow : num * 2 ^ (-unitExponent num den).toNat <
      den * 2 ^ ((unitExponent num den).toNat + 53) :=
    lt_mul_two_pow (lt_floorLog2_add_one hden) (by unfold unitExponent; omega)
  rw [Nat.pow_add, ← Nat.mul_assoc, Nat.mul_comm _ (2 ^ 53)] at hbelow
  exact roundDiv_le (Nat.mul_pos (Nat.pos_of_ne_zero hden) (Nat.two_pow_pos _)) hbelow

theorem le_units (hnum : num ≠ 0) (hden : den ≠ 0) (h : unitExponent num den ≠ -1074) :
    2 ^ 52 ≤ units num den := by
  have habove : den * 2 ^ ((unitExponent num den).toNat + 52) ≤
      num * 2 ^ (-unitExponent num den).toNat :=
    mul_two_pow_le (floorLog2_le hnum) (by unfold unitExponent at h ⊢; omega)
  rw [Nat.pow_add, ← Nat.mul_assoc, Nat.mul_comm _ (2 ^ 52)] at habove
  exact le_roundDiv (Nat.mul_pos (Nat.pos_of_ne_zero hden) (Nat.two_pow_pos _)) habove

theorem inFormat_rounded (hnum : num ≠ 0) (hden : den ≠ 0)
    (h : (rounded negative num den).exponent ≤ 971) : (rounded negative num den).InFormat := by
  have hge : -1074 ≤ unitExponent num den := Int.le_max_right _ _
  unfold rounded at h ⊢
  split
  next hfull =>
    rw [if_pos hfull] at h
    constructor
    case significand_lt => exact Nat.pow_lt_pow_right (by decide) (by decide)
    case exponent_ge => exact Int.le_trans hge (Int.le_of_lt (Int.lt_succ _))
    case exponent_le => exact h
    case least => exact .inl (Nat.le_refl _)
  next hfull =>
    rw [if_neg hfull] at h
    constructor
    case significand_lt =>
      dsimp only
      exact Nat.lt_of_le_of_ne (units_le hden) hfull
    case exponent_ge => exact hge
    case exponent_le => exact h
    case least =>
      dsimp only
      exact or_iff_not_imp_right.mpr (le_units hnum hden)

theorem inFormat_of_nearest? (hden : den ≠ 0) (h : nearest? negative num den = some x) :
    x.InFormat := by
  by_cases hnum : num = 0
  · rw [nearest?, if_pos hnum] at h
    cases h
    exact .zero negative
  · rw [nearest?_eq hnum] at h
    split at h
    · cases h
    next hexp =>
      obtain rfl := Option.some.inj h
      exact inFormat_rounded hnum hden (Int.not_lt.mp hexp)

/-- A ratio below the largest significand with some exponent is rounded with no larger one. -/
theorem exponent_rounded_le (last : Nat) (hnum : num ≠ 0) (hden : den ≠ 0)
    (hlt : num < (2 ^ 53 - 1) * (den * 2 ^ last)) : (rounded negative num den).exponent ≤ last := by
  have hlog : floorLog2 num den < last + 53 := by
    refine Int.not_le.mp fun hlarge => ?_
    have habove : den * 2 ^ last * 2 ^ 53 ≤ num * 2 ^ 0 := by
      rw [Nat.mul_assoc, ← Nat.pow_add]
      exact mul_two_pow_le (floorLog2_le hnum) (by omega)
    omega
  have hle : unitExponent num den ≤ last := by
    unfold unitExponent
    omega
  unfold rounded
  split
  next hfull =>
    refine Int.lt_iff_le_and_ne.mpr ⟨hle, fun hlast => ?_⟩
    have hunits : units num den ≤ 2 ^ 53 - 1 := by
      unfold units
      rw [hlast, Int.toNat_natCast, Int.toNat_neg_natCast, Nat.pow_zero, Nat.mul_one]
      exact roundDiv_le (Nat.mul_pos (Nat.pos_of_ne_zero hden) (Nat.two_pow_pos last)) hlt
    omega
  next => exact hle

/-- A ratio from one up to the largest number of the format is rounded to a number above zero. -/
theorem exists_nearest? (negative : Bool) (hden : den ≠ 0) (hle : den ≤ num)
    (hlt : num < (2 ^ 53 - 1) * (den * 2 ^ 971)) :
    ∃ x, nearest? negative num den = some x ∧ x.significand ≠ 0 := by
  have hnum : num ≠ 0 := by omega
  have hlog : 0 ≤ floorLog2 num den := by
    refine Int.not_lt.mp fun hneg => ?_
    have hbelow : num * 2 ^ 0 < den * 2 ^ 0 := lt_mul_two_pow (lt_floorLog2_add_one hden) (by omega)
    omega
  have hunits : 2 ^ 52 ≤ units num den := le_units hnum hden (by unfold unitExponent; omega)
  have hexp : (rounded negative num den).exponent ≤ 971 := exponent_rounded_le 971 hnum hden hlt
  refine ⟨rounded negative num den, by rw [nearest?_eq hnum, if_neg (Int.not_lt.mpr hexp)], ?_⟩
  unfold rounded
  split
  · exact Nat.ne_of_gt (Nat.two_pow_pos 52)
  · exact Nat.ne_of_gt (Nat.lt_of_lt_of_le (Nat.two_pow_pos 52) hunits)

theorem ratio_snd_ne_zero (x : Binary64) : x.ratio.2 ≠ 0 := Nat.ne_of_gt (Nat.two_pow_pos _)

theorem ratio_fst_ne_zero (h : x.significand ≠ 0) : x.ratio.1 ≠ 0 :=
  Nat.mul_ne_zero h (Nat.ne_of_gt (Nat.two_pow_pos _))

theorem inFormat_of_scaleUp? (h : x.scaleUp? y = some z) : z.InFormat :=
  inFormat_of_nearest? (Nat.mul_ne_zero x.ratio_snd_ne_zero y.ratio_snd_ne_zero) h

theorem inFormat_of_scaleDown? (hy : y.significand ≠ 0) (h : x.scaleDown? y = some z) :
    z.InFormat :=
  inFormat_of_nearest? (Nat.mul_ne_zero x.ratio_snd_ne_zero (ratio_fst_ne_zero hy)) h

end Binary64

/-! ## Values -/

namespace Json

/-- A value as values are stored. -/
inductive Value.WellFormed : Value → Prop where
  | null : WellFormed .null
  | bool (b : Bool) : WellFormed (.bool b)
  | integer (i : Int) : WellFormed (.integer i)
  | decimal {x : Binary64} (h : x.InFormat) : WellFormed (.decimal x)
  | string (s : String) : WellFormed (.string s)
  | array {items : List Value} (h : ∀ v ∈ items, WellFormed v) : WellFormed (.array items)
  | object {fields : List (String × Value)} (hkeys : (fields.map Prod.fst).Pairwise (· < ·))
      (h : ∀ f ∈ fields, WellFormed f.2) : WellFormed (.object fields)

theorem Value.WellFormed.inOrder {v : Value} (h : v.WellFormed) : v.InOrder := by
  induction h with
  | array _ ih => exact (inOrderItems_iff _).mpr ih
  | object hkeys _ ih => exact ⟨hkeys, (inOrderFields_iff _).mpr ih⟩
  | _ => trivial

/-! ### Numerals -/

namespace Numeral

open Binary64

/-- What a number is divided by is not zero. -/
theorem powerOfTen_ne_zero {k : Nat} (h : k ≤ maxPower) : (powerOfTen k).significand ≠ 0 := by
  have hlt : Nat.pow 10 k < (2 ^ 53 - 1) * (1 * 2 ^ 971) :=
    Nat.lt_of_le_of_lt (Nat.pow_le_pow_right (by decide) h) (by decide +kernel)
  obtain ⟨x, hx, hne⟩ := exists_nearest? false Nat.one_ne_zero (Nat.pow_pos (by decide)) hlt
  show ((nearest? false (10 ^ k) 1).getD (zero false)).significand ≠ 0
  rw [hx]
  exact hne

theorem inFormat_of_scale? {n : Nat} {x y : Binary64} {e : Int} (hx : x.InFormat)
    (h : scale? n x e = some y) : y.InFormat := by
  induction n generalizing x e with
  | zero =>
      cases h
      exact hx
  | succ n ih =>
      rw [scale?] at h
      split at h
      next hreach =>
        split at h
        · exact inFormat_of_scaleUp? h
        · exact inFormat_of_scaleDown? (powerOfTen_ne_zero (by omega)) h
      next =>
        split at h
        · cases h
          exact hx
        · split at h
          · cases h
          · obtain ⟨z, hz, h⟩ := Option.bind_eq_some_iff.mp h
            exact ih (inFormat_of_scaleDown? (powerOfTen_ne_zero (Nat.le_refl _)) hz) h

theorem wellFormed_of_ofParts? {negative : Bool} {significand : Nat} {e : Int} {v : Value}
    (h : ofParts? negative significand e = some v) : v.WellFormed := by
  unfold ofParts? at h
  obtain ⟨x, hx, h⟩ := Option.bind_eq_some_iff.mp h
  obtain ⟨y, hy, h⟩ := Option.bind_eq_some_iff.mp h
  cases h
  exact .decimal (inFormat_of_scale? (inFormat_of_nearest? Nat.one_ne_zero hx) hy)

theorem wellFormed_of_withExponent? {n : Numeral} {significand : Nat} {e : Int} {v : Value}
    (h : n.withExponent? significand e = some v) : v.WellFormed := by
  unfold withExponent? at h
  split at h
  · exact wellFormed_of_ofParts? h
  · dsimp only at h
    split at h
    · split at h
      · cases h
      · cases h
        exact .decimal (.zero n.negative)
    · exact wellFormed_of_ofParts? h

theorem wellFormed_of_value? {n : Numeral} {v : Value} (h : n.value? = some v) :
    v.WellFormed := by
  unfold value? at h
  dsimp only at h
  split at h
  · exact wellFormed_of_withExponent? h
  · split at h
    · exact wellFormed_of_withExponent? h
    · split at h
      · cases h
        exact .integer _
      · split at h
        · cases h
          exact .integer _
        · exact wellFormed_of_ofParts? h

end Numeral

/-! ### Documents -/

theorem Value.wellFormed_ofFields {fs : List (String × Value)} (h : ∀ f ∈ fs, f.2.WellFormed) :
    (ofFields fs).WellFormed := by
  obtain ⟨gs, heq, hkeys, hmem⟩ := exists_ofFields fs
  rw [heq]
  exact .object hkeys fun g hg => h g (hmem g hg)

open Written (value? values? fieldValues?)

mutual

theorem wellFormed_of_value? : ∀ (w : Written) (depth : Nat) (v : Value),
    w.value? depth = some v → v.WellFormed
  | .null, _, _, h => by
    cases h
    exact .null
  | .bool b, _, _, h => by
    cases h
    exact .bool b
  | .number _, _, _, h => Numeral.wellFormed_of_value? h
  | .string _, _, _, h => by
    obtain ⟨s, -, rfl⟩ := Option.map_eq_some_iff.mp h
    exact .string s
  | .array items, depth, _, h => by
    rw [Written.value?] at h
    split at h
    · cases h
    · obtain ⟨vs, hvs, rfl⟩ := Option.map_eq_some_iff.mp h
      exact .array (wellFormed_of_values? items (depth - 1) vs hvs)
  | .object fields, depth, _, h => by
    rw [Written.value?] at h
    split at h
    · cases h
    · obtain ⟨fs, hfs, rfl⟩ := Option.map_eq_some_iff.mp h
      exact Value.wellFormed_ofFields (wellFormed_of_fieldValues? fields (depth - 1) fs hfs)

theorem wellFormed_of_values? : ∀ (ws : List Written) (depth : Nat) (vs : List Value),
    values? depth ws = some vs → ∀ v ∈ vs, v.WellFormed
  | [], _, _, h => by
    cases h
    simp
  | w :: ws, depth, _, h => by
    rw [values?] at h
    split at h
    next v vs hv hvs =>
      cases h
      exact List.forall_mem_cons.mpr
        ⟨wellFormed_of_value? w depth v hv, wellFormed_of_values? ws depth vs hvs⟩
    next => cases h

theorem wellFormed_of_fieldValues? : ∀ (ws : List (List Char × Written)) (depth : Nat)
    (fs : List (String × Value)), fieldValues? depth ws = some fs → ∀ f ∈ fs, f.2.WellFormed
  | [], _, _, h => by
    cases h
    simp
  | (_, w) :: ws, depth, _, h => by
    rw [fieldValues?] at h
    split at h
    next k v fs _ hv hfs =>
      cases h
      exact List.forall_mem_cons.mpr
        ⟨wellFormed_of_value? w depth v hv, wellFormed_of_fieldValues? ws depth fs hfs⟩
    next => cases h

end

/-- Whatever is read from a text is well formed. -/
theorem wellFormed_of_ofText? {depth : Nat} {text : String} {v : Value}
    (h : Value.ofText? depth text = some v) : v.WellFormed := by
  obtain ⟨w, -, hw⟩ := Option.bind_eq_some_iff.mp h
  exact wellFormed_of_value? w depth v hw

end Json

end SessionBroker

import Mathlib

/-!
# Shares of counts as floating-point numbers

A share is computed as the quotient of two counts, and the rest as what is missing to one.

Counts below `2 ^ 53` are floating-point numbers as they are (`unpack_toFloat`).  For such counts
the rounding of the quotient does no harm where it matters: nothing is missing from a whole
(`one_sub_div_self`), and something is missing from every proper part (`one_sub_div_pos`).

Numbers are followed in their unpacked form, mantissa times a power of two.  All of them are normal:
the mantissa has its leading bit at place 52.
-/

namespace ArchReview.Decimal
open Float.Model Float.Model.UnpackedFloat
open Float.Model.UnpackedFloat.ExtendedMantissa (ofMantissaAndAccuracy)

/-! ### Leading bits -/

theorem log2_mul_two_pow {m : Nat} (hm : 0 < m) (k : Nat) : (m * 2 ^ k).log2 = m.log2 + k := by
  obtain ⟨hle, hlt⟩ := (Nat.log2_eq_iff hm.ne').mp rfl
  refine (Nat.log2_eq_iff (Nat.mul_pos hm (Nat.two_pow_pos k)).ne').mpr ⟨?_, ?_⟩
  · rw [pow_add]
    exact Nat.mul_le_mul_right _ hle
  · rw [Nat.add_right_comm, pow_add]
    exact Nat.mul_lt_mul_of_pos_right hlt (Nat.two_pow_pos k)

/-- A count below `2 ^ 53` is filled up to a mantissa. -/
theorem log2_filled {n : Nat} (hn : 0 < n) (hlt : n < 2 ^ 53) :
    (n * 2 ^ (52 - n.log2)).log2 = 52 := by
  have hlog := (Nat.log2_lt hn.ne').mpr hlt
  rw [log2_mul_two_pow hn]
  omega

/-! ### Shifting and rounding -/

theorem shiftRight_succ (em : ExtendedMantissa) (k : Nat) :
    em >>> (k + 1) = (em >>> k).shiftRightOne := rfl

theorem mantissa_shiftRight (em : ExtendedMantissa) : ∀ k : Nat,
    (em >>> k).mantissa = em.mantissa / 2 ^ k
  | 0 => (Nat.div_one _).symm
  | k + 1 => by
      rw [shiftRight_succ, pow_succ, ← Nat.div_div_eq_div_mul, ← mantissa_shiftRight em k]
      rfl

/-- Zeros at the end are shifted out without a trace. -/
theorem shiftRight_mul_two_pow (m : Nat) : ∀ k : Nat,
    (⟨m * 2 ^ k, false, false⟩ : ExtendedMantissa) >>> k = ⟨m, false, false⟩
  | 0 => by rw [pow_zero, Nat.mul_one]; rfl
  | k + 1 => by
      have e : m * 2 ^ (k + 1) = m * 2 * 2 ^ k := by ring
      rw [shiftRight_succ, e, shiftRight_mul_two_pow (m * 2) k]
      simp [ExtendedMantissa.shiftRightOne]

@[simp] theorem mantissa_ofMantissaAndAccuracy (m : Nat) (acc : Accuracy) :
    (ofMantissaAndAccuracy m acc).mantissa = m := by
  rcases acc with _ | (_ | _ | _) <;> rfl

theorem le_roundedMantissa (em : ExtendedMantissa) : em.mantissa ≤ em.roundedMantissa := by
  rcases em with ⟨m, _ | _, _ | _⟩ <;>
    simp [ExtendedMantissa.roundedMantissa, ExtendedMantissa.accuracy, Accuracy.roundToNearestEven]

/-- Only a set bit behind the mantissa rounds it up. -/
theorem roundedMantissa_le (em : ExtendedMantissa) :
    em.roundedMantissa ≤ em.mantissa + em.roundBit.toNat := by
  rcases em with ⟨m, _ | _, _ | _⟩ <;>
    simp [ExtendedMantissa.roundedMantissa, ExtendedMantissa.accuracy, Accuracy.roundToNearestEven]
  omega

theorem roundedMantissa_le_add_one (m : Nat) (acc : Accuracy) :
    (ofMantissaAndAccuracy m acc).roundedMantissa ≤ m + 1 := by
  have h := roundedMantissa_le (ofMantissaAndAccuracy m acc)
  have hbit := Bool.toNat_le (ofMantissaAndAccuracy m acc).roundBit
  rw [mantissa_ofMantissaAndAccuracy] at h
  omega

/-- When one bit is dropped, only that bit rounds up. -/
theorem roundedMantissa_shiftRight_one_le (m : Nat) (acc : Accuracy) :
    (ofMantissaAndAccuracy m acc >>> 1).roundedMantissa ≤ (m + 1) / 2 := by
  have h := roundedMantissa_le (ofMantissaAndAccuracy m acc >>> 1)
  change _ ≤ (ofMantissaAndAccuracy m acc).mantissa / 2 +
    ((ofMantissaAndAccuracy m acc).mantissa % 2 != 0).toNat at h
  have hbit : (m % 2 != 0).toNat = m % 2 := by
    rcases Nat.mod_two_eq_zero_or_one m with hm | hm <;> rw [hm] <;> rfl
  rw [mantissa_ofMantissaAndAccuracy, hbit] at h
  omega

theorem targetExponent_eq {m k : Nat} {e : Int} (hm : m.log2 = 52 + k) (he : -1074 ≤ e + k) :
    Format.binary64.targetExponent (totalExponent m e) = e + k := by
  have hmin : Format.binary64.minExponent = -1074 := by decide
  simp only [Format.targetExponent, totalExponent, hm, hmin, Format.mantissaBits]
  omega

theorem shiftToTargetExponent_eq {m k : Nat} {e : Int} (acc : Accuracy) (hm : m.log2 = 52 + k)
    (he : -1074 ≤ e + k) : shiftToTargetExponent Format.binary64 m e acc =
      (ofMantissaAndAccuracy m acc >>> k, e + k) := by
  have hk : (e + k - e).toNat = k := by omega
  rw [shiftToTargetExponent, targetExponent_eq hm he, shiftToExponent, hk]

theorem roundWithAccuracy_eq (s : Sign) {m m' : Nat} {e e₁ e' : Int} {acc : Accuracy}
    {em : ExtendedMantissa} {r b : Bool} (pos : 0 < m')
    (h₁ : shiftToTargetExponent Format.binary64 m e acc = (em, e₁))
    (h₂ : shiftToTargetExponent Format.binary64 em.roundedMantissa e₁ .exact = (⟨m', r, b⟩, e')) :
    roundWithAccuracy Format.binary64 s m e acc = .finite s m' e' pos := by
  unfold roundWithAccuracy
  simp only [h₁, h₂]
  exact dif_neg pos.ne'

/-- With the bits that are too many dropped, a mantissa is rounded to one of full length or to the
next power of two. -/
theorem roundedMantissa_bounds {m k : Nat} (acc : Accuracy) (hm : m.log2 = 52 + k) :
    2 ^ 52 ≤ (ofMantissaAndAccuracy m acc >>> k).roundedMantissa ∧
      (ofMantissaAndAccuracy m acc >>> k).roundedMantissa ≤ 2 ^ 53 := by
  have hne : m ≠ 0 := by
    rintro rfl
    rw [Nat.log2_zero] at hm
    omega
  obtain ⟨hlow, hhigh⟩ := (Nat.log2_eq_iff hne).mp hm
  have hmin : 2 ^ 52 ≤ m / 2 ^ k := by
    rw [Nat.le_div_iff_mul_le (Nat.two_pow_pos k), ← pow_add]
    exact hlow
  have hmax : m / 2 ^ k < 2 ^ 53 := by
    rw [Nat.div_lt_iff_lt_mul (Nat.two_pow_pos k), ← pow_add]
    exact hhigh.trans_eq (by congr 1; omega)
  have hkept : (ofMantissaAndAccuracy m acc >>> k).mantissa = m / 2 ^ k := by
    rw [mantissa_shiftRight, mantissa_ofMantissaAndAccuracy]
  have hge := le_roundedMantissa (ofMantissaAndAccuracy m acc >>> k)
  have hle := roundedMantissa_le (ofMantissaAndAccuracy m acc >>> k)
  have hbit := Bool.toNat_le (ofMantissaAndAccuracy m acc >>> k).roundBit
  rw [hkept] at hge hle
  exact ⟨hmin.trans hge, by omega⟩

/-- What rounding makes of a mantissa with `k` bits too many: the bits are dropped and the rest is
rounded; where this fills up to the next power of two, the exponent grows. -/
theorem roundWithAccuracy_cases (s : Sign) {m k : Nat} {e : Int} (acc : Accuracy)
    (hm : m.log2 = 52 + k) (he : -1074 ≤ e + k) :
    let rounded := (ofMantissaAndAccuracy m acc >>> k).roundedMantissa
    (rounded.log2 = 52 ∧ ∃ pos,
      roundWithAccuracy Format.binary64 s m e acc = .finite s rounded (e + k) pos) ∨
    (rounded = 2 ^ 53 ∧ ∃ pos,
      roundWithAccuracy Format.binary64 s m e acc = .finite s (2 ^ 52) (e + k + 1) pos) := by
  intro rounded
  obtain ⟨hge, hle⟩ : 2 ^ 52 ≤ rounded ∧ rounded ≤ 2 ^ 53 := roundedMantissa_bounds acc hm
  have first := shiftToTargetExponent_eq acc hm he
  rcases hle.lt_or_eq with hlt | heq
  · have hlog : rounded.log2 = 52 := (Nat.log2_eq_iff (Nat.ne_zero_of_lt hge)).mpr ⟨hge, hlt⟩
    refine Or.inl ⟨hlog, Nat.zero_lt_of_lt hge,
      roundWithAccuracy_eq s _ first (r := false) (b := false) ?_⟩
    rw [shiftToTargetExponent_eq .exact (k := 0) hlog (by omega), Int.natCast_zero, Int.add_zero]
    rfl
  · have hlog : (2 ^ 53).log2 = 52 + 1 := by decide
    refine Or.inr ⟨heq, Nat.two_pow_pos 52,
      roundWithAccuracy_eq s _ first (r := false) (b := false) ?_⟩
    change shiftToTargetExponent _ rounded _ _ = _
    rw [heq, shiftToTargetExponent_eq .exact hlog (by omega)]
    rfl

/-- A number that is exact before rounding is exact after it. -/
theorem roundWithAccuracy_exact (s : Sign) {m k : Nat} {e : Int} (hm : m.log2 = 52)
    (he : -1074 ≤ e + k) : ∃ pos,
      roundWithAccuracy Format.binary64 s (m * 2 ^ k) e .exact = .finite s m (e + k) pos := by
  have hpos : 0 < m := Nat.pos_of_ne_zero fun h => by simp [h] at hm
  have hlog : (m * 2 ^ k).log2 = 52 + k := by rw [log2_mul_two_pow hpos, hm]
  have hrounded : (ofMantissaAndAccuracy (m * 2 ^ k) .exact >>> k).roundedMantissa =
      m := by
    change (ExtendedMantissa.mk (m * 2 ^ k) false false >>> k).roundedMantissa = m
    rw [shiftRight_mul_two_pow]
    rfl
  rcases roundWithAccuracy_cases s .exact hlog he with ⟨-, h⟩ | ⟨hfull, -⟩
  · rw [hrounded] at h
    exact h
  · rw [hrounded] at hfull
    rw [hfull] at hm
    exact absurd hm (by decide)

/-- Before rounding, a mantissa that is too short is filled up with zeros. -/
theorem round_eq (s : Sign) {m : Nat} {e : Int} (he : -1022 ≤ e + m.log2) :
    UnpackedFloat.round Format.binary64 s m e =
      roundWithAccuracy Format.binary64 s (m * 2 ^ (52 - m.log2)) (e - (52 - m.log2 : Nat))
        .exact := by
  have hmin : Format.binary64.minExponent = -1074 := by decide
  have htarget : Format.binary64.targetExponent (totalExponent m e) = e + m.log2 - 52 := by
    simp only [Format.targetExponent, totalExponent, hmin, Format.mantissaBits]
    omega
  have hshift : (e - (e + m.log2 - 52)).toNat = 52 - m.log2 := by omega
  rw [UnpackedFloat.round, htarget, decreaseExponent, hshift, Nat.shiftLeft_eq]

/-- A whole number below `2 ^ 53` keeps its value. -/
theorem round_count (s : Sign) {n : Nat} (hn : 0 < n) (hlt : n < 2 ^ 53) : ∃ pos,
    UnpackedFloat.round Format.binary64 s n 0 =
      .finite s (n * 2 ^ (52 - n.log2)) (n.log2 - 52) pos := by
  have hlog := (Nat.log2_lt hn.ne').mpr hlt
  have he : (0 : Int) - (52 - n.log2 : Nat) = n.log2 - 52 := by omega
  obtain ⟨pos, h⟩ := roundWithAccuracy_exact s (k := 0) (e := n.log2 - 52) (log2_filled hn hlt)
    (by omega)
  refine ⟨pos, ?_⟩
  rw [round_eq s (by omega), he]
  simpa using h

/-- A positive number that is not tiny is not rounded to zero. -/
theorem round_normal (s : Sign) {m : Nat} {e : Int} (hm : 0 < m) (he : -1022 ≤ e + m.log2) :
    ∃ m' e' pos, UnpackedFloat.round Format.binary64 s m e = .finite s m' e' pos ∧ m'.log2 = 52 ∧
      -1074 ≤ e' := by
  have hlog : (m * 2 ^ (52 - m.log2)).log2 = 52 + (m.log2 - 52) := by
    rw [log2_mul_two_pow hm]
    omega
  rw [round_eq s he]
  rcases roundWithAccuracy_cases s .exact hlog (e := e - (52 - m.log2 : Nat)) (by omega) with
    ⟨hrounded, pos, h⟩ | ⟨-, pos, h⟩
  · exact ⟨_, _, pos, h, hrounded, by omega⟩
  · exact ⟨_, _, pos, h, by decide, by omega⟩

theorem normalize_eq {n : Nat} (hn : 0 < n) (e : Int) (s : Sign) :
    UnpackedFloat.normalize Format.binary64 n e s =
      UnpackedFloat.round Format.binary64 .positive n e := by
  have hgt : compare (n : Int) 0 = .gt := Int.compare_eq_gt.mpr (by omega)
  simp only [UnpackedFloat.normalize, hgt, Int.toNat_natCast]

/-! ### Packing -/

/-- The leading bit is left out, and put back. -/
theorem toNat_one_append {m : Nat} (hlow : 2 ^ 52 ≤ m) (hhigh : m < 2 ^ 53) :
    (1#1 ++ BitVec.ofNat 52 m).toNat = m := by
  rw [BitVec.toNat_append, ← Nat.shiftLeft_add_eq_or_of_lt (BitVec.isLt _), Nat.shiftLeft_eq,
    BitVec.toNat_ofNat, BitVec.toNat_ofNat]
  omega

/-- **A normal number is found again after packing.** -/
theorem unpack_pack {s : Sign} {m : Nat} {e : Int} {pos : 0 < m} (hm : m.log2 = 52)
    (hlow : -1074 ≤ e) (hhigh : e ≤ 971) :
    (Float.Model.pack (.finite s m e pos)).unpack = .finite s m e pos := by
  obtain ⟨hmin, hmax⟩ := (Nat.log2_eq_iff pos.ne').mp hm
  have hbias : Format.binary64.exponentBias = 1023 := by decide
  obtain ⟨biased, hb⟩ : ∃ biased : Nat, e + 1023 + 52 = biased := ⟨(e + 1023 + 52).toNat, by omega⟩
  have hexp : (BitVec.ofNat 11 biased).toNat = biased := by
    rw [BitVec.toNat_ofNat, Nat.mod_eq_of_lt (by omega)]
  have hne {k : Nat} (hk : biased ≠ k % 2 ^ 11) : BitVec.ofNat 11 biased ≠ BitVec.ofNat 11 k :=
    fun h => hk (by rw [← hexp, h, BitVec.toNat_ofNat])
  have hpack : UnpackedFloat.pack Format.binary64 (.finite s m e pos) =
      packComponents Format.binary64 s (BitVec.ofNat 11 biased) (BitVec.ofNat 52 m) := by
    have hbiased : (e + (1023 : Nat) + (52 : Nat)).toNat = biased := by omega
    simp only [UnpackedFloat.pack, hbias, hbiased]
    rw [if_neg (by omega), if_pos (by rw [hm]; rfl)]
  change UnpackedFloat.unpack Format.binary64 (UnpackedFloat.pack _ _) = _
  rw [hpack, UnpackedFloat.unpack]
  simp only [unpackMantissa_packComponents, unpackExponent_packComponents,
    unpackSign_packComponents, Sign.ofBitVec_toBitVec]
  have hones : -1#11 = BitVec.ofNat 11 2047 := by decide
  rw [hones, if_neg (hne (by omega)), if_neg (hne (by omega))]
  simp only [hexp, hbias, toNat_one_append hmin hmax]
  congr 1
  omega

/-! ### Comparing -/

theorem float_lt_iff {x y : Float} :
    x < y ↔ x.toModel.unpack.compare y.toModel.unpack = some .lt := by
  change decide (Float.Model.lt _ _ = true) = true ↔ _
  rw [decide_eq_true_eq, Float.Model.lt, UnpackedFloat.lt, beq_iff_eq]

theorem float_le_of_lt {x y : Float} (h : x < y) : x ≤ y := by
  change decide (Float.Model.le _ _ = true) = true
  rw [decide_eq_true_eq, Float.Model.le, UnpackedFloat.le, float_lt_iff.mp h]
  rfl

/-- A positive normal number is above zero, packed too; if it is too large it is packed as
infinity. -/
theorem zero_lt_pack {m : Nat} {e : Int} {pos : 0 < m} (hm : m.log2 = 52) (hlow : -1074 ≤ e) :
    (0.0 : Float) < .ofModel (.pack (.finite .positive m e pos)) := by
  have hzero : (0.0 : Float).toModel.unpack = .zero .positive := by rfl
  rw [float_lt_iff, hzero]
  by_cases hhigh : e ≤ 971
  · rw [unpack_pack hm hlow hhigh]
    rfl
  · have hbias : Format.binary64.exponentBias = 1023 := by decide
    have hpack : UnpackedFloat.pack Format.binary64 (.finite .positive m e pos) =
        packedInfinity Format.binary64 .positive := by
      simp only [UnpackedFloat.pack, hbias]
      rw [if_pos (by omega)]
    change UnpackedFloat.compare _ (UnpackedFloat.unpack _ (UnpackedFloat.pack _ _)) = _
    rw [hpack]
    rfl

/-! ### Counts -/

/-- One, with the leading bit of its mantissa at place 52. -/
theorem unpack_one :
    (1.0 : Float).toModel.unpack = .finite .positive (2 ^ 52) (-52) (by decide) := by
  rfl

theorem unpack_ofNat {n : Nat} (hn : 0 < n) (hlt : n < 2 ^ 53) : ∃ pos,
    (Float.Model.ofNat n).unpack =
      .finite .positive (n * 2 ^ (52 - n.log2)) (n.log2 - 52) pos := by
  have hlog := (Nat.log2_lt hn.ne').mpr hlt
  obtain ⟨pos, h⟩ := round_count .positive hn hlt
  refine ⟨pos, ?_⟩
  rw [Float.Model.ofNat, UnpackedFloat.ofNat, UnpackedFloat.ofInt, normalize_eq hn, h]
  exact unpack_pack (log2_filled hn hlt) (by omega) (by omega)

/-- Multiplying by one changes nothing. -/
theorem mul_one_eq {m : Nat} {e : Int} (pos : 0 < m) (hm : m.log2 = 52) (he : -1074 ≤ e) :
    UnpackedFloat.mul Format.binary64 (.finite .positive m e pos)
      (.finite .positive (2 ^ 52) (-52) (by decide)) = .finite .positive m e pos := by
  obtain ⟨_, h⟩ := roundWithAccuracy_exact .positive (k := 52) (e := e + -52) hm (by omega)
  have hexp : e + -52 + (52 : Nat) = e := by omega
  simp only [hexp] at h
  exact h

/-- **A count below `2 ^ 53` is a floating-point number.** -/
theorem unpack_toFloat {n : Nat} (hn : 0 < n) (hlt : n < 2 ^ 53) : ∃ pos,
    n.toFloat.toModel.unpack = .finite .positive (n * 2 ^ (52 - n.log2)) (n.log2 - 52) pos := by
  have hlog := (Nat.log2_lt hn.ne').mpr hlt
  obtain ⟨pos, h⟩ := unpack_ofNat hn hlt
  -- a whole number is read as a decimal without places: it is multiplied by one
  have hread : n.toFloat = n.toUInt64.toFloat * Float.ofBits 0x3FF0000000000000 := by
    change Float.ofScientific n false 0 = _
    rw [Float.ofScientific, dif_pos ⟨hlt, by decide⟩]
    rfl
  have hword : n.toUInt64.toFloat.toModel.unpack = (Float.Model.ofNat n).unpack := by
    change (Float.Model.ofNat n.toUInt64.toNat).unpack = _
    rw [Nat.toUInt64, UInt64.toNat_ofNat_of_lt' (hlt.trans (by decide))]
  have hone : (Float.ofBits 0x3FF0000000000000).toModel.unpack =
      .finite .positive (2 ^ 52) (-52) (by decide) := by rfl
  refine ⟨pos, ?_⟩
  rw [hread]
  change (Float.Model.pack (UnpackedFloat.mul _ n.toUInt64.toFloat.toModel.unpack
    (Float.ofBits 0x3FF0000000000000).toModel.unpack)).unpack = _
  rw [hword, h, hone, mul_one_eq pos (log2_filled hn hlt) (by omega)]
  exact unpack_pack (log2_filled hn hlt) (by omega) (by omega)

/-! ### Quotients -/

/-- The quotient of two mantissas has full length, or one bit more if the greater is divided.  It
stays away from the next power of two. -/
theorem quotient_bounds {a b : Nat} (apos : 0 < a) (bpos : 0 < b) (ha : a.log2 = 52)
    (hb : b.log2 = 52) :
    2 ^ 52 ≤ a * 2 ^ 53 / b ∧ a * 2 ^ 53 / b ≤ 2 ^ 54 - 2 ∧
      (a < b → a * 2 ^ 53 / b < 2 ^ 53 - 1) := by
  obtain ⟨alow, ahigh⟩ := (Nat.log2_eq_iff apos.ne').mp ha
  obtain ⟨blow, bhigh⟩ := (Nat.log2_eq_iff bpos.ne').mp hb
  refine ⟨?_, ?_, fun hlt => ?_⟩
  · rw [Nat.le_div_iff_mul_le bpos]
    omega
  · have hdiv := Nat.div_mul_le_self (a * 2 ^ 53) b
    have hleast := Nat.mul_le_mul_left (a * 2 ^ 53 / b) blow
    omega
  · rw [Nat.div_lt_iff_lt_mul bpos]
    omega

section Div
variable {a b : Nat} {e₁ e₂ : Int} (apos : 0 < a) (bpos : 0 < b) (ha : a.log2 = 52)
  (hb : b.log2 = 52) (he : -1021 ≤ e₁ - e₂)
include ha hb he

/-- Mantissas are divided with 53 more bits, and the rest tells how to round. -/
theorem div_eq :
    UnpackedFloat.div Format.binary64 (.finite .positive a e₁ apos) (.finite .positive b e₂ bpos) =
      roundWithAccuracy Format.binary64 .positive (a * 2 ^ 53 / b) (e₁ - e₂ - 53)
        (accuracyOfFraction (a * 2 ^ 53 % b) b) := by
  have hmin : Format.binary64.minExponent = -1074 := by decide
  have htarget : min (e₁ - e₂) (Format.binary64.targetExponent
      (totalExponent a e₁ - totalExponent b e₂)) = e₁ - e₂ - 53 := by
    simp only [Format.targetExponent, totalExponent, ha, hb, hmin, Format.mantissaBits]
    omega
  have hshift : (e₁ - e₂ - (e₁ - e₂ - 53)).toNat = 53 := by omega
  simp only [UnpackedFloat.div, divCore, htarget, hshift, Nat.shiftLeft_eq]
  rfl

/-- **A quotient below one is rounded to a number below one.** -/
theorem div_below_one (h : e₁ < e₂ ∨ e₁ = e₂ ∧ a < b) : ∃ m e pos,
    UnpackedFloat.div Format.binary64 (.finite .positive a e₁ apos) (.finite .positive b e₂ bpos) =
        .finite .positive m e pos ∧
      m.log2 = 52 ∧ e₁ - e₂ - 53 ≤ e ∧ e ≤ -53 := by
  obtain ⟨plow, pmax, pless⟩ := quotient_bounds apos bpos ha hb
  rw [div_eq apos bpos ha hb he]
  generalize accuracyOfFraction (a * 2 ^ 53 % b) b = acc
  generalize a * 2 ^ 53 / b = p at *
  have ppos : 0 < p := Nat.zero_lt_of_lt plow
  -- with a bit too many the quotient is rounded by that bit alone, and not up to the next power
  by_cases hp : p < 2 ^ 53
  · have hlog : p.log2 = 52 + 0 := (Nat.log2_eq_iff ppos.ne').mpr ⟨plow, hp⟩
    have hround : (ofMantissaAndAccuracy p acc >>> 0).roundedMantissa ≤ p + 1 :=
      roundedMantissa_le_add_one p acc
    rcases roundWithAccuracy_cases .positive acc hlog (e := e₁ - e₂ - 53) (by omega) with
      ⟨hm, pos, e⟩ | ⟨hfull, pos, e⟩
    · exact ⟨_, _, pos, e, hm, by omega, by omega⟩
    · exact ⟨_, _, pos, e, by decide, by omega, by omega⟩
  · have hlog : p.log2 = 52 + 1 := (Nat.log2_eq_iff ppos.ne').mpr ⟨by omega, by omega⟩
    have hround := roundedMantissa_shiftRight_one_le p acc
    rcases roundWithAccuracy_cases .positive acc hlog (e := e₁ - e₂ - 53) (by omega) with
      ⟨hm, pos, e⟩ | ⟨hfull, pos, e⟩
    · exact ⟨_, _, pos, e, hm, by omega, by omega⟩
    · omega

end Div

theorem div_same {a : Nat} {e : Int} (pos : 0 < a) (ha : a.log2 = 52) :
    UnpackedFloat.div Format.binary64 (.finite .positive a e pos) (.finite .positive a e pos) =
      .finite .positive (2 ^ 52) (-52) (by decide) := by
  obtain ⟨_, h⟩ := roundWithAccuracy_exact .positive (m := 2 ^ 52) (k := 1) (e := -53) (by decide)
    (by decide)
  have hquotient : a * 2 ^ 53 / a = 2 ^ 52 * 2 ^ 1 := Nat.mul_div_cancel_left _ pos
  rw [div_eq pos pos ha ha (by omega), hquotient, Nat.mul_mod_right, Int.sub_self]
  exact h

/-- **Something is missing to one from every number below it.** -/
theorem one_sub_normal {m : Nat} {e : Int} (pos : 0 < m) (hm : m.log2 = 52) (hlow : -1022 ≤ e)
    (hhigh : e ≤ -53) : ∃ m' e' pos',
      UnpackedFloat.sub Format.binary64 (.finite .positive (2 ^ 52) (-52) (by decide))
          (.finite .positive m e pos) = .finite .positive m' e' pos' ∧
        m'.log2 = 52 ∧ -1074 ≤ e' := by
  obtain ⟨-, mhigh⟩ := (Nat.log2_eq_iff pos.ne').mp hm
  obtain ⟨k, hk⟩ : ∃ k : Nat, -52 - e = k + 1 := ⟨(-53 - e).toNat, by omega⟩
  have hmin : min (-52) e = e := by omega
  have hshift : (-52 - e).toNat = k + 1 := by omega
  have hself : (e - e).toNat = 0 := by omega
  have hmore : m < 2 ^ 52 * 2 ^ (k + 1) := by
    have := Nat.two_pow_pos k
    rw [pow_succ]
    omega
  have hdiff : ((2 ^ 52 * 2 ^ (k + 1) : Nat) : Int) - (m * 2 ^ 0 : Nat) =
      (2 ^ 52 * 2 ^ (k + 1) - m : Nat) := by omega
  simp only [UnpackedFloat.sub, decreaseExponent, hmin, hshift, hself, Sign.apply, Nat.shiftLeft_eq]
  rw [hdiff, normalize_eq (Nat.sub_pos_of_lt hmore)]
  exact round_normal .positive (Nat.sub_pos_of_lt hmore) (by omega)

/-! ### Shares -/

/-- **Nothing is missing from a whole.** -/
theorem one_sub_div_self {n : Nat} (hn : 0 < n) (hlt : n < 2 ^ 53) :
    (1.0 : Float) - n.toFloat / n.toFloat = 0.0 := by
  obtain ⟨pos, h⟩ := unpack_toFloat hn hlt
  have hone : n.toFloat / n.toFloat =
      .ofModel (.pack (.finite .positive (2 ^ 52) (-52) (by decide))) := by
    change Float.ofModel (.pack (UnpackedFloat.div _ n.toFloat.toModel.unpack
      n.toFloat.toModel.unpack)) = _
    rw [h, div_same pos (log2_filled hn hlt)]
  rw [hone]
  rfl

/-- **Something is missing from every proper part.** -/
theorem one_sub_div_pos {n d : Nat} (hnd : n < d) (hd : d < 2 ^ 53) :
    (0.0 : Float) < 1.0 - n.toFloat / d.toFloat := by
  obtain ⟨dpos, hden⟩ := unpack_toFloat (Nat.zero_lt_of_lt hnd) hd
  change (0.0 : Float) < .ofModel (.pack (UnpackedFloat.sub _ (1.0 : Float).toModel.unpack
    (Float.Model.pack (UnpackedFloat.div _ n.toFloat.toModel.unpack
      d.toFloat.toModel.unpack)).unpack))
  rw [hden, unpack_one]
  rcases Nat.eq_zero_or_pos n with rfl | hn
  · change (0.0 : Float) < .ofModel (.pack (UnpackedFloat.sub _ _
      (Float.Model.pack (.zero .positive)).unpack))
    decide +kernel
  · obtain ⟨npos, hnum⟩ := unpack_toFloat hn (hnd.trans hd)
    have hlog : n.log2 ≤ d.log2 :=
      (Nat.le_log2 (Nat.zero_lt_of_lt hnd).ne').mpr ((Nat.log2_self_le hn.ne').trans hnd.le)
    have hdlog : d.log2 < 53 := (Nat.log2_lt (Nat.zero_lt_of_lt hnd).ne').mpr hd
    have hless : (n.log2 : Int) - 52 < d.log2 - 52 ∨ (n.log2 : Int) - 52 = d.log2 - 52 ∧
        n * 2 ^ (52 - n.log2) < d * 2 ^ (52 - d.log2) := by
      rcases hlog.lt_or_eq with hlt | heq
      · exact Or.inl (by omega)
      · exact Or.inr ⟨by omega, heq ▸ Nat.mul_lt_mul_of_pos_right hnd (Nat.two_pow_pos _)⟩
    obtain ⟨m, e, pos, hdiv, hm, hlow, hhigh⟩ := div_below_one npos dpos
      (log2_filled hn (hnd.trans hd)) (log2_filled (Nat.zero_lt_of_lt hnd) hd) (by omega) hless
    obtain ⟨m', e', pos', hsub, hm', hlow'⟩ := one_sub_normal pos hm (by omega) hhigh
    rw [hnum, hdiv, unpack_pack hm (by omega) (by omega), hsub]
    exact zero_lt_pack hm' hlow'

end ArchReview.Decimal

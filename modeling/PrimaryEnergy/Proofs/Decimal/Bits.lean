/-
  Doubles and their bits.

  The exact value of a double is read off its bits (`Double.ofFloat`), and the doubles of
  this library are made from bits.  Here the two are tied together:

  * `unpacksTo_unpack`: the five ways in which a pattern is unpacked;
  * `ofFloat_ofBits`: a double made from a pattern stands for what the pattern says, unless
    that is no number, where all patterns become one;
  * `ofFloat_bounds`: which numbers `± m · 2 ^ q` doubles stand for;
  * `ofBits_fields`: what a pattern says that is put together from its fields.
-/
import Mathlib.Tactic.Ring
import Mathlib.Tactic.SplitIfs
import PrimaryEnergy.Decimal.Double

namespace PrimaryEnergy.Decimal

open Float.Model Float.Model.UnpackedFloat

/-! ## Fields of a pattern -/

section
variable {b : BitVec Format.binary64.numBits}

theorem toNat_unpackMantissa : (unpackMantissa b).toNat = b.toNat % 2 ^ 52 := by
  simp [unpackMantissa]

theorem toNat_unpackExponent : (unpackExponent b).toNat = b.toNat / 2 ^ 52 % 2 ^ 11 := by
  simp [unpackExponent, BitVec.extractLsb, Nat.shiftRight_eq_div_pow]

theorem toNat_unpackSign : (unpackSign b).toNat = b.toNat / 2 ^ 63 % 2 := by
  unfold unpackSign
  simp [BitVec.extractLsb, Nat.shiftRight_eq_div_pow]

/-- The leading place of a significand is not part of the fraction. -/
theorem toNat_one_append :
    (1#1 ++ unpackMantissa b).toNat = 2 ^ 52 + (unpackMantissa b).toNat := by
  have hlt : (unpackMantissa b).toNat < 2 ^ 52 := (unpackMantissa b).isLt
  rw [BitVec.toNat_append, ← Nat.shiftLeft_add_eq_or_of_lt hlt]
  rfl

theorem toNat_packComponents (s : Sign) (e : BitVec 11) (m : BitVec 52) :
    (packComponents .binary64 s e m).toNat =
      s.toBitVec.toNat * 2 ^ 63 + e.toNat * 2 ^ 52 + m.toNat := by
  have he := e.isLt
  have hm := m.isLt
  unfold packComponents
  rw [BitVec.toNat_append, BitVec.toNat_append, ← Nat.shiftLeft_add_eq_or_of_lt hm,
    ← Nat.shiftLeft_add_eq_or_of_lt he]
  simp only [Nat.shiftLeft_eq]
  ring

theorem toBitVec_ofBitVec (v : BitVec 1) : (Sign.ofBitVec v).toBitVec = v := by
  revert v; decide

/-- A pattern is put together again from its sign, its exponent and its fraction. -/
theorem packComponents_unpack {e : BitVec 11} {m : BitVec 52} (he : unpackExponent b = e)
    (hm : unpackMantissa b = m) :
    packComponents .binary64 (Sign.ofBitVec (unpackSign b)) e m = b := by
  have hlt : b.toNat < 2 ^ 64 := b.isLt
  apply BitVec.eq_of_toNat_eq
  rw [toNat_packComponents, toBitVec_ofBitVec, toNat_unpackSign, ← he, ← hm,
    toNat_unpackExponent, toNat_unpackMantissa]
  omega

/-! ## From a number to its pattern -/

theorem pack_subnormal (s : Sign) {m : Nat} (hm : 0 < m) (h : m < 2 ^ 52) :
    UnpackedFloat.pack .binary64 (.finite s m (-1074) hm) =
      packComponents .binary64 s 0#11 (BitVec.ofNat 52 m) := by
  have hlog : m.log2 < 52 := (Nat.log2_lt hm.ne').2 h
  have hplaces : Format.binary64.mantissaBits = 53 := rfl
  unfold UnpackedFloat.pack
  simp only
  rw [if_neg (by decide), if_neg (by omega)]

theorem pack_normal (s : Sign) {m e : Nat} (hm : 0 < m) (hlow : 2 ^ 52 ≤ m) (hhigh : m < 2 ^ 53)
    (he : e < 2047) :
    UnpackedFloat.pack .binary64 (.finite s m ((e : Int) - 1075) hm) =
      packComponents .binary64 s (BitVec.ofNat 11 e) (BitVec.ofNat 52 m) := by
  have hlog : m.log2 = 52 := (Nat.log2_eq_iff hm.ne').2 ⟨hlow, hhigh⟩
  have hfield : ((e : Int) - 1075 + (Format.binary64.exponentBias : Nat) +
      (Format.binary64.mantissaBitsWithoutImplicit : Nat)).toNat = e := by
    show ((e : Int) - 1075 + (1023 : Nat) + (52 : Nat)).toNat = e
    omega
  unfold UnpackedFloat.pack
  simp only [hfield, hlog]
  rw [if_neg (by show ¬ 2 ^ 11 ≤ e + 1; omega), if_pos (by decide)]

/-! ## From a pattern to its number -/

/-- What a pattern is unpacked to, by its exponent and its fraction. -/
inductive UnpacksTo (b : BitVec Format.binary64.numBits) : UnpackedFloat → Prop where
  | infinity (he : unpackExponent b = -1#11) (hm : unpackMantissa b = 0#52) :
      UnpacksTo b (.infinity (Sign.ofBitVec (unpackSign b)))
  | notANumber (he : unpackExponent b = -1#11) (hm : unpackMantissa b ≠ 0#52) :
      UnpacksTo b .notANumber
  | zero (he : unpackExponent b = 0#11) (hm : unpackMantissa b = 0#52) :
      UnpacksTo b (.zero (Sign.ofBitVec (unpackSign b)))
  | subnormal (he : unpackExponent b = 0#11) (hm : 0 < (unpackMantissa b).toNat) :
      UnpacksTo b (.finite (Sign.ofBitVec (unpackSign b)) (unpackMantissa b).toNat (-1074) hm)
  | normal (he : unpackExponent b ≠ 0#11) (htop : (unpackExponent b).toNat < 2047)
      (hm : 0 < (1#1 ++ unpackMantissa b).toNat) :
      UnpacksTo b (.finite (Sign.ofBitVec (unpackSign b)) (1#1 ++ unpackMantissa b).toNat
        (((unpackExponent b).toNat : Int) - 1075) hm)

theorem unpacksTo_unpack (b : BitVec Format.binary64.numBits) :
    UnpacksTo b (UnpackedFloat.unpack .binary64 b) := by
  unfold UnpackedFloat.unpack
  dsimp only
  by_cases htop : unpackExponent b = -1#11
  · rw [if_pos htop]
    by_cases hm : unpackMantissa b = 0#52
    · rw [if_pos hm]
      exact .infinity htop hm
    · rw [if_neg hm]
      exact .notANumber htop hm
  · rw [if_neg htop]
    by_cases hlow : unpackExponent b = 0#11
    · rw [if_pos hlow]
      by_cases hm : unpackMantissa b = 0#52
      · rw [dif_pos hm]
        exact .zero hlow hm
      · rw [dif_neg hm, hlow]
        exact .subnormal hlow (Nat.pos_of_ne_zero fun h0 => hm (BitVec.eq_of_toNat_eq h0))
    · rw [if_neg hlow]
      have he := toNat_unpackExponent (b := b)
      have hne : (unpackExponent b).toNat ≠ 2047 := fun h0 =>
        htop (BitVec.eq_of_toNat_eq (h0.trans rfl))
      exact .normal hlow (by omega) _

/-- Nothing is lost of a pattern, unless it has the exponent of infinities and a fraction. -/
theorem pack_unpack (h : b.toNat / 2 ^ 52 % 2 ^ 11 = 2047 → b.toNat % 2 ^ 52 = 0) :
    UnpackedFloat.pack .binary64 (UnpackedFloat.unpack .binary64 b) = b := by
  have hlt : (unpackMantissa b).toNat < 2 ^ 52 := (unpackMantissa b).isLt
  have hu := unpacksTo_unpack b
  generalize UnpackedFloat.unpack .binary64 b = u at hu
  cases hu with
  | infinity he hm => exact packComponents_unpack he hm
  | notANumber he hm =>
    refine absurd (BitVec.eq_of_toNat_eq ?_) hm
    rw [toNat_unpackMantissa, h (by rw [← toNat_unpackExponent, he]; rfl)]
    rfl
  | zero he hm => exact packComponents_unpack he hm
  | subnormal he hm =>
    refine (pack_subnormal _ hm hlt).trans (packComponents_unpack he ?_)
    rw [BitVec.ofNat_toNat]; rfl
  | normal he htop hm =>
    have hone := toNat_one_append (b := b)
    refine (pack_normal _ _ (by omega) (by omega) htop).trans (packComponents_unpack ?_ ?_)
    · rw [BitVec.ofNat_toNat]; rfl
    · apply BitVec.eq_of_toNat_eq
      rw [BitVec.toNat_ofNat, hone]
      exact ((Nat.add_mod_left _ _).trans (Nat.mod_eq_of_lt hlt)).symm

end

/-! ## Doubles from patterns -/

theorem toBits_ofBits {n : Nat} (hn : n < 2 ^ 64) (h : Double.ofBits n ≠ .nan) :
    (Float.ofBits (UInt64.ofNat n)).toBits.toNat = n := by
  have hb : (UInt64.ofNat n).toBitVec.toNat = n := by
    rw [UInt64.toNat_toBitVec]; exact UInt64.toNat_ofNat_of_lt hn
  have hp : UnpackedFloat.pack .binary64
      (UnpackedFloat.unpack .binary64 (UInt64.ofNat n).toBitVec) = (UInt64.ofNat n).toBitVec := by
    refine pack_unpack fun htop => ?_
    rw [hb] at htop ⊢
    by_contra hf
    exact h ((if_pos htop).trans (if_neg hf))
  show (UInt64.ofBitVec (UnpackedFloat.pack .binary64 (UnpackedFloat.unpack .binary64 _))).toNat = n
  rw [hp]
  exact hb

/-- **A double made from a pattern stands for what the pattern says.** -/
theorem ofFloat_ofBits {n : Nat} (hn : n < 2 ^ 64) (h : Double.ofBits n ≠ .nan) :
    Double.ofFloat (Float.ofBits (UInt64.ofNat n)) = Double.ofBits n := by
  rw [Double.ofFloat, toBits_ofBits hn h]

/-- Patterns that say the same number or infinity are the same. -/
theorem ofBits_injOn {b c : Nat} (hb : b < 2 ^ 64) (hc : c < 2 ^ 64)
    (h : Double.ofBits b = Double.ofBits c) (hn : Double.ofBits b ≠ .nan) : b = c := by
  have hbit : exponentBit = 2 ^ 52 := rfl
  have hsign : signBit = 2 ^ 63 := rfl
  unfold Double.ofBits at h hn
  simp only [hbit, hsign] at h hn
  -- sign, exponent and fraction are the same
  have hs : (b / 2 ^ 63 % 2 == 1) = (c / 2 ^ 63 % 2 == 1) := by
    split_ifs at h hn <;> first | exact absurd rfl hn | exact (by injection h)
  have hef : b / 2 ^ 52 % 2048 = c / 2 ^ 52 % 2048 ∧ b % 2 ^ 52 = c % 2 ^ 52 := by
    split_ifs at h hn <;> first | exact absurd rfl hn | (injection h; omega)
  rw [Bool.eq_iff_iff, beq_iff_eq, beq_iff_eq] at hs
  omega

/-- Only one pattern is no number. -/
theorem toBits_of_nan {x : Float} (h : Double.ofFloat x = .nan) :
    x.toBits.toBitVec = packedNaN .binary64 := by
  have he : x.toBits.toNat / 2 ^ 52 % 2 ^ 11 = 2047 ∧ x.toBits.toNat % 2 ^ 52 ≠ 0 := by
    unfold Double.ofFloat Double.ofBits at h
    simp only at h
    split_ifs at h with h₁ h₂
    exact ⟨h₁, h₂⟩
  refine x.toModel.valid.eq_packedNaN (BitVec.eq_of_toNat_eq ?_) fun h0 => he.2 ?_
  · exact toNat_unpackExponent.trans he.1
  · exact toNat_unpackMantissa.symm.trans (congrArg BitVec.toNat h0)

/-- **A double is what it stands for**: no two of them stand for the same, zeros included. -/
theorem ofFloat_injective {x y : Float} (h : Double.ofFloat x = Double.ofFloat y) : x = y := by
  have hbits : x.toBits = y.toBits := by
    by_cases hn : Double.ofFloat x = .nan
    · exact UInt64.toBitVec_inj.1 ((toBits_of_nan hn).trans (toBits_of_nan (h ▸ hn)).symm)
    · exact UInt64.toNat_inj.1
        (ofBits_injOn x.toBits.toNat_lt y.toBits.toNat_lt h hn)
  obtain ⟨⟨b, hb⟩⟩ := x
  obtain ⟨⟨c, hc⟩⟩ := y
  obtain rfl : b = c := hbits
  rfl

theorem ofFloat_notANumber : Double.ofFloat notANumber = .nan := rfl

theorem ofFloat_infinity (negative : Bool) :
    Double.ofFloat (infinity negative) = .infinite negative := by
  cases negative <;> rfl

/-- What a pattern says that is put together from exponent, fraction and sign. -/
theorem ofBits_fields (negative : Bool) {e f : Nat} (he : e < 2048) (hf : f < exponentBit) :
    Double.ofBits (f + e * exponentBit + signBits negative) =
      if e = 2047 then if f = 0 then .infinite negative else .nan
      else if e = 0 then .finite negative f (-1074)
      else .finite negative (exponentBit + f) ((e : Int) - 1075) := by
  have hbit : exponentBit = 2 ^ 52 := rfl
  have hsign : signBit = 2 ^ 63 := rfl
  have hbits : signBits negative = 0 ∨ signBits negative = 2 ^ 63 := by
    cases negative <;> simp [signBits, hsign]
  have hs : (signBits negative / signBit == 1) = negative := by cases negative <;> rfl
  have h₁ : (f + e * exponentBit + signBits negative) / signBit % 2 =
      signBits negative / signBit := by
    rw [hbit] at hf ⊢; rw [hsign]; omega
  have h₂ : (f + e * exponentBit + signBits negative) / exponentBit % 2048 = e := by
    rw [hbit] at hf ⊢; omega
  have h₃ : (f + e * exponentBit + signBits negative) % exponentBit = f := by
    rw [hbit] at hf ⊢; omega
  unfold Double.ofBits
  simp only [h₁, h₂, h₃, hs]

/-! ## Bounds -/

/-- The exponent of the largest doubles. -/
def topExponent : Int := 971

theorem ofBits_bounds {b : Nat} {negative : Bool} {m : Nat} {q : Int}
    (h : Double.ofBits b = .finite negative m q) :
    m < 2 ^ 53 ∧ -1074 ≤ q ∧ q ≤ topExponent := by
  have htop : topExponent = 971 := rfl
  have hbit : exponentBit = 2 ^ 52 := rfl
  have hlt : b % exponentBit < exponentBit := Nat.mod_lt _ (by decide)
  unfold Double.ofBits at h
  simp only at h
  split_ifs at h with h₁ h₂ h₃ <;> cases h <;> omega

/-- The numbers that doubles stand for. -/
theorem ofFloat_bounds {x : Float} {negative : Bool} {m : Nat} {q : Int}
    (h : Double.ofFloat x = .finite negative m q) :
    m < 2 ^ 53 ∧ -1074 ≤ q ∧ q ≤ topExponent :=
  ofBits_bounds h

end PrimaryEnergy.Decimal

/-
  Decimals with a fixed number of places, read back.

  * `Shows` tells what number a text of digits with a point stands for, and
    `shows_fixedUnits` that the text of `± n · 10 ^ -places` stands for this number;
  * `ofChars?_fixedUnits`: the text of `± n · 10 ^ -places` is read as this number;
  * `roundedTo` is the double that the text of a double stands for: both grammars of
    numbers read it so (`freeNumber?_fixedChars`, `fieldNumber?_fixedChars`);
  * `fixed_roundedTo`: writing that double gives the same text.
-/
import Mathlib.Data.List.TakeWhile
import PrimaryEnergy.Decimal.Fixed
import PrimaryEnergy.Decimal.Numeral
import PrimaryEnergy.Proofs.Decimal.Nearest

namespace PrimaryEnergy.Decimal

open Text Numeral

/-! ## Digits -/

theorem digitChar_mod (n : Nat) : digitChar (n % 10) = digitChar n := by
  rw [digitChar, digitChar, Nat.mod_mod]

/-- What holds of the ten digits holds of every digit that is written. -/
theorem forall_digitChar {P : Char → Prop} (h : ∀ d < 10, P (digitChar d)) (n : Nat) :
    P (digitChar n) := by
  rw [← digitChar_mod]
  exact h _ (Nat.mod_lt _ (by decide))

theorem toNat_digitChar (n : Nat) : (digitChar n).toNat = 48 + n % 10 := by
  have h : ∀ d < 10, (digitChar d).toNat = 48 + d := by decide
  rw [← digitChar_mod, h _ (Nat.mod_lt _ (by decide))]

theorem forall_digits {P : Char → Prop} (h : ∀ d < 10, P (digitChar d)) (n : Nat) :
    ∀ c ∈ digits n, P c := by
  induction n using digits.induct with
  | case1 n hn =>
    rw [digits, if_pos hn]
    intro c hc
    rw [List.mem_singleton.1 hc]
    exact forall_digitChar h n
  | case2 n hn ih =>
    rw [digits, if_neg hn]
    intro c hc
    rcases List.mem_append.1 hc with hc | hc
    · exact ih c hc
    · rw [List.mem_singleton.1 hc]
      exact forall_digitChar h n

theorem forall_lowDigits {P : Char → Prop} (h : ∀ d < 10, P (digitChar d)) (k n : Nat) :
    ∀ c ∈ lowDigits k n, P c := by
  induction k generalizing n with
  | zero => intro c hc; cases hc
  | succ k ih =>
    intro c hc
    rcases List.mem_append.1 hc with hc | hc
    · exact ih _ c hc
    · rw [List.mem_singleton.1 hc]
      exact forall_digitChar h n

/-! ## Their value -/

theorem valueOf_append_digit (s : List Char) (n : Nat) :
    valueOf (s ++ [digitChar n]) = 10 * valueOf s + n % 10 := by
  rw [valueOf, List.foldl_append]
  show 10 * valueOf s + ((digitChar n).toNat - 48) = _
  rw [toNat_digitChar]
  omega

theorem valueOf_digits (n : Nat) : valueOf (digits n) = n := by
  induction n using digits.induct with
  | case1 n hn =>
    rw [digits, if_pos hn]
    have h := valueOf_append_digit [] n
    rw [List.nil_append] at h
    rw [h, Nat.mod_eq_of_lt hn]
    exact Nat.zero_add n
  | case2 n hn ih =>
    rw [digits, if_neg hn, valueOf_append_digit, ih]
    omega

/-- The last digits of a number after the digits of what is before them. -/
theorem valueOf_append_lowDigits (s : List Char) (k n : Nat) :
    valueOf (s ++ lowDigits k n) = valueOf s * 10 ^ k + n % 10 ^ k := by
  induction k generalizing n with
  | zero => rw [lowDigits, List.append_nil, Nat.pow_zero, Nat.mod_one, Nat.mul_one, Nat.add_zero]
  | succ k ih =>
    rw [lowDigits, ← List.append_assoc, valueOf_append_digit, ih, Nat.pow_succ', Nat.mod_mul]
    ring

/-! ## The text of a number of units -/

theorem isPlainDigit_digitChar : ∀ d < 10, isPlainDigit (digitChar d) = true := by decide

/-- Digits, followed by what is a fraction up to the end. -/
theorem unsigned?_append {whole tail part : List Char} (hne : whole ≠ [])
    (hw : ∀ c ∈ whole, isPlainDigit c = true) (ht : tail.head?.all (!isPlainDigit ·) = true)
    (hf : fraction tail = (part, [])) :
    unsigned? (whole ++ tail) = some (valueOf (whole ++ part), -(part.length : Int)) := by
  have htake : tail.takeWhile isPlainDigit = [] := by
    cases tail with
    | nil => rfl
    | cons c r => exact List.takeWhile_cons_of_neg (by simpa using ht)
  have hdrop : tail.dropWhile isPlainDigit = tail := by
    have := List.takeWhile_append_dropWhile (p := isPlainDigit) (l := tail)
    rwa [htake] at this
  have hempty : whole.isEmpty = false := List.isEmpty_eq_false_iff.2 hne
  rw [unsigned?, List.takeWhile_append_of_pos hw, List.dropWhile_append_of_pos hw, htake, hdrop, hf,
    List.append_nil]
  simp only [hempty, Bool.false_and, Bool.false_eq_true, if_false]

/-- The text is a sign, if any, and digits that make up the number `n`, the last `places` of
    them behind a point: it stands for `± n · 10 ^ -places`. -/
def Shows (places : Nat) (negative : Bool) (n : Nat) (s : List Char) : Prop :=
  ∃ whole part : List Char, whole ≠ [] ∧ part.length = places ∧
    (∀ c ∈ whole ++ part, isPlainDigit c = true) ∧ valueOf (whole ++ part) = n ∧
    s = (if negative then ['-'] else []) ++ whole ++ (if places = 0 then [] else '.' :: part)

theorem shows_fixedUnits (places : Nat) (negative : Bool) (n : Nat) :
    Shows places negative n (fixedUnits places negative n) := by
  refine ⟨_, _, digits_ne_nil (n / Nat.pow 10 places), length_lowDigits places n, ?_, ?_, rfl⟩
  · intro c hc
    rcases List.mem_append.1 hc with hc | hc
    · exact forall_digits (P := fun c => isPlainDigit c = true) isPlainDigit_digitChar _ c hc
    · exact forall_lowDigits (P := fun c => isPlainDigit c = true) isPlainDigit_digitChar _ _ c hc
  · rw [valueOf_append_lowDigits, valueOf_digits]
    exact Nat.div_add_mod' n (10 ^ places)

theorem unsigned?_of_shows {places n : Nat} {s : List Char} (h : Shows places false n s) :
    unsigned? s = some (n, -(places : Int)) := by
  obtain ⟨whole, part, hne, hlength, hdigits, hvalue, rfl⟩ := h
  obtain ⟨hwhole, hpart⟩ := List.forall_mem_append.1 hdigits
  have hfraction : fraction (if places = 0 then [] else '.' :: part) = (part, []) := by
    split_ifs with h0
    · rw [List.eq_nil_of_length_eq_zero (hlength.trans h0)]; rfl
    · rw [fraction, List.takeWhile_eq_self_iff.2 hpart, List.dropWhile_eq_nil_iff.2 hpart]
  have h := unsigned?_append hne hwhole (by split_ifs <;> rfl) hfraction
  rwa [hvalue, hlength] at h

/-- The first character of an unsigned text is a digit. -/
theorem exists_fixedUnits_eq_cons (places n : Nat) :
    ∃ d r, d < 10 ∧ fixedUnits places false n = digitChar d :: r := by
  obtain ⟨c, r, hc⟩ := List.exists_cons_of_ne_nil (digits_ne_nil (n / Nat.pow 10 places))
  have hd : ∃ d < 10, c = digitChar d :=
    forall_digits (P := fun c => ∃ d < 10, c = digitChar d) (fun d hd => ⟨d, hd, rfl⟩) _ c
      (by rw [hc]; exact List.mem_cons_self)
  obtain ⟨d, hd, rfl⟩ := hd
  refine ⟨d, r ++ (if places = 0 then [] else '.' :: lowDigits places n), hd, ?_⟩
  rw [fixedUnits, hc]
  rfl

/-- **The text of a number with fixed places is read as this number.** -/
theorem ofChars?_fixedUnits (places : Nat) (negative : Bool) (n : Nat) :
    ofChars? (fixedUnits places negative n) = some (.decimal negative n (-(places : Int))) := by
  obtain ⟨d, r, hd, hcons⟩ := exists_fixedUnits_eq_cons places n
  have hsigned : signed (fixedUnits places negative n) = (negative, fixedUnits places false n) := by
    cases negative with
    | true => rfl
    | false =>
      rw [hcons]
      have h : ∀ d < 10, digitChar d ≠ '-' ∧ digitChar d ≠ '+' := by decide
      obtain ⟨h₁, h₂⟩ := h d hd
      unfold signed
      split
      · rename_i heq; exact absurd (List.cons.inj heq).1 h₁
      · rename_i heq; exact absurd (List.cons.inj heq).1 h₂
      · rfl
  have hword : ∀ d < 10, (digitChar d).toLower ≠ 'i' ∧ (digitChar d).toLower ≠ 'n' := by decide
  obtain ⟨hi, hn⟩ := hword d hd
  have hlower : lowerAscii (fixedUnits places false n) = (digitChar d).toLower :: lowerAscii r := by
    rw [hcons]; rfl
  rw [ofChars?, hsigned]
  simp only [hlower, unsigned?_of_shows (shows_fixedUnits places false n)]
  rw [if_neg, if_neg]
  · rfl
  · exact fun h => hn (List.cons.inj h).1
  · rintro (h | h) <;> exact hi (List.cons.inj h).1

/-! ## The characters of a text -/

/-- The characters that texts with fixed places are made of. -/
def fixedAlphabet : List Char :=
  ['0', '1', '2', '3', '4', '5', '6', '7', '8', '9', '.', '-', 'i', 'n', 'f', 'a']

theorem digitChar_mem_fixedAlphabet : ∀ d < 10, digitChar d ∈ fixedAlphabet := by decide

theorem mem_fixedAlphabet_of_mem_fixedUnits {places : Nat} {negative : Bool} {n : Nat} {c : Char}
    (h : c ∈ fixedUnits places negative n) : c ∈ fixedAlphabet := by
  rw [fixedUnits, List.mem_append, List.mem_append] at h
  rcases h with (h | h) | h
  · split_ifs at h
    · rw [List.mem_singleton.1 h]; decide
    · cases h
  · exact forall_digits digitChar_mem_fixedAlphabet _ c h
  · split_ifs at h
    · cases h
    · rcases List.mem_cons.1 h with rfl | h
      · decide
      · exact forall_lowDigits digitChar_mem_fixedAlphabet _ _ c h

theorem mem_fixedAlphabet {places : Nat} {x : Float} {c : Char} (h : c ∈ fixedChars places x) :
    c ∈ fixedAlphabet := by
  unfold fixedChars at h
  split at h
  · revert c; decide
  · rename_i negative _
    revert c; cases negative <;> decide
  · exact mem_fixedAlphabet_of_mem_fixedUnits h

theorem fixedChars_ne_nil (places : Nat) (x : Float) : fixedChars places x ≠ [] := by
  unfold fixedChars
  split
  · nofun
  · rename_i negative _
    cases negative <;> nofun
  · intro h
    have hn := digits_ne_nil
    rw [fixedUnits, List.append_eq_nil_iff, List.append_eq_nil_iff] at h
    exact hn _ h.1.2

/-! ## Reading it -/

theorem trimBy_eq_self_of_forall {p : Char → Bool} {s : List Char} (h : ∀ c ∈ s, p c = false) :
    trimBy p s = s :=
  trimBy_eq_self (fun c hc => h c (List.mem_of_mem_head? hc))
    (fun c hc => h c (List.mem_of_getLast? hc))

theorem joinDigits?_eq_some {s : List Char} (h : '_' ∉ s) (before : Bool) :
    joinDigits? before s = some s := by
  induction s generalizing before with
  | nil => rfl
  | cons c r ih =>
    have hc : c ≠ '_' := fun hc => h (hc ▸ List.mem_cons_self)
    have hr := ih (fun hr => h (List.mem_cons_of_mem _ hr)) (isPlainDigit c)
    rw [joinDigits?]
    · rw [if_neg hc, hr]; rfl
    · exact fun _ _ heq => absurd heq hc

theorem plainDigits_eq_self {s : List Char} (h : ∀ c ∈ s, c ∈ fixedAlphabet) :
    plainDigits s = s := by
  have hplain : ∀ c ∈ fixedAlphabet, plainDigits [c] = [c] := by decide
  induction s with
  | nil => rfl
  | cons c s ih =>
    have hcons : plainDigits (c :: s) = plainDigits [c] ++ plainDigits s := rfl
    rw [hcons, hplain c (h c List.mem_cons_self), ih fun d hd => h d (List.mem_cons_of_mem _ hd)]
    rfl

section
variable {s : List Char} {n : Numeral}

theorem trimSpace_eq_self (h : ∀ c ∈ s, c ∈ fixedAlphabet) : trimSpace s = s := by
  have hspace : ∀ c ∈ fixedAlphabet, isWhiteSpace c = false := by decide
  exact trimBy_eq_self_of_forall fun c hc => hspace c (h c hc)

theorem freeNumber?_of_ofChars? (h : ∀ c ∈ s, c ∈ fixedAlphabet) (hn : ofChars? s = some n) :
    freeNumber? s = some n.toFloat := by
  have hu : '_' ∉ s := fun hu => absurd (h _ hu) (by decide)
  rw [freeNumber?, trimSpace_eq_self h, plainDigits_eq_self h, joinDigits?_eq_some hu,
    Option.bind_some, hn]
  rfl

theorem fieldNumber?_of_ofChars? (h : ∀ c ∈ s, c ∈ fixedAlphabet) (hn : ofChars? s = some n) :
    fieldNumber? s = some n.toFloat := by
  rw [fieldNumber?, trimSpace_eq_self h, hn]

end

/-- The number that a double is written as with fixed places. -/
def fixedNumeral (places : Nat) (x : Float) : Numeral :=
  match Double.ofFloat x with
  | .nan => .nan
  | .infinite negative => .infinite negative
  | .finite negative m q => .decimal negative (scaledUnits places m q) (-(places : Int))

/-- The double that the text of a double with fixed places stands for. -/
def roundedTo (places : Nat) (x : Float) : Float := (fixedNumeral places x).toFloat

theorem ofChars?_fixedChars (places : Nat) (x : Float) :
    ofChars? (fixedChars places x) = some (fixedNumeral places x) := by
  unfold fixedChars fixedNumeral
  cases Double.ofFloat x with
  | nan => rfl
  | infinite negative => cases negative <;> rfl
  | finite negative m q => exact ofChars?_fixedUnits places negative _

theorem freeNumber?_fixedChars (places : Nat) (x : Float) :
    freeNumber? (fixedChars places x) = some (roundedTo places x) :=
  freeNumber?_of_ofChars? (fun _ => mem_fixedAlphabet) (ofChars?_fixedChars places x)

theorem fieldNumber?_fixedChars (places : Nat) (x : Float) :
    fieldNumber? (fixedChars places x) = some (roundedTo places x) :=
  fieldNumber?_of_ofChars? (fun _ => mem_fixedAlphabet) (ofChars?_fixedChars places x)

/-! ## The double nearest to a number of units -/

/-- What is less than half of the smallest double becomes zero. -/
theorem magnitudeBits_of_lt {num den : Nat} (hden : 0 < den)
    (h : (num : ℚ) / den < 2 ^ (-1075 : ℤ)) : magnitudeBits num den = 0 := by
  obtain ⟨hlow, -, hlead⟩ := gridExponent_spec num hden
  have hg : gridExponent num den = -1074 := by
    by_contra hne
    have hle := (hlead (by omega)).trans_lt h
    have := (zpow_lt_zpow_iff_right₀ one_lt_two).1 hle
    omega
  have hzero : IsNearestEven ((num : ℚ) / den / 2 ^ gridExponent num den) 0 := by
    have hhalf : (num : ℚ) / den / 2 ^ (-1074 : ℤ) ≤ 1 / 2 := by
      rw [div_le_iff₀ (by positivity)]
      exact h.le.trans_eq ((zpow_sub_one₀ two_ne_zero (-1074)).trans (by ring))
    refine ⟨?_, fun _ => rfl⟩
    rw [hg, Nat.cast_zero, sub_zero, abs_of_nonneg (by positivity)]
    exact hhalf
  have hunits : gridUnits num den = 0 := (isNearestEven_gridUnits num hden).eq hzero
  show min (gridUnits num den + (gridExponent num den + 1074).toNat * exponentBit) _ = 0
  rw [hunits, hg]
  rfl

theorem nearest_of_lt (negative : Bool) {num den : Nat} (hden : 0 < den)
    (h : (num : ℚ) / den < 2 ^ (-1075 : ℤ)) : nearest negative num den = nearest negative 0 1 := by
  have hzero : ((0 : ℕ) : ℚ) / (1 : ℕ) < 2 ^ (-1075 : ℤ) := by
    rw [Nat.cast_zero, zero_div]; positivity
  rw [nearest, nearest, magnitudeBits_of_lt hden h, magnitudeBits_of_lt Nat.one_pos hzero]

/-- With more decimal places than that, a number is less than half of the smallest double. -/
theorem div_ten_pow_lt {n places : Nat} (h : 400 + n.log2 < places) :
    (n : ℚ) / (10 ^ places : ℕ) < 2 ^ (-1075 : ℤ) := by
  have hn : (n : ℚ) < 2 ^ (n.log2 + 1) := by exact_mod_cast Nat.lt_log2_self
  have h10 : (2 : ℚ) ^ (3 * places) ≤ (10 ^ places : ℕ) := by
    rw [pow_mul, Nat.cast_pow, Nat.cast_ofNat]
    exact pow_le_pow_left₀ (by norm_num) (by norm_num) places
  have hpos : (0 : ℚ) < (10 ^ places : ℕ) := by positivity
  rw [div_lt_iff₀ hpos]
  calc (n : ℚ) < 2 ^ ((n.log2 + 1 : ℕ) : ℤ) := by rwa [zpow_natCast]
    _ ≤ 2 ^ ((-1075 : ℤ) + (3 * places : ℕ)) := zpow_le_zpow_right₀ one_le_two (by omega)
    _ = 2 ^ (-1075 : ℤ) * 2 ^ (3 * places) := by rw [zpow_add_natCast, mul_comm]
    _ ≤ 2 ^ (-1075 : ℤ) * (10 ^ places : ℕ) := mul_le_mul_of_nonneg_left h10 (by positivity)

/-- A number of units is not out of the range of the doubles, or it is rounded to zero. -/
theorem nearestDecimal_units (places : Nat) (negative : Bool) (n : Nat) :
    nearestDecimal negative n (-(places : Int)) = nearest negative n (10 ^ places) := by
  have h10 : 0 < 10 ^ places := Nat.pow_pos (by decide)
  unfold nearestDecimal
  split_ifs with h0 h₁ h₂
  · refine (nearest_of_lt negative h10 ?_).symm
    rw [h0, Nat.cast_zero, zero_div]
    positivity
  · omega
  · exact (nearest_of_lt negative h10 (div_ten_pow_lt (by omega))).symm
  · have h₁ : (-(places : Int)).toNat = 0 := by omega
    have h₂ : (-(-(places : Int))).toNat = places := by omega
    rw [h₁, h₂]
    simp only [Nat.pow_eq, Nat.pow_zero, Nat.mul_one]

/-! ## Writing it again -/

/-- What a finite double is written as is a number of units, and is read as the double nearest
    to them. -/
theorem roundedTo_of_ofFloat {places : Nat} {x : Float} {negative : Bool} {m : Nat} {q : Int}
    (hx : Double.ofFloat x = .finite negative m q) :
    roundedTo places x = nearest negative (scaledUnits places m q) (10 ^ places) := by
  rw [roundedTo, fixedNumeral, hx]
  exact nearestDecimal_units places negative _

/-- The words for what is no finite double are read as what they are written for. -/
theorem roundedTo_eq_self {x : Float} (h : ∀ negative m q, Double.ofFloat x ≠ .finite negative m q)
    (places : Nat) : roundedTo places x = x := by
  apply ofFloat_injective
  unfold roundedTo fixedNumeral
  cases hx : Double.ofFloat x with
  | nan => exact ofFloat_notANumber
  | infinite negative => exact ofFloat_infinity negative
  | finite negative m q => exact absurd hx (h negative m q)

/-- **The double that a text with fixed places stands for has this text.** -/
theorem fixedChars_roundedTo (places : Nat) (x : Float) :
    fixedChars places (roundedTo places x) = fixedChars places x := by
  cases hx : Double.ofFloat x with
  | nan => rw [roundedTo_eq_self (fun _ _ _ h => nomatch hx.symm.trans h)]
  | infinite => rw [roundedTo_eq_self (fun _ _ _ h => nomatch hx.symm.trans h)]
  | finite negative m q =>
    obtain ⟨hm, hlow, hhigh⟩ := ofFloat_bounds hx
    obtain ⟨m', q', hy, hunits⟩ := scaledUnits_nearest negative places hm hlow hhigh
    rw [← roundedTo_of_ofFloat hx] at hy
    rw [fixedChars, fixedChars, hx, hy]
    exact congrArg (fixedUnits places negative) hunits

theorem toList_fixed (places : Nat) (x : Float) : (fixed places x).toList = fixedChars places x :=
  String.toList_ofList

theorem fixed_roundedTo (places : Nat) (x : Float) :
    fixed places (roundedTo places x) = fixed places x := by
  rw [fixed, fixed, fixedChars_roundedTo]

end PrimaryEnergy.Decimal

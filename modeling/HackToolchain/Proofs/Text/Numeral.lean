import HackToolchain.Text

/-!
Decimal numerals. Reading a numeral gives back the number it was written from, so that different
numbers have different numerals.
-/

namespace HackToolchain.Text

theorem digit_facts : ∀ n < 10, isDigit (digit n) = true ∧ (digit n - 48).toNat = n := by decide

theorem digits_ne_nil (fuel n : Nat) : digits (fuel + 1) n ≠ [] := by
  unfold digits
  split <;> simp

theorem ofNat_ne_nil (n : Nat) : ofNat n ≠ [] := digits_ne_nil n n

theorem digits_all (fuel n : Nat) : (digits fuel n).all isDigit = true := by
  induction fuel generalizing n with
  | zero => rfl
  | succ fuel ih =>
    unfold digits
    split
    · rename_i small
      simp [(digit_facts n small).1]
    · have last := (digit_facts (n % 10) (Nat.mod_lt n (by omega))).1
      simp [ih, last]

theorem ofNat_all (n : Nat) : (ofNat n).all isDigit = true := digits_all (n + 1) n

theorem value_concat (ds : Text) (b : UInt8) : value (ds ++ [b]) = 10 * value ds + (b - 48).toNat := by
  simp [value]

theorem value_digits {fuel n : Nat} (enough : n < fuel) : value (digits fuel n) = n := by
  induction fuel generalizing n with
  | zero => omega
  | succ fuel ih =>
    unfold digits
    split
    · rename_i small
      simpa [value] using (digit_facts n small).2
    · have last := (digit_facts (n % 10) (Nat.mod_lt n (by omega))).2
      rw [value_concat, ih (by omega), last]
      omega

theorem toNat?_ofNat (n : Nat) : toNat? (ofNat n) = some n := by
  unfold toNat?
  simp only [ofNat_all, Bool.not_true, Bool.or_false, List.isEmpty_iff, ofNat_ne_nil, if_false]
  exact congrArg some (value_digits (Nat.lt_succ_self n))

theorem ofNat_injective {m n : Nat} (same : ofNat m = ofNat n) : m = n := by
  have read := toNat?_ofNat m
  rw [same, toNat?_ofNat] at read
  exact (Option.some.inj read).symm

/-- Digits carry no sign, so that reading an integer from them reads a natural number. -/
theorem toInt?_digits {t : Text} (digits : t.all isDigit = true) :
    toInt? t = ((toNat? t).map Int.ofNat).filter fitsWord := by
  unfold toInt?
  split
  · simp [isDigit] at digits
  · simp [isDigit] at digits
  · rfl

theorem toInt?_numeral {t : Text} (nonempty : t ≠ []) (digits : t.all isDigit = true) :
    toInt? t = if value t < 0x8000000000000000 then some (value t : Int) else none := by
  have read : toNat? t = some (value t) := by simp [toNat?, nonempty, digits]
  have fits : fitsWord (value t) = true ↔ value t < 0x8000000000000000 := by
    have low : leastWord ≤ (value t : Int) := Int.le_trans (by decide) (Int.natCast_nonneg (value t))
    simp only [fitsWord, Bool.and_eq_true, decide_eq_true_eq, low, true_and]
    omega
  rw [toInt?_digits digits, read, Option.map_some, Option.filter_some, Int.ofNat_eq_natCast]
  simp only [fits]

theorem toInt?_ofInt {n : Int} (fits : fitsWord n = true) : toInt? (ofInt n) = some n := by
  cases n with
  | ofNat n =>
    have read : (toNat? (ofNat n)).map Int.ofNat = some (Int.ofNat n) := by rw [toNat?_ofNat]; rfl
    rw [ofInt, toInt?_digits (ofNat_all n), read]
    simpa [Option.filter] using fits
  | negSucc n =>
    have read : toInt? (45 :: ofNat (n + 1)) = (some (-Int.ofNat (n + 1))).filter fitsWord := by
      simp [toInt?, toNat?_ofNat]
    have sign : -Int.ofNat (n + 1) = Int.negSucc n := rfl
    rw [ofInt, read, sign]
    simpa [Option.filter] using fits

theorem toNat?_eq_none {t : Text} {b : UInt8} (member : b ∈ t) (other : isDigit b = false) : toNat? t = none := by
  have mixed : t.all isDigit = false := by
    rw [List.all_eq_false]
    exact ⟨b, member, by simp [other]⟩
  simp [toNat?, mixed]

/-- A text with a byte that is neither a digit nor a sign is no number. -/
theorem toInt?_eq_none {t : Text} {b : UInt8} (member : b ∈ t) (other : isDigit b = false)
    (unsigned : b ≠ 43 ∧ b ≠ 45) : toInt? t = none := by
  unfold toInt?
  split
  · rename_i digits
    have inside : b ∈ digits := (List.mem_cons.mp member).resolve_left unsigned.1
    simp [toNat?_eq_none inside other]
  · rename_i digits
    have inside : b ∈ digits := (List.mem_cons.mp member).resolve_left unsigned.2
    simp [toNat?_eq_none inside other]
  · simp [toNat?_eq_none member other]

/-! ### Length -/

/-- No digits stand for a number in fewer bytes than its numeral. -/
theorem digits_length (fuel : Nat) {t : Text} (nonempty : t ≠ []) (all : t.all isDigit = true) :
    (digits fuel (value t)).length ≤ t.length := by
  induction fuel generalizing t with
  | zero => exact Nat.zero_le _
  | succ fuel ih =>
    obtain ⟨front, b, rfl⟩ := (List.eq_nil_or_concat t).resolve_left nonempty
    rw [List.concat_eq_append] at all ⊢
    rw [List.all_append, Bool.and_eq_true] at all
    have last : (b - 48).toNat < 10 := by
      have range : 48 ≤ b ∧ b ≤ 57 := by simpa [isDigit] using all.2
      have high : b.toNat ≤ 57 := UInt8.le_iff_toNat_le.mp range.2
      rw [UInt8.toNat_sub_of_le _ _ range.1]
      show b.toNat - 48 < 10
      omega
    rw [value_concat, digits, List.length_append, List.length_singleton]
    split
    · exact Nat.le_add_left 1 _
    · rename_i large
      have more : front ≠ [] := by
        rintro rfl
        simp only [value, List.foldl_nil] at large
        omega
      rw [show (10 * value front + (b - 48).toNat) / 10 = value front by omega, List.length_append, List.length_singleton]
      exact Nat.succ_le_succ (ih more all.1)

theorem ofNat_length {t : Text} {n : Nat} (read : toNat? t = some n) : (ofNat n).length ≤ t.length := by
  unfold toNat? at read
  split at read
  · cases read
  · rename_i digits
    obtain rfl := Option.some.inj read
    simp only [Bool.or_eq_true, Bool.not_eq_true', not_or, Bool.not_eq_false, List.isEmpty_iff] at digits
    exact digits_length _ digits.1 digits.2

theorem ofInt_length {t : Text} {n : Int} (read : toInt? t = some n) (natural : 0 ≤ n) : (ofInt n).length ≤ t.length := by
  unfold toInt? at read
  replace read := (Option.filter_eq_some_iff.mp read).1
  split at read
  · obtain ⟨m, digits, rfl⟩ := Option.map_eq_some_iff.mp read
    exact Nat.le_succ_of_le (ofNat_length digits)
  · obtain ⟨m, digits, rfl⟩ := Option.map_eq_some_iff.mp read
    obtain rfl : m = 0 := by
      rw [Int.ofNat_eq_natCast] at natural
      omega
    exact Nat.le_succ_of_le (ofNat_length digits)
  · obtain ⟨m, digits, rfl⟩ := Option.map_eq_some_iff.mp read
    exact ofNat_length digits

end HackToolchain.Text

import CommonFps.Lib.Bytes
import CommonFps.Lib.Single

/-!
# Numbers in texts

How numbers are written and read by the C and C++ libraries, in the C locale:

* `numeral`, `readNumeral`: the digits of a natural number in a base, and what
  they are worth, inverse to each other (`readNumeral_numeral`);
* `general`: the conversion `%g`, by which a stream writes a number;
* `strtof`: what a whole text reads as, a number rounded to single precision
  (`roundToSingle`), infinite or not a number.

Natural numbers that are small enough are written by their digits
(`general_natCast`) and read back exactly (`strtof_numeral`).
-/

/-! ## Characters -/

/-- White space in the C locale. -/
def isSpace (c : UInt8) : Bool := c = 32 || (9 ≤ c && c ≤ 13)

/-- A decimal digit. -/
def isDigit (c : UInt8) : Bool := 48 ≤ c && c ≤ 57

/-- An upper-case letter as a lower-case one. -/
def toLower (c : UInt8) : UInt8 := if 65 ≤ c && c ≤ 90 then c + 32 else c

/-- The value of a hexadecimal digit. -/
def hexValue (c : UInt8) : Option ℕ :=
  if isDigit c then some (c.toNat - 48)
  else if 97 ≤ toLower c && toLower c ≤ 102 then some ((toLower c).toNat - 87)
  else none

/-- A hexadecimal digit, of either case. -/
def isHexDigit (c : UInt8) : Bool := (hexValue c).isSome

/-- The character of a digit. -/
def digitChar (d : ℕ) : UInt8 := (if d < 10 then 48 + d else 55 + d).toUInt8

theorem hexValue_digitChar {d : ℕ} (h : d < 16) : hexValue (digitChar d) = some d := by
  have : ∀ d < 16, hexValue (digitChar d) = some d := by decide
  exact this d h

theorem isDigit_digitChar {d : ℕ} (h : d < 10) : isDigit (digitChar d) := by
  have : ∀ d < 10, isDigit (digitChar d) := by decide
  exact this d h

theorem isHexDigit_digitChar {d : ℕ} (h : d < 16) : isHexDigit (digitChar d) := by
  rw [isHexDigit, hexValue_digitChar h, Option.isSome_some]

/-! ## Natural numbers -/

/-- The digits of `n` in base `b`. -/
def numeral (b n : ℕ) : Bytes :=
  if n = 0 then [48] else (Nat.digits b n).reverse.map digitChar

/-- What the digits of a numeral are worth. -/
def readNumeral (b : ℕ) (s : Bytes) : ℕ := s.foldl (fun n c => n * b + (hexValue c).getD 0) 0

/-- A numeral with zeros before it, to the width `w`. -/
def setw (w : ℕ) (s : Bytes) : Bytes := List.leftpad w 48 s

theorem hexValue_getD_lt (c : UInt8) : (hexValue c).getD 0 < 16 := by
  revert c
  decide +kernel

theorem readNumeral_lt {b : ℕ} (h : 16 ≤ b) (s : Bytes) : readNumeral b s < b ^ s.length := by
  induction s using List.reverseRecOn with
  | nil => exact Nat.one_pos
  | append_singleton s c ih =>
    rw [readNumeral, List.foldl_append, ← readNumeral, List.length_append, pow_add]
    exact Nat.lt_of_lt_of_le (Nat.add_lt_add_left ((hexValue_getD_lt c).trans_le h) _)
      ((Nat.succ_mul _ b).symm.le.trans (by
        rw [List.length_singleton, pow_one]
        exact Nat.mul_le_mul_right b ih))

section Numeral

variable {b : ℕ} (h₁ : 1 < b) (h₂ : b ≤ 16)
include h₁ h₂

theorem readNumeral_numeral (n : ℕ) : readNumeral b (numeral b n) = n := by
  rw [numeral]
  split_ifs with hn
  · rw [hn, readNumeral, List.foldl_cons, zero_mul]
    rfl
  · have hd : ∀ l : List ℕ, (∀ d ∈ l, d < b) → l.foldr
        (fun d n => n * b + (hexValue (digitChar d)).getD 0) 0 = Nat.ofDigits b l := fun l hl => by
      induction l with
      | nil => rfl
      | cons d l ih =>
        rw [List.foldr_cons, ih fun e he => hl e (List.mem_cons_of_mem _ he),
          hexValue_digitChar ((hl d List.mem_cons_self).trans_le h₂), Nat.ofDigits_cons,
          Option.getD_some, add_comm, mul_comm]
    rw [readNumeral, List.foldl_map, List.foldl_reverse]
    exact (hd _ fun d hd => Nat.digits_lt_base h₁ hd).trans (Nat.ofDigits_digits b n)

theorem readNumeral_setw_numeral (w n : ℕ) : readNumeral b (setw w (numeral b n)) = n := by
  have hz (k : ℕ) : readNumeral b (List.replicate k 48) = 0 := by
    induction k with
    | zero => rfl
    | succ k ih =>
      rw [List.replicate_succ', readNumeral, List.foldl_append, ← readNumeral, ih]
      exact zero_mul b
  rw [setw, List.leftpad, readNumeral, List.foldl_append, ← readNumeral, hz]
  exact readNumeral_numeral h₁ h₂ n

omit h₂ in
theorem length_numeral_le {n w : ℕ} (hn : n < b ^ w) (hw : w ≠ 0) : (numeral b n).length ≤ w := by
  rw [numeral]
  split_ifs
  · exact Nat.one_le_iff_ne_zero.2 hw
  · rw [List.length_map, List.length_reverse]
    exact (Nat.digits_length_le_iff h₁ n).2 hn

omit h₂ in
theorem length_setw_numeral {n w : ℕ} (hn : n < b ^ w) (hw : w ≠ 0) :
    (setw w (numeral b n)).length = w := by
  rw [setw, List.length_leftpad]
  exact max_eq_left (length_numeral_le h₁ hn hw)

theorem isHexDigit_of_mem_numeral {n : ℕ} {c : UInt8} (h : c ∈ numeral b n) : isHexDigit c := by
  rw [numeral] at h
  split_ifs at h
  · rw [List.mem_singleton.1 h]; rfl
  · obtain ⟨d, hd, rfl⟩ := List.mem_map.1 h
    exact isHexDigit_digitChar ((Nat.digits_lt_base h₁ (List.mem_reverse.1 hd)).trans_le h₂)

theorem isHexDigit_of_mem_setw_numeral {n w : ℕ} {c : UInt8} (h : c ∈ setw w (numeral b n)) :
    isHexDigit c := by
  rw [setw, List.leftpad, List.mem_append, List.mem_replicate] at h
  rcases h with ⟨-, rfl⟩ | h
  · rfl
  · exact isHexDigit_of_mem_numeral h₁ h₂ h

end Numeral

theorem numeral_ne_nil (b n : ℕ) : numeral b n ≠ [] := by
  rw [numeral]
  split_ifs with hn
  · exact List.cons_ne_nil _ _
  · rwa [ne_eq, List.map_eq_nil_iff, List.reverse_eq_nil_iff, Nat.digits_eq_nil_iff_eq_zero]

theorem isDigit_of_mem_numeral {n : ℕ} {c : UInt8} (h : c ∈ numeral 10 n) : isDigit c := by
  rw [numeral] at h
  split_ifs at h
  · rw [List.mem_singleton.1 h]; rfl
  · obtain ⟨d, hd, rfl⟩ := List.mem_map.1 h
    exact isDigit_digitChar (Nat.digits_lt_base (by norm_num) (List.mem_reverse.1 hd))

/-! ## Rounding -/

/-- The nearest integer, the even one in the middle. -/
def roundHalfEven (q : ℚ) : ℤ :=
  if q - ⌊q⌋ < 1 / 2 then ⌊q⌋
  else if 1 / 2 < q - ⌊q⌋ then ⌊q⌋ + 1
  else if ⌊q⌋ % 2 = 0 then ⌊q⌋ else ⌊q⌋ + 1

@[simp] theorem roundHalfEven_natCast (n : ℕ) : roundHalfEven n = n := by
  rw [roundHalfEven, Int.floor_natCast, Int.cast_natCast, sub_self, if_pos (by norm_num)]

/-- The nearest single-precision number: of 24 significant bits, down to
    `2 ^ (-149)` and below `2 ^ 128`. -/
def roundToSingle (q : ℚ) : Single :=
  let e := max (Int.log 2 |q| - 23) (-149)
  let v : ℚ := roundHalfEven (q / 2 ^ e) * 2 ^ e
  if v ≤ -2 ^ 128 then .negInf else if 2 ^ 128 ≤ v then .posInf else .finite v

/-- Natural numbers of at most 24 bits are single-precision numbers. -/
theorem roundToSingle_natCast {n : ℕ} (h : n < 2 ^ 24) : roundToSingle n = .finite n := by
  have hlog : Int.log 2 |(n : ℚ)| = Nat.log 2 n := by
    rw [Nat.abs_cast, Int.log_natCast]
  have hl : Nat.log 2 n ≤ 23 := Nat.lt_succ_iff.1 (Nat.log_lt_of_lt_pow' (by norm_num) h)
  obtain ⟨k, hk⟩ := Nat.exists_eq_add_of_le hl
  have he : max (Int.log 2 |(n : ℚ)| - 23) (-149) = -(k : ℤ) := by
    rw [hlog]; omega
  have hdiv : (n : ℚ) / 2 ^ (-(k : ℤ)) = (n * 2 ^ k : ℕ) := by
    rw [zpow_neg, div_inv_eq_mul, zpow_natCast]; push_cast; rfl
  have hv : (roundHalfEven ((n : ℚ) / 2 ^ (-(k : ℤ))) : ℚ) * 2 ^ (-(k : ℤ)) = n := by
    rw [hdiv, roundHalfEven_natCast, zpow_neg, zpow_natCast]
    push_cast
    rw [mul_assoc, mul_inv_cancel₀ (by positivity), mul_one]
  have hn : (n : ℚ) < 2 ^ 24 := by exact_mod_cast h
  have hn₀ : (0 : ℚ) ≤ n := n.cast_nonneg
  rw [roundToSingle]
  simp only [he, hv]
  rw [if_neg (by linarith), if_neg (by linarith)]

/-! ## Writing a number -/

/-- The `p` significant digits of a positive number, as a natural number, and
    the exponent of the first one. -/
def significand (p : ℕ) (q : ℚ) : ℕ × ℤ :=
  let x := Int.log 10 q
  let d := (roundHalfEven (q * 10 ^ (p - 1 - x))).toNat
  if d = 10 ^ p then (10 ^ (p - 1), x + 1) else (d, x)

/-- `k` decimals, without the zeros at their end. -/
def decimals (k d : ℕ) : Bytes :=
  match (setw k (numeral 10 d)).rdropWhile (· = 48) with
  | [] => []
  | s => 46 :: s

/-- The conversion `%g` with precision `p`. -/
def general (p : ℕ) (q : ℚ) : Bytes :=
  let sign : Bytes := if q < 0 then [45] else []
  if q = 0 then [48]
  else
    let (d, x) := significand p |q|
    if -4 ≤ x ∧ x < p then
      let k := (p - 1 - x).toNat
      sign ++ numeral 10 (d / 10 ^ k) ++ decimals k (d % 10 ^ k)
    else
      sign ++ numeral 10 (d / 10 ^ (p - 1)) ++ decimals (p - 1) (d % 10 ^ (p - 1)) ++
        101 :: (if x < 0 then 45 else 43) :: setw 2 (numeral 10 x.natAbs)

theorem decimals_zero (k : ℕ) : decimals k 0 = [] := by
  have : (setw k (numeral 10 0)).rdropWhile (fun c => decide (c = 48)) = [] := by
    rw [List.rdropWhile_eq_nil_iff]
    intro c hc
    rw [setw, List.leftpad, List.mem_append, List.mem_replicate] at hc
    rcases hc with ⟨-, rfl⟩ | hc
    · rfl
    · rw [List.mem_singleton.1 hc]; rfl
  rw [decimals, this]

/-- A natural number of at most `p` digits is written by them. -/
theorem general_natCast {n p : ℕ} (h : n < 10 ^ p) : general p n = numeral 10 n := by
  rcases Nat.eq_zero_or_pos n with rfl | hn
  · simp [general, numeral]
  have hq : ((n : ℕ) : ℚ) ≠ 0 := by exact_mod_cast hn.ne'
  have hl : Nat.log 10 n < p := Nat.log_lt_of_lt_pow hn.ne' h
  obtain ⟨k, hk⟩ : ∃ k, p = Nat.log 10 n + 1 + k := Nat.exists_eq_add_of_le hl
  have hx : ((p : ℤ) - 1 - Nat.log 10 n) = k := by omega
  have hsig : significand p n = (n * 10 ^ k, (Nat.log 10 n : ℤ)) := by
    have hd : (n : ℚ) * 10 ^ ((p : ℤ) - 1 - Nat.log 10 n) = (n * 10 ^ k : ℕ) := by
      rw [hx, zpow_natCast]; push_cast; rfl
    have hlt : n * 10 ^ k < 10 ^ p := by
      rw [hk, pow_add]
      exact Nat.mul_lt_mul_of_pos_right (Nat.lt_pow_succ_log_self (by norm_num) n) (by positivity)
    rw [significand, Int.log_natCast]
    simp only [hd, roundHalfEven_natCast, Int.toNat_natCast]
    rw [if_neg hlt.ne]
  rw [general]
  simp only [Nat.abs_cast, hsig, if_neg hq, hx, Int.toNat_natCast]
  rw [if_pos ⟨by omega, by exact_mod_cast hl⟩, if_neg (not_lt.2 n.cast_nonneg),
    Nat.mul_div_cancel _ (by positivity), Nat.mul_mod_left, decimals_zero]
  rw [List.nil_append, List.append_nil]

/-! ## Reading a number -/

/-- A sign, and what follows it. -/
def readSign : Bytes → Bool × Bytes
  | 45 :: s => (true, s)
  | 43 :: s => (false, s)
  | s => (false, s)

/-- The exponent that a number ends with, after its mark. -/
def readExponent (mark : UInt8) : Bytes → Option ℤ
  | [] => some 0
  | c :: s =>
    let (neg, digits) := readSign s
    if toLower c = mark ∧ digits ≠ [] ∧ digits.all isDigit then
      some (if neg then -readNumeral 10 digits else readNumeral 10 digits)
    else none

/-- A number in base `b`, with a fraction and an exponent of `x`. -/
def readFloating (b : ℕ) (isDigit : UInt8 → Bool) (x : ℚ) (mark : UInt8) (s : Bytes) : Option ℚ :=
  let whole := s.takeWhile isDigit
  let rest := s.dropWhile isDigit
  let point := rest.head? = some 46
  let fraction := if point then rest.tail.takeWhile isDigit else []
  let rest := if point then rest.tail.dropWhile isDigit else rest
  if whole ++ fraction = [] then none
  else (readExponent mark rest).map fun e =>
    readNumeral b (whole ++ fraction) / b ^ fraction.length * x ^ e

/-- Whether a text, in lower case, is a NaN, perhaps with a payload. -/
def isNan (s : Bytes) : Bool :=
  s = ascii "nan" || (ascii "nan(" <+: s && s.getLast? = some 41 &&
    ((s.drop 4).dropLast).all fun c => isDigit c || (97 ≤ c && c ≤ 122) || c = 95)

/-- The number that a whole text reads as. -/
def strtof (text : Bytes) : Option Single :=
  let (neg, s) := readSign (text.dropWhile isSpace)
  let low := s.map toLower
  if low = ascii "inf" ∨ low = ascii "infinity" then some (if neg then .negInf else .posInf)
  else if isNan low then some .nan
  else
    let magnitude := if ascii "0x" <+: low then readFloating 16 isHexDigit 2 112 (s.drop 2)
      else readFloating 10 isDigit 10 101 s
    magnitude.map fun q => roundToSingle (if neg then -q else q)

theorem dropWhile_isSpace_of_digit {c : UInt8} (hc : isDigit c) (s : Bytes) :
    (c :: s).dropWhile isSpace = c :: s := by
  have : ¬isSpace c := by
    simp only [isDigit, isSpace, Bool.and_eq_true, Bool.or_eq_true, decide_eq_true_eq,
      UInt8.le_iff_toNat_le, ← UInt8.toNat_inj] at hc ⊢
    rintro (h | ⟨-, h⟩)
    · exact absurd (h ▸ hc.1) (by decide)
    · exact absurd (hc.1.trans h) (by decide)
  exact List.dropWhile_cons_of_neg this

theorem readSign_of_digit {c : UInt8} (hc : isDigit c) (s : Bytes) :
    readSign (c :: s) = (false, c :: s) := by
  unfold readSign
  split
  · next h => exact absurd ((List.cons.inj h).1 ▸ hc) (by decide)
  · next h => exact absurd ((List.cons.inj h).1 ▸ hc) (by decide)
  · rfl

section Digits

variable {s : Bytes} (hs : ∀ c ∈ s, isDigit c)
include hs

theorem map_toLower_of_digits : s.map toLower = s := by
  have h (c : UInt8) (hc : isDigit c) : toLower c = c := by
    simp only [isDigit, Bool.and_eq_true, decide_eq_true_eq, UInt8.le_iff_toNat_le] at hc
    rw [toLower, if_neg]
    simp only [Bool.and_eq_true, decide_eq_true_eq, UInt8.le_iff_toNat_le]
    rintro ⟨h₁, -⟩
    exact absurd (h₁.trans hc.2) (by decide)
  exact (List.map_congr_left fun c hc => h c (hs c hc)).trans s.map_id

theorem takeWhile_of_digits {rest : Bytes} (hrest : ∀ c, rest.head? = some c → ¬isDigit c) :
    (s ++ rest).takeWhile isDigit = s := by
  rw [List.takeWhile_append_of_pos hs]
  cases rest with
  | nil => rw [List.takeWhile_nil, List.append_nil]
  | cons c rest => rw [List.takeWhile_cons_of_neg (hrest c rfl), List.append_nil]

theorem readFloating_of_digits (hne : s ≠ []) :
    readFloating 10 isDigit 10 101 s = some (readNumeral 10 s : ℚ) := by
  have ht : s.takeWhile isDigit = s := List.takeWhile_eq_self_iff.2 hs
  have hd : s.dropWhile isDigit = [] := List.dropWhile_eq_nil_iff.2 hs
  rw [readFloating]
  simp [ht, hd, hne, readExponent]

/-- Digits read as the number they are worth. -/
theorem strtof_of_digits (hne : s ≠ []) : strtof s = some (roundToSingle (readNumeral 10 s)) := by
  have hno {c : UInt8} (hc : ¬isDigit c) : c ∉ s := fun h => hc (hs c h)
  have hinf : ¬(s = ascii "inf" ∨ s = ascii "infinity") := by
    rintro (h | h) <;> exact hno (c := 105) (by decide) (h ▸ by decide)
  have hnan : ¬isNan s := by
    rw [isNan, Bool.or_eq_true, decide_eq_true_iff, Bool.and_eq_true, Bool.and_eq_true]
    rintro (h | ⟨⟨h, -⟩, -⟩)
    · exact hno (c := 110) (by decide) (h ▸ by decide)
    · exact hno (c := 110) (by decide) ((of_decide_eq_true h).subset (by decide))
  have hhex : ¬ascii "0x" <+: s := fun h => hno (c := 120) (by decide) (h.subset (by decide))
  obtain ⟨c, t, rfl⟩ := List.exists_cons_of_ne_nil hne
  have hc := hs c List.mem_cons_self
  rw [strtof, dropWhile_isSpace_of_digit hc, readSign_of_digit hc]
  simp only [map_toLower_of_digits hs]
  rw [if_neg hinf, if_neg hnan, if_neg hhex, readFloating_of_digits hs hne]
  rfl

end Digits

/-- A small natural number is read back from its digits. -/
theorem strtof_numeral {n : ℕ} (h : n < 2 ^ 24) : strtof (numeral 10 n) = some (.finite n) := by
  rw [strtof_of_digits (fun _ => isDigit_of_mem_numeral) (numeral_ne_nil 10 n),
    readNumeral_numeral (by norm_num) (by norm_num), roundToSingle_natCast h]

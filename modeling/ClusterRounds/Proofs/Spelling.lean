/-
  ClusterRounds.Proofs.Spelling

  Doubles that are written and read. A `Spelling` is what a decimal numeral is made of: digits in
  front of the point and behind it, and an exponent. Both texts of a finite double are such, with
  a value that is rounded to the double (`exists_spelling_scientific`, `exists_spelling_shortest`),
  and what is read from a spelling is its value, rounded (`Spelling.toFloat_numeral`). So the
  double that is read from a table is the one that was written (`Table.reread_eq`).
-/

import ClusterRounds.Proofs.Decimals
import ClusterRounds.Proofs.Rereading

namespace ClusterRounds

namespace Number

/-! ## Values of digits -/

theorem digitsValue_toDigits (n : ℕ) : digitsValue (Nat.toDigits 10 n) = n :=
  Nat.ofDigitChars_ten_toDigits

theorem digitsValue_zeros (k : ℕ) (cs : List Char) :
    digitsValue (List.replicate k '0' ++ cs) = digitsValue cs := by
  have happend := Nat.ofDigitChars_append (b := 10) (l := List.replicate k '0') (m := cs) 0
  rwa [Nat.ofDigitChars_replicate_zero, Nat.mul_zero] at happend

theorem digitsValue_append_zeros (k : ℕ) (cs : List Char) :
    digitsValue (cs ++ List.replicate k '0') = 10 ^ k * digitsValue cs := by
  have happend := Nat.ofDigitChars_append (b := 10) (l := cs) (m := List.replicate k '0') 0
  rwa [Nat.ofDigitChars_replicate_zero] at happend

theorem digitsValue_paddedDigits (width n : ℕ) : digitsValue (paddedDigits width n).toList = n := by
  rw [paddedDigits, String.toList_ofList, digitsValue_zeros, digitsValue_toDigits]

theorem length_paddedDigits_of_lt {width n : ℕ} (hwidth : 0 < width) (hn : n < 10 ^ width) :
    (paddedDigits width n).toList.length = width := by
  have hle := (Nat.length_toDigits_le_iff (by decide) hwidth).2 hn
  rw [paddedDigits, String.toList_ofList, List.length_append, List.length_replicate]
  omega

/-- The digits of a positive natural do not start with a zero. -/
theorem head?_toDigits {n : ℕ} (hn : 0 < n) : (Nat.toDigits 10 n).head? ≠ some '0' := by
  induction n using Nat.strongRecOn with
  | ind n ih =>
    rw [Nat.toDigits_eq_if (by decide)]
    split
    · rename_i hlt
      have hdigit : ∀ m < 10, 0 < m → Nat.digitChar m ≠ '0' := by decide
      simpa using hdigit n hlt hn
    · rename_i hge
      rw [List.head?_append_of_ne_nil _ Nat.toDigits_ne_nil]
      exact ih (n / 10) (by omega) (by omega)

/-- The text of an integer: its digits, behind a minus if there is one. -/
theorem toList_int (i : ℤ) :
    (toString i).toList = signed (decide (i < 0)) (Nat.toDigits 10 i.natAbs) := by
  cases i with
  | ofNat n =>
    have hsign : decide (Int.ofNat n < 0) = false := decide_eq_false (by simp)
    show (Nat.repr n).toList = _
    rw [hsign, Nat.repr_eq_ofList_toDigits, String.toList_ofList]
    rfl
  | negSucc n =>
    have hsign : decide (Int.negSucc n < 0) = true := decide_eq_true (Int.negSucc_lt_zero n)
    show ("-" ++ Nat.repr (n + 1)).toList = _
    rw [hsign]
    simp [Nat.repr_eq_ofList_toDigits, signed]

/-! ## Numerals -/

/-- A fraction and its digits: a point in front of them, or nothing at all. -/
inductive Fraction : List Char → List Char → Prop
  | absent : Fraction [] []
  | present {ds : List Char} (digits : AllDigits ds) (ne : ds ≠ []) : Fraction ('.' :: ds) ds

/-- An exponent and what it says: a letter, a sign or none, and digits, or nothing at all. -/
inductive Exponent : List Char → ℤ → Prop
  | absent : Exponent [] 0
  | present {letter : Char} {sign ds : List Char} (letter_eq : letter = 'e' ∨ letter = 'E')
      (sign_eq : sign = [] ∨ sign = ['+'] ∨ sign = ['-']) (digits : AllDigits ds) (ne : ds ≠ []) :
      Exponent (letter :: (sign ++ ds))
        (if sign = ['-'] then -(digitsValue ds : ℤ) else digitsValue ds)

variable {whole fraction ds exponent : List Char} {e : ℤ}

theorem Exponent.head? (h : Exponent exponent e) :
    ∀ c ∈ exponent.head?, c.isDigit = false ∧ c ≠ '.' := by
  cases h with
  | absent => exact nofun
  | present hletter =>
    intro c hc
    obtain rfl := Option.some.inj hc
    rcases hletter with rfl | rfl <;> decide

theorem Fraction.head?_append (h : Fraction fraction ds) {rest : List Char}
    (hrest : ∀ c ∈ rest.head?, c.isDigit = false) :
    ∀ c ∈ (fraction ++ rest).head?, c.isDigit = false := by
  cases h with
  | absent => exact hrest
  | present =>
    intro c hc
    obtain rfl := Option.some.inj hc
    decide

theorem takeSign_sign {sign : List Char} (hsign : sign = [] ∨ sign = ['+'] ∨ sign = ['-'])
    (hdigits : AllDigits ds) (hne : ds ≠ []) :
    takeSign (sign ++ ds) = (decide (sign = ['-']), ds) := by
  obtain ⟨d, rest, rfl⟩ := List.exists_cons_of_ne_nil hne
  rcases hsign with rfl | rfl | rfl
  · exact takeSign_signed false (hdigits d List.mem_cons_self) rest
  · rfl
  · rfl

theorem exponentPart?_eq (h : Exponent exponent e) : exponentPart? exponent = some e := by
  cases h with
  | absent => rfl
  | @present letter sign ds hletter hsign hdigits hne =>
    have hall : ds.all Char.isDigit = true := List.all_eq_true.2 hdigits
    rw [exponentPart?, takeSign_sign hsign hdigits hne]
    simp [hletter, hall, hne]

/-- What is read from digits, a fraction and an exponent. -/
theorem numeral?_append (negative : Bool) (hdigits : AllDigits whole) (hne : whole ≠ [])
    (hfraction : Fraction fraction ds) (hexponent : Exponent exponent e) :
    numeral? negative (whole ++ (fraction ++ exponent))
      = some ⟨negative, digitsValue (whole ++ ds), e - ds.length⟩ := by
  have hbehind : ∀ c ∈ exponent.head?, c.isDigit = false := fun c hc => (hexponent.head? c hc).1
  obtain ⟨htake, hdrop⟩ := hdigits.takeWhile_append _ (hfraction.head?_append hbehind)
  have hpart := exponentPart?_eq hexponent
  unfold numeral?
  dsimp only
  rw [htake, hdrop]
  cases hfraction with
  | absent =>
    -- an exponent does not begin with a point
    have hpoint : ∀ rest, exponent ≠ '.' :: rest := by
      rintro rest rfl
      exact (hexponent.head? '.' rfl).2 rfl
    rw [List.nil_append]
    split
    · exact absurd rfl (hpoint _)
    · simp [hne, hpart]
  | present hds =>
    obtain ⟨htake', hdrop'⟩ := hds.takeWhile_append exponent hbehind
    simp [htake', hdrop', hne, hpart]

/-! ## Spellings -/

/-- What a decimal numeral is made of. -/
structure Spelling where
  whole : List Char
  fraction : List Char
  exponent : Option ℤ

namespace Spelling

/-- A point stands only in front of a fraction. -/
def fractionChars (fraction : List Char) : List Char :=
  if fraction = [] then [] else '.' :: fraction

/-- So does the letter in front of an exponent, and a sign stands in any case. -/
def exponentChars (e : Option ℤ) : List Char := e.elim [] fun e => 'e' :: (exponentText e).toList

def text (s : Spelling) : List Char :=
  s.whole ++ (fractionChars s.fraction ++ exponentChars s.exponent)

def numeral (negative : Bool) (s : Spelling) : Numeral :=
  ⟨negative, digitsValue (s.whole ++ s.fraction), s.exponent.getD 0 - s.fraction.length⟩

def value (s : Spelling) : ℚ :=
  digitsValue (s.whole ++ s.fraction) * 10 ^ (s.exponent.getD 0 - s.fraction.length)

/-- There are digits in front, without a zero that could be left out, and more than these. -/
structure Standard (s : Spelling) : Prop where
  whole_digits : AllDigits s.whole
  whole_ne : s.whole ≠ []
  leading : s.whole = ['0'] ∨ s.whole.head? ≠ some '0'
  fraction_digits : AllDigits s.fraction
  inexact : s.fraction ≠ [] ∨ s.exponent ≠ none

variable {s : Spelling}

theorem exists_exponentText (e : ℤ) : ∃ sign digits, (exponentText e).toList = sign ++ digits ∧
    (sign = ['+'] ∨ sign = ['-']) ∧ AllDigits digits ∧ digits ≠ [] ∧
    (if sign = ['-'] then -(digitsValue digits : ℤ) else digitsValue digits) = e := by
  have hlength := length_paddedDigits 2 e.natAbs
  have hne : (paddedDigits 2 e.natAbs).toList ≠ [] := by
    intro hnil
    rw [hnil] at hlength
    exact absurd hlength (by decide)
  unfold exponentText
  split
  · refine ⟨['-'], (paddedDigits 2 e.natAbs).toList, by simp, .inr rfl, allDigits_paddedDigits _ _,
      hne, ?_⟩
    rw [digitsValue_paddedDigits, if_pos rfl]
    omega
  · refine ⟨['+'], (paddedDigits 2 e.natAbs).toList, by simp, .inl rfl, allDigits_paddedDigits _ _,
      hne, ?_⟩
    rw [digitsValue_paddedDigits, if_neg (by decide)]
    omega

theorem exponent_exponentChars (e : Option ℤ) : Exponent (exponentChars e) (e.getD 0) := by
  cases e with
  | none => exact .absent
  | some e =>
    obtain ⟨sign, digits, htext, hsign, hdigits, hne, hvalue⟩ := exists_exponentText e
    have hexponent := Exponent.present (.inl rfl) (.inr hsign) hdigits hne
    rw [hvalue, ← htext] at hexponent
    exact hexponent

theorem fraction_fractionChars {fraction : List Char} (h : AllDigits fraction) :
    Fraction (fractionChars fraction) fraction := by
  unfold fractionChars
  split
  · rename_i hnil
    rw [hnil]
    exact .absent
  · rename_i hne
    exact .present h hne

/-- A spelling is read as the numeral that it spells. -/
theorem numeral?_text (h : s.Standard) (negative : Bool) :
    numeral? negative s.text = some (s.numeral negative) :=
  numeral?_append negative h.whole_digits h.whole_ne (fraction_fractionChars h.fraction_digits)
    (exponent_exponentChars s.exponent)

/-- A double is read from a spelling with a sign. -/
theorem plainFloat?_text (h : s.Standard) (negative : Bool) :
    plainFloat? (signed negative s.text) = some (s.numeral negative).toFloat := by
  obtain ⟨d, rest, hwhole⟩ := List.exists_cons_of_ne_nil h.whole_ne
  have hd : d.isDigit = true := h.whole_digits d (hwhole ▸ List.mem_cons_self)
  obtain ⟨behind, htext⟩ : ∃ behind, s.text = d :: behind := by
    rw [text, hwhole]
    exact ⟨_, rfl⟩
  rw [htext, plainFloat?_signed negative hd, ← htext, numeral?_text h]
  rfl

/-- A numeral within the range of a double is below the powers of ten that are not formed. -/
theorem toFloat_numeral {x : Float} {negative : Bool} {m : ℕ} {e : ℤ}
    (hx : Parts.ofFloat x = .finite negative m e) (hs : RoundsTo m e s.value) :
    (s.numeral negative).toFloat = x := by
  have hrange := inRange_of_ofFloat hx
  have hunit : (0 : ℚ) < 2 ^ e := zpow_pos two_pos e
  unfold value at hs
  unfold numeral Numeral.toFloat
  dsimp only
  generalize digitsValue (s.whole ++ s.fraction) = digits at hs ⊢
  generalize s.exponent.getD 0 - s.fraction.length = exponent at hs ⊢
  have hzero : RoundsTo m e 0 → floatOfRatio negative 0 1 = x := by
    intro hzero
    apply floatOfRatio_eq hx Nat.one_pos
    rwa [Nat.cast_zero, zero_div]
  by_cases hdigits : digits = 0
  · rw [if_pos hdigits]
    rw [hdigits, Nat.cast_zero, zero_mul] at hs
    exact hzero hs
  · rw [if_neg hdigits]
    obtain ⟨k, hk, hlow, hhigh⟩ := exists_length_toDigits (Nat.pos_of_ne_zero hdigits)
    have hpower : (0 : ℚ) < 10 ^ exponent := zpow_pos (by norm_num) exponent
    have hlow : (10 : ℚ) ^ ((k : ℤ) + exponent) ≤ digits * 10 ^ exponent := by
      rw [ten_zpow_add, zpow_natCast]
      gcongr
      exact_mod_cast hlow
    have hhigh : (digits * 10 ^ exponent : ℚ) < 10 ^ (((k + 1 : ℕ) : ℤ) + exponent) := by
      rw [ten_zpow_add, zpow_natCast]
      gcongr
      exact_mod_cast hhigh
    rw [hk]
    split
    · -- there is no double as large as that
      have hlarge : (10 : ℚ) ^ (400 : ℤ) ≤ 10 ^ ((k : ℤ) + exponent) :=
        zpow_le_zpow_right₀ (by norm_num) (by omega)
      exact absurd (hs.lt_ten_zpow hrange) (not_lt.2 (hlarge.trans hlow))
    · split
      · -- and what is as small as that is rounded to zero
        have hsmall : (10 : ℚ) ^ (((k + 1 : ℕ) : ℤ) + exponent) ≤ 10 ^ (-400 : ℤ) :=
          zpow_le_zpow_right₀ (by norm_num) (by omega)
        exact hzero (hs.zero_of_small hrange (hhigh.trans_le hsmall))
      · have hpos := powerOf_pos (b := 10) (by decide) exponent
        apply floatOfRatio_eq hx hpos.2
        rwa [Nat.cast_mul, mul_div_assoc, show powerOfTen exponent = powerOf 10 exponent from rfl,
          cast_powerOf]

/-! ## The spellings of doubles -/

/-- Digits with a point behind the first one, and an exponent. -/
theorem toList_pointed {digits : String} {d : Char} {rest : List Char}
    (h : digits.toList = d :: rest) (e : ℤ) :
    (pointAfterFirst digits ++ ("e" ++ exponentText e)).toList = text ⟨[d], rest, some e⟩ := by
  have hpoint : (pointAfterFirst digits).toList = d :: fractionChars rest := by
    unfold pointAfterFirst
    rw [h]
    cases rest with
    | nil => simp [fractionChars]
    | cons c rest => simp [fractionChars]
  rw [String.toList_append, hpoint]
  simp [text, exponentChars]

theorem standard_pointed {d : Char} {rest : List Char} (h : AllDigits (d :: rest)) (e : ℤ) :
    Standard ⟨[d], rest, some e⟩ where
  whole_digits := fun c hc => h c (by rw [List.mem_singleton.1 hc]; exact List.mem_cons_self)
  whole_ne := List.cons_ne_nil _ _
  leading := by
    by_cases hd : d = '0'
    · exact .inl (by rw [hd])
    · exact .inr (by simpa using hd)
  fraction_digits := fun c hc => h c (List.mem_cons_of_mem _ hc)
  inexact := .inr nofun

/-- The text of a double with enough places is a spelling that is rounded to the double. -/
theorem exists_spelling_scientific {x : Float} {negative : Bool} {m : ℕ} {e : ℤ}
    (hx : Parts.ofFloat x = .finite negative m e) {places : ℕ} (hplaces : 16 ≤ places) :
    ∃ s : Spelling, s.Standard ∧ (scientificText places x).toList = signed negative s.text ∧
      RoundsTo m e s.value := by
  obtain ⟨d, hd, hlt, hrounds⟩ : ∃ d, decimalOf places (ratioOf m e).1 (ratioOf m e).2 = d ∧
      d.digits < 10 ^ (places + 1) ∧ RoundsTo m e (d.digits * 10 ^ (d.exponent - places)) := by
    refine ⟨_, rfl, ?_⟩
    by_cases hm : m = 0
    · have hzero : decimalOf places (ratioOf m e).1 (ratioOf m e).2 = ⟨0, 0⟩ := by
        rw [decimalOf, if_pos]
        rw [hm]
        exact Nat.zero_mul _
      rw [hzero, hm, Nat.cast_zero, zero_mul]
      exact ⟨Nat.pow_pos (by decide), .zero e⟩
    · have hnum : 0 < (ratioOf m e).1 :=
        Nat.mul_pos (Nat.pos_of_ne_zero hm) (powerOf_pos (b := 2) (by decide) e).1
      obtain ⟨hlow, hhigh, -⟩ := decimalOf_spec hnum (ratioOf_pos m e) places
      have hrounds := roundsTo_decimalOf hnum (ratioOf_pos m e) (inRange_of_ofFloat hx)
        (cast_ratioOf m e) hplaces
      rw [Decimal.value_eq ⟨hlow, hhigh⟩] at hrounds
      exact ⟨hhigh, hrounds⟩
  -- all places are written, so the point stands behind the first digit
  have hlength : (paddedDigits (places + 1) d.digits).toList.length = places + 1 :=
    length_paddedDigits_of_lt (Nat.succ_pos places) hlt
  obtain ⟨c, rest, hdigits⟩ := List.exists_cons_of_length_pos (by omega :
    0 < (paddedDigits (places + 1) d.digits).toList.length)
  have hvalue := digitsValue_paddedDigits (places + 1) d.digits
  have hall := allDigits_paddedDigits (places + 1) d.digits
  rw [hdigits] at hlength hvalue hall
  refine ⟨⟨[c], rest, some d.exponent⟩, standard_pointed hall _, ?_, ?_⟩
  · rw [scientificText, hx, Parts.scientific]
    dsimp only
    rw [hd, toList_specialText, String.append_assoc, toList_pointed hdigits]
  · have hplaces : rest.length = places := by simpa using hlength
    rw [value, List.singleton_append, hvalue, hplaces]
    exact hrounds

theorem exists_spelling_positional {d : Decimal} (hd : 0 < d.digits) : ∃ s : Spelling, s.Standard ∧
    (d.positional ".0").toList = s.text ∧ s.value = d.value := by
  have hall := allDigits_toDigits d.digits
  have hhead := head?_toDigits hd
  have hvalue := digitsValue_toDigits d.digits
  have hpos := Nat.length_toDigits_pos (b := 10) (n := d.digits)
  have hzeros (k : ℕ) : AllDigits (List.replicate k '0') := fun c hc => by
    rw [List.eq_of_mem_replicate hc]
    rfl
  unfold Decimal.positional Decimal.value
  dsimp only
  generalize Nat.toDigits 10 d.digits = cs at hall hhead hvalue hpos ⊢
  have hne : cs ≠ [] := List.length_pos_iff.1 hpos
  by_cases hsmall : d.exponent < 0
  · -- a zero, and zeros up to the first digit
    rw [if_pos hsmall]
    generalize hk : (-d.exponent).toNat - 1 = k
    have hfraction : List.replicate k '0' ++ cs ≠ [] := List.append_ne_nil_of_right_ne_nil _ hne
    refine ⟨⟨['0'], List.replicate k '0' ++ cs, none⟩, ⟨by simp [AllDigits], List.cons_ne_nil _ _,
      .inl rfl, List.forall_mem_append.2 ⟨hzeros k, hall⟩, .inl hfraction⟩, ?_, ?_⟩
    · simp [text, fractionChars, exponentChars, hne]
    · rw [value]
      dsimp only
      rw [← List.append_assoc,
        show ['0'] ++ List.replicate k '0' = List.replicate (k + 1) '0' from rfl,
        digitsValue_zeros, hvalue, List.length_append, List.length_replicate]
      congr 2
      rw [Option.getD_none]
      omega
  · rw [if_neg hsmall]
    generalize hwhole : d.exponent.toNat + 1 = whole
    by_cases hintegral : cs.length ≤ whole
    · -- zeros up to the point, and one behind it
      rw [if_pos hintegral]
      refine ⟨⟨cs ++ List.replicate (whole - cs.length) '0', ['0'], none⟩,
        ⟨List.forall_mem_append.2 ⟨hall, hzeros _⟩, List.append_ne_nil_of_left_ne_nil hne _, ?_,
        by simp [AllDigits], .inl (List.cons_ne_nil _ _)⟩, ?_, ?_⟩
      · rw [List.head?_append_of_ne_nil _ hne]
        exact .inr hhead
      · simp [text, fractionChars, exponentChars]
      · rw [value]
        dsimp only
        rw [List.append_assoc, show List.replicate (whole - cs.length) '0' ++ ['0']
          = List.replicate (whole - cs.length + 1) '0' from List.replicate_succ'.symm,
          digitsValue_append_zeros, hvalue, Nat.cast_mul, Nat.cast_pow, mul_comm (_ ^ _ : ℚ),
          mul_assoc, ← zpow_natCast, Nat.cast_ofNat, ← ten_zpow_add]
        congr 2
        simp only [Option.getD_none, List.length_singleton]
        omega
    · -- the point is among the digits
      rw [if_neg hintegral]
      have hsplit : cs.take whole ++ cs.drop whole = cs := List.take_append_drop whole cs
      have htake : cs.take whole ≠ [] := by
        rw [ne_eq, List.take_eq_nil_iff, or_iff_left hne]
        omega
      have hdrop : cs.drop whole ≠ [] := by
        rw [ne_eq, List.drop_eq_nil_iff]
        exact hintegral
      refine ⟨⟨cs.take whole, cs.drop whole, none⟩,
        ⟨fun c hc => hall c (List.mem_of_mem_take hc), htake, ?_,
        fun c hc => hall c (List.mem_of_mem_drop hc), .inl hdrop⟩, ?_, ?_⟩
      · right
        rwa [← List.head?_append_of_ne_nil _ htake, hsplit]
      · simp [text, fractionChars, exponentChars, hintegral]
      · rw [value]
        dsimp only
        rw [hsplit, hvalue, List.length_drop]
        congr 2
        rw [Option.getD_none]
        omega

theorem exists_spelling_pointed (n : ℕ) (e : ℤ) : ∃ s : Spelling, s.Standard ∧
    (pointAfterFirst (paddedDigits 1 n) ++ ("e" ++ exponentText e)).toList = s.text ∧
    s.value = Decimal.value ⟨n, e⟩ := by
  have hpos := Nat.length_toDigits_pos (b := 10) (n := n)
  have hdigits : (paddedDigits 1 n).toList = Nat.toDigits 10 n := by
    rw [paddedDigits, String.toList_ofList, Nat.sub_eq_zero_of_le hpos]
    rfl
  have hall := allDigits_toDigits n
  have hvalue := digitsValue_toDigits n
  obtain ⟨d, rest, hcs⟩ := List.exists_cons_of_length_pos hpos
  rw [hcs] at hdigits hall hvalue
  refine ⟨⟨[d], rest, some e⟩, standard_pointed hall e, toList_pointed hdigits e, ?_⟩
  rw [value, List.singleton_append, hvalue, Decimal.value, hcs, List.length_cons]
  congr 2
  push_cast
  rw [Option.getD_some]
  omega

/-- The shortest text of a finite double is a spelling that is rounded to the double, in each style
    that ends the text of an integral one with a zero. -/
theorem exists_spelling_shortest {x : Float} {negative : Bool} {m : ℕ} {e : ℤ}
    (hx : Parts.ofFloat x = .finite negative m e) {style : FloatStyle}
    (hstyle : style.integralEnd = ".0") :
    ∃ s : Spelling, s.Standard ∧ (shortestText style x).toList = signed negative s.text ∧
      RoundsTo m e s.value := by
  rw [shortestText, hx, Parts.shortest, hstyle]
  by_cases hm : m = 0
  · rw [if_pos hm, toList_specialText, hm]
    have hvalue : value ⟨['0'], ['0'], none⟩ = 0 := by
      rw [value, show digitsValue _ = 0 from rfl, Nat.cast_zero, zero_mul]
    refine ⟨⟨['0'], ['0'], none⟩, ⟨by simp [AllDigits], List.cons_ne_nil _ _, .inl rfl,
      by simp [AllDigits], .inl (List.cons_ne_nil _ _)⟩, rfl, ?_⟩
    rw [hvalue]
    exact .zero e
  · obtain ⟨hpos, hrounds⟩ :=
      roundsTo_shortestDecimal (inRange_of_ofFloat hx) (Nat.pos_of_ne_zero hm)
    generalize shortestDecimal m e = d at hpos hrounds ⊢
    obtain ⟨s, hs, htext, hvalue⟩ : ∃ s : Spelling, s.Standard ∧
        (if style.leastPositional ≤ d.exponent && d.exponent < style.firstScientific then
          d.positional ".0"
        else pointAfterFirst (paddedDigits 1 d.digits) ++ "e" ++ exponentText d.exponent).toList
          = s.text ∧ s.value = d.value := by
      split
      · exact exists_spelling_positional hpos
      · rw [String.append_assoc]
        exact exists_spelling_pointed _ _
    rw [if_neg hm]
    refine ⟨s, hs, ?_, hvalue ▸ hrounds⟩
    dsimp only
    rw [toList_specialText, htext]

/-- A spelling has digits, a point, a letter and signs. -/
theorem mem_text {s : Spelling} (h : s.Standard) {c : Char} (hc : c ∈ s.text) :
    c.isDigit = true ∨ c ∈ ['.', 'e', '-', '+'] := by
  obtain ⟨whole, fraction, exponent⟩ := s
  simp only [text, List.mem_append] at hc
  rcases hc with hc | hc | hc
  · exact .inl (h.whole_digits c hc)
  · unfold fractionChars at hc
    split at hc
    · cases hc
    · rcases List.mem_cons.1 hc with rfl | hc
      · exact .inr (by decide)
      · exact .inl (h.fraction_digits c hc)
  · cases exponent with
    | none => cases hc
    | some e =>
      obtain ⟨sign, digits, htext, hsign, hdigits, -⟩ := exists_exponentText e
      simp only [exponentChars, Option.elim_some, htext, List.mem_cons, List.mem_append] at hc
      rcases hc with rfl | hc | hc
      · exact .inr (by decide)
      · rcases hsign with rfl | rfl <;> rw [List.mem_singleton.1 hc] <;> exact .inr (by decide)
      · exact .inl (hdigits c hc)

end Spelling

/-! ## Doubles that are read back -/

/-- The double that is read from its text with enough places is the one that was written. -/
theorem plainFloat?_scientificText (x : Float) {places : ℕ} (hplaces : 16 ≤ places) :
    plainFloat? (scientificText places x).toList = some x := by
  cases hx : Parts.ofFloat x with
  | undefined =>
    have hread : plainFloat? ['n', 'a', 'n'] = some Parts.undefined.toFloat := rfl
    rw [scientificText, hx, ← Parts.toFloat_ofFloat x, hx, ← hread]
    simp [Parts.scientific]
  | infinite negative =>
    have hread : plainFloat? (signed negative ['i', 'n', 'f'])
        = some (Parts.infinite negative).toFloat := by cases negative <;> rfl
    rw [scientificText, hx, ← Parts.toFloat_ofFloat x, hx, ← hread, Parts.scientific,
      toList_specialText]
    simp
  | finite negative m e =>
    obtain ⟨s, hs, htext, hrounds⟩ := Spelling.exists_spelling_scientific hx hplaces
    rw [htext, Spelling.plainFloat?_text hs, Spelling.toFloat_numeral hx hrounds]

end Number

open Number

/-- So it is with a number of a table. -/
theorem Table.reread_eq (x : Float) : reread x = x := by
  rw [reread, numberText, plainFloat?_scientificText x (by decide), Option.getD_some]

end ClusterRounds

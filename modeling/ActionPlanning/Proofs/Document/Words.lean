import ActionPlanning.Document.Toml.Scalar
import ActionPlanning.Proofs.Amount.Shortest

/-!
# Numbers as words

The digits of a natural number and the pointed text of an amount are words that stand for that
number and that amount. Digits and points make up no flag, no moment and no special amount, so such
a word is an integer or else a decimal, by whether it has a point. Pointed text has three layouts,
and in each of them the digits before and behind the point spell the numeral of the amount, perhaps
with zeros at one of its ends.

## Main definitions

* `Toml.IsFigures`: consisting of digits and points.
* `Toml.Pointed`: being digits, a point and digits.
* `Toml.Names`: being a pointed numeral that names an amount.

## Main results

* `Toml.single?_toDigits`: the digits of a number stand for it.
* `Toml.names_positional`: a numeral without an exponent names the same amount.
* `Toml.Names.single?_eq_some`: a pointed numeral stands for the amount it names.
* `Toml.word?_append`: a word ends where other characters follow.
-/

namespace ActionPlanning.Document

open Amount

variable {cs ds whole fraction word rest : List Char} {c : Char} {n m k : Nat} {x : Amount}

/-! ## Digits -/

theorem digit?_of_isDigit (digit : c.isDigit) : digit? 10 c = some (c.toNat - '0'.toNat) := by
  have bounds : '0' ≤ c ∧ c ≤ '9' := by
    simpa only [Char.isDigit, Bool.and_eq_true, decide_eq_true_eq, ge_iff_le, Char.le_def]
      using digit
  have small : c.toNat - '0'.toNat < 10 := by
    have high : c.toNat ≤ 57 := UInt32.le_iff_toNat_le.mp bounds.2
    have zero : '0'.toNat = 48 := rfl
    omega
  rw [digit?, if_pos bounds, if_pos small]

/-- Digits stand for the number they spell. -/
theorem number?_eq_some (digits : ∀ c ∈ ds, c.isDigit) :
    number? 10 ds = some (Nat.ofDigitChars 10 ds 0) := by
  unfold number?
  generalize 0 = n
  induction ds generalizing n with
  | nil => rfl
  | cons c ds ih =>
    obtain ⟨digit, digits⟩ := List.forall_mem_cons.mp digits
    rw [List.foldl_cons, digit?_of_isDigit digit, Nat.ofDigitChars_cons, Nat.mul_comm 10 n]
    exact ih digits _

theorem isDigit_of_mem_toDigits (n : Nat) : ∀ c ∈ Nat.toDigits 10 n, c.isDigit :=
  fun _ => Nat.isDigit_of_mem_toDigits (by decide) (by decide)

theorem isDigit_of_mem_zeros (k : Nat) : ∀ c ∈ List.replicate k '0', c.isDigit := fun c mem => by
  rw [List.eq_of_mem_replicate mem]
  rfl

/-- Only zero is written with a zero in front. -/
theorem head?_toDigits_ne (positive : n ≠ 0) : (Nat.toDigits 10 n).head? ≠ some '0' := by
  induction n using Nat.strongRecOn with
  | ind n ih =>
    rcases Nat.lt_or_ge n 10 with single | more
    · rw [Nat.toDigits_of_lt_base single, List.head?_singleton]
      exact fun zero => positive (Nat.digitChar_eq_zero.mp (Option.some.inj zero))
    · -- All digits but the last are those of a tenth, which is not zero either.
      rw [Nat.toDigits_of_base_le (by decide) more,
        List.head?_append_of_ne_nil _ Nat.toDigits_ne_nil]
      exact ih _ (by omega) (by omega)

/-- Zeros in front count for nothing. -/
theorem ofDigitChars_zeros_append (k : Nat) :
    Nat.ofDigitChars 10 (List.replicate k '0' ++ ds) 0 = Nat.ofDigitChars 10 ds 0 := by
  rw [Nat.ofDigitChars_append, Nat.ofDigitChars_replicate_zero, Nat.mul_zero]

namespace Toml

theorem more_eq_some (digits : ∀ c ∈ ds, c.isDigit) : plainDigits?.more 10 ds = some ds := by
  induction ds with
  | nil => rfl
  | cons c ds ih =>
    obtain ⟨digit, digits⟩ := List.forall_mem_cons.mp digits
    have plain : c ≠ '_' := by rintro rfl; exact absurd digit (by decide)
    rw [plainDigits?.more.eq_3 _ _ _ (fun _ _ blank _ => plain blank), digit?_of_isDigit digit,
      ih digits]
    rfl

theorem plainDigits?_eq_some (digits : ∀ c ∈ ds, c.isDigit) (nonempty : ds ≠ []) :
    plainDigits? 10 ds = some ds := by
  cases ds with
  | nil => exact absurd rfl nonempty
  | cons c ds =>
    obtain ⟨digit, digits⟩ := List.forall_mem_cons.mp digits
    rw [plainDigits?.eq_def]
    dsimp only
    rw [digit?_of_isDigit digit, more_eq_some digits]
    rfl

theorem more_append_point (digits : ∀ c ∈ ds, c.isDigit) :
    plainDigits?.more 10 (ds ++ '.' :: rest) = none := by
  induction ds with
  | nil => rfl
  | cons c ds ih =>
    obtain ⟨digit, digits⟩ := List.forall_mem_cons.mp digits
    have plain : c ≠ '_' := by rintro rfl; exact absurd digit (by decide)
    rw [List.cons_append, plainDigits?.more.eq_3 _ _ _ (fun _ _ blank _ => plain blank), ih digits]
    exact ite_self none

/-- A point is no digit. -/
theorem plainDigits?_append_point (digits : ∀ c ∈ ds, c.isDigit) :
    plainDigits? 10 (ds ++ '.' :: rest) = none := by
  cases ds with
  | nil => rfl
  | cons c ds =>
    rw [List.cons_append, plainDigits?.eq_def]
    dsimp only
    rw [more_append_point (List.forall_mem_cons.mp digits).2]
    exact ite_self none

/-- Digits are a whole number unless they start with a zero. -/
theorem wholeDigits?_eq_some (digits : ∀ c ∈ ds, c.isDigit) (nonempty : ds ≠ [])
    (plain : ds.head? ≠ some '0') : wholeDigits? ds = some ds := by
  unfold wholeDigits?
  rw [plainDigits?_eq_some digits nonempty]
  split
  case h_1 zero =>
    cases Option.some.inj zero
    exact absurd rfl plain
  case h_2 => rfl

theorem wholeDigits?_toDigits (n : Nat) :
    wholeDigits? (Nat.toDigits 10 n) = some (Nat.toDigits 10 n) := by
  rcases Nat.eq_zero_or_pos n with rfl | positive
  · rfl
  · exact wholeDigits?_eq_some (isDigit_of_mem_toDigits n) Nat.toDigits_ne_nil
      (head?_toDigits_ne (Nat.ne_of_gt positive))

/-! ## Digits and points -/

/-- Whether a word consists of digits and points, as numbers without sign and exponent do. -/
def IsFigures (cs : List Char) : Prop := ∀ c ∈ cs, c.isDigit ∨ c = '.'

namespace IsFigures

theorem not_mem (figures : IsFigures cs) (noDigit : c.isDigit = false) (noPoint : c ≠ '.') :
    c ∉ cs := fun found => by
  rcases figures c found with digit | point
  · exact Bool.noConfusion (noDigit.symm.trans digit)
  · exact noPoint point

/-- A sign is neither digit nor point. -/
theorem splitSign_eq (figures : IsFigures cs) : splitSign cs = (false, cs) := by
  unfold splitSign
  split
  case h_1 => exact absurd List.mem_cons_self (figures.not_mem (c := '-') rfl (by decide))
  case h_2 => exact absurd List.mem_cons_self (figures.not_mem (c := '+') rfl (by decide))
  case h_3 => rfl

theorem integer?_eq (figures : IsFigures cs) :
    integer? cs
      = (wholeDigits? cs).bind fun ds => (number? 10 ds).bind fun n => bounded? n := by
  have base {c d : Char} {rest : List Char} (same : cs = d :: c :: rest) : c ∈ cs :=
    same ▸ List.mem_cons_of_mem _ List.mem_cons_self
  unfold integer?
  split
  case h_1 => exact absurd (base rfl) (figures.not_mem (c := 'x') rfl (by decide))
  case h_2 => exact absurd (base rfl) (figures.not_mem (c := 'o') rfl (by decide))
  case h_3 => exact absurd (base rfl) (figures.not_mem (c := 'b') rfl (by decide))
  case h_4 =>
    rw [figures.splitSign_eq]
    rfl

theorem isWord (figures : IsFigures cs) : ∀ c ∈ cs, Toml.isWord c := by
  intro c mem
  rcases figures c mem with digit | rfl
  · simp only [Toml.isWord, Char.isAlphanum, digit, Bool.or_true, Bool.true_or]
  · decide

end IsFigures

/-! ## Words -/

theorem eq_drop_of_fixedDigits? {count : Nat} (found : fixedDigits? count cs = some (n, rest)) :
    rest = cs.drop count := by
  unfold fixedDigits? at found
  dsimp only at found
  split at found
  case isTrue =>
    obtain ⟨_, -, same⟩ := Option.map_eq_some_iff.mp found
    exact (congrArg Prod.snd same).symm
  case isFalse => exact nomatch found

/-- A date has a hyphen behind its year. -/
theorem date?_eq_none (none : '-' ∉ cs) : date? cs = .none := by
  unfold date?
  cases year : fixedDigits? 4 cs with
  | none => rfl
  | some found =>
    obtain ⟨n, behind⟩ := found
    have notHyphen : '-' ∉ behind := fun mem =>
      none (List.mem_of_mem_drop (eq_drop_of_fixedDigits? year ▸ mem))
    simp only [Option.bind_eq_bind, Option.bind_some]
    split
    case h_1 => exact absurd List.mem_cons_self notHyphen
    case h_2 => rfl

/-- A time of day has a colon behind its hour. -/
theorem TimeOfDay.read?_eq_none (none : ':' ∉ cs) : TimeOfDay.read? cs = .none := by
  unfold TimeOfDay.read?
  cases hour : fixedDigits? 2 cs with
  | none => rfl
  | some found =>
    obtain ⟨n, behind⟩ := found
    have notColon : ':' ∉ behind := fun mem =>
      none (List.mem_of_mem_drop (eq_drop_of_fixedDigits? hour ▸ mem))
    simp only [Option.bind_eq_bind, Option.bind_some]
    split
    case h_1 => exact absurd List.mem_cons_self notColon
    case h_2 => rfl

/-- Digits and points are a number and nothing else. -/
theorem IsFigures.single?_eq (figures : IsFigures cs) :
    word?.single? cs = (integer? cs <|> decimal? cs) := by
  have ne {other : List Char} (c : Char) (mem : c ∈ other) (noDigit : c.isDigit = false)
      (noPoint : c ≠ '.') : cs ≠ other := by
    rintro rfl
    exact figures.not_mem noDigit noPoint mem
  have noMoment : Timestamp.read? cs = none := by
    rw [Timestamp.read?, date?_eq_none (figures.not_mem rfl (by decide)),
      TimeOfDay.read?_eq_none (figures.not_mem rfl (by decide))]
  rw [word?.single?, noMoment, plainWord?, figures.splitSign_eq]
  dsimp only
  -- Each of the words that are left has a letter.
  rw [if_neg (ne 't' (by decide) rfl (by decide)), if_neg (ne 'f' (by decide) rfl (by decide)),
    if_neg (ne 'i' (by decide) rfl (by decide)), if_neg (ne 'a' (by decide) rfl (by decide))]
  rfl

/-- A word ends where other characters follow. -/
theorem word?_append (inWord : ∀ c ∈ word, isWord c) (noDate : date? word = none)
    (ends : isWord c = false) :
    word? (word ++ c :: rest) = (word?.single? word).map (·, c :: rest) := by
  have taken : (word ++ c :: rest).takeWhile isWord = word := by
    rw [List.takeWhile_append_of_pos inWord, List.takeWhile_cons, ends]
    exact List.append_nil word
  have left : (word ++ c :: rest).dropWhile isWord = c :: rest := by
    rw [List.dropWhile_append_of_pos inWord, List.dropWhile_cons, ends]
    rfl
  rw [word?, taken, left, noDate]

/-! ## Counts -/

theorem isFigures_toDigits (n : Nat) : IsFigures (Nat.toDigits 10 n) :=
  fun c mem => .inl (isDigit_of_mem_toDigits n c mem)

/-- The digits of a number stand for it. -/
theorem single?_toDigits (fits : isSigned n) :
    word?.single? (Nat.toDigits 10 n) = some (.integer n) := by
  have figures := isFigures_toDigits n
  rw [figures.single?_eq, figures.integer?_eq, wholeDigits?_toDigits, Option.bind_some,
    number?_eq_some (isDigit_of_mem_toDigits n), Option.bind_some, Nat.ofDigitChars_ten_toDigits,
    bounded?, if_pos fits]
  rfl

/-! ## Numerals with a point -/

theorem splitAt?_eq (test : Char → Bool) (none : ∀ c ∈ cs, test c = false) :
    splitAt? test cs = (cs, .none) := by
  have all : ∀ c ∈ cs, (!test c) = true := fun c mem => by rw [none c mem]; rfl
  unfold splitAt?
  rw [List.dropWhile_eq_nil_iff.mpr all]

theorem splitAt?_append (test : Char → Bool) (none : ∀ c ∈ cs, test c = false)
    (found : test c = true) : splitAt? test (cs ++ c :: rest) = (cs, some rest) := by
  have all : ∀ c ∈ cs, (!test c) = true := fun c mem => by rw [none c mem]; rfl
  unfold splitAt?
  rw [List.dropWhile_append_of_pos all, List.takeWhile_append_of_pos all, List.dropWhile_cons,
    List.takeWhile_cons, found]
  exact congrArg (·, some rest) (List.append_nil cs)

/-- A numeral with a point: digits before it, without a zero in front, and digits behind it. -/
structure Pointed (cs whole fraction : List Char) : Prop where
  split : cs = whole ++ '.' :: fraction
  leading : wholeDigits? whole = some whole
  digits : ∀ c ∈ whole ++ fraction, c.isDigit
  nonempty : fraction ≠ []

/-- A numeral with a point, and the amount that it names. -/
def Names (cs : List Char) (x : Amount) : Prop :=
  ∃ whole fraction, Pointed cs whole fraction ∧
    (⟨Nat.ofDigitChars 10 (whole ++ fraction) 0, -fraction.length⟩ : Decimal).toAmount = x

theorem Pointed.isFigures (pointed : Pointed cs whole fraction) : IsFigures cs := by
  intro c mem
  rw [pointed.split, List.mem_append, List.mem_cons] at mem
  rcases mem with mem | rfl | mem
  · exact .inl (pointed.digits c (List.mem_append_left _ mem))
  · exact .inr rfl
  · exact .inl (pointed.digits c (List.mem_append_right _ mem))

namespace Names

theorem isFigures (names : Names cs x) : IsFigures cs := by
  obtain ⟨_, _, pointed, -⟩ := names
  exact pointed.isFigures

theorem ne_nil (names : Names cs x) : cs ≠ [] := by
  obtain ⟨_, _, pointed, _⟩ := names
  rw [pointed.split]
  exact List.append_ne_nil_of_right_ne_nil _ (List.cons_ne_nil _ _)

/-- A numeral with a point is no integer. -/
theorem integer?_eq_none (names : Names cs x) : integer? cs = none := by
  obtain ⟨whole, fraction, pointed, -⟩ := names
  have digits : ∀ c ∈ whole, c.isDigit := (List.forall_mem_append.mp pointed.digits).1
  rw [pointed.isFigures.integer?_eq, pointed.split, wholeDigits?, plainDigits?_append_point digits]
  rfl

theorem decimal?_eq_some (names : Names cs x) (finite : x.isInf = false) :
    decimal? cs = some (.amount x) := by
  obtain ⟨whole, fraction, pointed, value⟩ := names
  have figures := pointed.isFigures
  obtain ⟨before, behind⟩ := List.forall_mem_append.mp pointed.digits
  -- No mark of an exponent is found, and the first point is the only one.
  have noExponent : splitAt? (fun c => c = 'e' || c = 'E') cs = (cs, none) := by
    refine splitAt?_eq _ fun c mem => Bool.or_eq_false_iff.mpr ⟨?_, ?_⟩ <;>
      refine decide_eq_false fun mark => figures.not_mem (c := c) ?_ ?_ mem <;>
      subst mark <;> decide
  have point : splitAt? (· = '.') cs = (whole, some fraction) := by
    rw [pointed.split]
    refine splitAt?_append _ (fun c mem => decide_eq_false ?_) (by decide)
    rintro rfl
    exact absurd (before '.' mem) (by decide)
  -- Without an exponent, only the places behind the point are counted.
  rw [← Int.zero_sub] at value
  simp only [decimal?, figures.splitSign_eq, noExponent, point, pointed.leading,
    plainDigits?_eq_some behind pointed.nonempty, number?_eq_some pointed.digits,
    Option.isNone_none, Option.isNone_some, Option.bind_eq_bind, Option.bind_some, value, finite,
    Bool.false_eq_true, and_false, if_false]

/-- A numeral with a point stands for the amount that it names. -/
theorem single?_eq_some (names : Names cs x) (finite : x.isInf = false) :
    word?.single? cs = some (.amount x) := by
  rw [names.isFigures.single?_eq, names.integer?_eq_none, names.decimal?_eq_some finite]
  rfl

end Names

/-! ## Layouts

A numeral is laid out in one of three ways: with the point behind all of its digits, between them
or before them. -/

section

variable {places : Nat}

theorem length_toString (m : Nat) : (toString m).length = digitCount m :=
  String.length_toList.symm.trans (congrArg List.length Nat.toList_repr)

/-- Behind the point of a whole number stands a zero, which counts as a greater exponent. -/
theorem names_whole (plain : m = 0 → k = 0) :
    Names ((⟨m, k⟩ : Decimal).positional ".0").toList (⟨m, k⟩ : Decimal).toAmount := by
  have text : ((⟨m, k⟩ : Decimal).positional ".0").toList
      = Nat.toDigits 10 m ++ List.replicate k '0' ++ ['.', '0'] := by
    unfold Decimal.positional
    dsimp only
    rw [if_pos (Int.natCast_nonneg k), String.toList_append, String.toList_append, zeros,
      String.toList_ofList, Int.toNat_natCast]
    exact congrArg (· ++ _ ++ _) Nat.toList_repr
  have nonempty : Nat.toDigits 10 m ≠ [] := Nat.toDigits_ne_nil
  have digits := List.forall_mem_append.mpr ⟨isDigit_of_mem_toDigits m, isDigit_of_mem_zeros k⟩
  refine ⟨_, ['0'], ⟨text, ?_, ?_, List.cons_ne_nil _ _⟩, ?_⟩
  · -- Zero is the one number that has a zero in front, and then no other digit may follow.
    rcases Nat.eq_zero_or_pos m with rfl | positive
    · rw [plain rfl]
      rfl
    · refine wholeDigits?_eq_some digits (List.append_ne_nil_of_left_ne_nil nonempty _) ?_
      rw [List.head?_append_of_ne_nil _ nonempty]
      exact head?_toDigits_ne (Nat.ne_of_gt positive)
  · exact List.forall_mem_append.mpr ⟨digits, isDigit_of_mem_zeros 1⟩
  · have number : Nat.ofDigitChars 10 (Nat.toDigits 10 m ++ List.replicate k '0' ++ ['0']) 0
        = m * 10 ^ (k + 1) := by
      rw [List.append_assoc, ← List.replicate_succ', Nat.ofDigitChars_append,
        Nat.ofDigitChars_ten_toDigits, Nat.ofDigitChars_replicate_zero, Nat.mul_comm]
    have exponent : -(['0'].length : Int) + (k + 1 : Nat) = k := by
      change -1 + ((k + 1 : Nat) : Int) = k
      omega
    rw [number, Decimal.toAmount_shift, exponent]

/-- The point stands between the digits. -/
theorem names_inside (positive : m ≠ 0) (some : places ≠ 0) (inside : places < digitCount m) :
    Names ((⟨m, -places⟩ : Decimal).positional ".0").toList
      (⟨m, -places⟩ : Decimal).toAmount := by
  have digits := isDigit_of_mem_toDigits m
  have text : (toString m).toList = Nat.toDigits 10 m := Nat.toList_repr
  have count : (-(-(places : Int))).toNat = places := by omega
  refine ⟨(Nat.toDigits 10 m).take (digitCount m - places),
    (Nat.toDigits 10 m).drop (digitCount m - places), ⟨?_, ?_, ?_, ?_⟩, ?_⟩
  · unfold Decimal.positional
    dsimp only
    rw [if_neg (by omega), count, length_toString, if_pos inside, text]
    simp only [String.toList_append, String.toList_ofList, List.append_assoc]
    rfl
  · refine wholeDigits?_eq_some (fun c mem => digits c (List.mem_of_mem_take mem)) ?_ ?_
    · rw [Ne, List.take_eq_nil_iff]
      exact not_or.mpr ⟨by omega, Nat.toDigits_ne_nil⟩
    · rw [List.head?_take, if_neg (by omega)]
      exact head?_toDigits_ne positive
  · rwa [List.take_append_drop]
  · rw [Ne, List.drop_eq_nil_iff]
    change ¬ digitCount m ≤ _
    omega
  · have exponent : ((Nat.toDigits 10 m).drop (digitCount m - places)).length = places := by
      rw [List.length_drop]
      change digitCount m - (digitCount m - places) = places
      omega
    rw [List.take_append_drop, Nat.ofDigitChars_ten_toDigits, exponent]

/-- Zeros stand before and behind the point, in front of all digits. -/
theorem names_before (some : places ≠ 0) (before : digitCount m ≤ places) :
    Names ((⟨m, -places⟩ : Decimal).positional ".0").toList
      (⟨m, -places⟩ : Decimal).toAmount := by
  have digits := isDigit_of_mem_toDigits m
  have text : (toString m).toList = Nat.toDigits 10 m := Nat.toList_repr
  have count : (-(-(places : Int))).toNat = places := by omega
  refine ⟨['0'], List.replicate (places - digitCount m) '0' ++ Nat.toDigits 10 m,
    ⟨?_, rfl, ?_, List.append_ne_nil_of_right_ne_nil _ Nat.toDigits_ne_nil⟩, ?_⟩
  · unfold Decimal.positional
    dsimp only
    rw [if_neg (by omega), count, length_toString, if_neg (by omega)]
    simp only [String.toList_append, zeros, String.toList_ofList, text, List.append_assoc]
    rfl
  · exact List.forall_mem_append.mpr ⟨isDigit_of_mem_zeros 1,
      List.forall_mem_append.mpr ⟨isDigit_of_mem_zeros _, digits⟩⟩
  · have exponent : (List.replicate (places - digitCount m) '0' ++ Nat.toDigits 10 m).length
        = places := by
      rw [List.length_append, List.length_replicate]
      exact Nat.sub_add_cancel before
    rw [List.singleton_append, ← List.cons_append, ← List.replicate_succ,
      ofDigitChars_zeros_append, Nat.ofDigitChars_ten_toDigits, exponent]

end

/-- A numeral without an exponent names the same amount. -/
theorem names_positional (d : Decimal) (plain : d.digits = 0 → d.exponent = 0) :
    Names (d.positional ".0").toList d.toAmount := by
  obtain ⟨m, e⟩ := d
  rcases lt_or_ge e 0 with negative | nonneg
  · obtain ⟨places, rfl⟩ := Int.exists_eq_neg_ofNat (Int.le_of_lt negative)
    have positive : m ≠ 0 := fun nothing => Int.ne_of_lt negative (plain nothing)
    have some : places ≠ 0 := by omega
    rcases Nat.lt_or_ge places (digitCount m) with inside | before
    · exact names_inside positive some inside
    · exact names_before some before
  · obtain ⟨k, rfl⟩ := Int.eq_ofNat_of_zero_le nonneg
    exact names_whole fun nothing => Int.ofNat_eq_zero.mp (plain nothing)

end Toml

end ActionPlanning.Document

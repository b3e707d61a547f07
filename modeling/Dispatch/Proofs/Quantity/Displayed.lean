import Dispatch.Decimal.Notation
import Dispatch.Proofs.Quantity.Grammar

/-! # Quantities as they are displayed

* `Decimal.literal_plain`: a decimal in plain notation is a numeral of the same value.
* `Exact.text`: exact numbers in plain notation.
* `Quantity.ofText_text_eq_self`: what has been read as a quantity is read again, unchanged, from the text that
  the quantity is displayed as.

A quantity is displayed in canonical units, so its text is another than the one that was read: every unit
is a power of ten of the canonical one, and the number stays a decimal.
-/

namespace Dispatch
set_option autoImplicit false

open Exact

/-! ## Digits -/

namespace Decimal

theorem isDigit_of_mem_digitsOf {n : ℕ} {c : Char} (h : c ∈ digitsOf n) : isDigit c = true := by
  have hdigit : c.isDigit = true := Nat.isDigit_of_mem_toDigits (by decide) (by decide) h
  have hrange : '0' ≤ c ∧ c ≤ '9' := by
    rw [Char.isDigit, Bool.and_eq_true, decide_eq_true_eq, decide_eq_true_eq] at hdigit
    exact hdigit
  rw [isDigit, digit?, if_pos hrange]
  rfl

theorem digits_digitsOf (n : ℕ) : Numeral.Digits (digitsOf n) := fun _ => isDigit_of_mem_digitsOf

theorem digits_zeros (k : ℕ) : Numeral.Digits (List.replicate k '0') := by
  intro c hc
  rw [List.eq_of_mem_replicate hc]
  rfl

theorem ofDigits_eq_ofDigitChars {cs : List Char} (hcs : Numeral.Digits cs) (acc : ℕ) :
    ofDigits acc cs = Nat.ofDigitChars 10 cs acc := by
  induction cs generalizing acc with
  | nil => rfl
  | cons c cs ih =>
    obtain ⟨hc, hcs⟩ := List.forall_mem_cons.mp hcs
    have hvalue : (digit? c).getD 0 = c.toNat - '0'.toNat := by
      unfold isDigit digit? at hc
      split_ifs at hc with hrange
      · rw [digit?, if_pos hrange, Option.getD_some]
      · cases hc
    rw [ofDigits_cons, Nat.ofDigitChars_cons, ih hcs, hvalue]

theorem ofDigits_digitsOf (n : ℕ) : ofDigits 0 (digitsOf n) = n := by
  rw [ofDigits_eq_ofDigitChars (digits_digitsOf n)]
  exact Nat.ofDigitChars_ten_toDigits

theorem ofDigits_zeros (acc k : ℕ) : ofDigits acc (List.replicate k '0') = 10 ^ k * acc := by
  rw [ofDigits_eq_ofDigitChars (digits_zeros k), Nat.ofDigitChars_replicate_zero]

/-! ## Plain notation -/

/-- What the digits on both sides of a point say: digits they are, some stand in front of the point, and
together they are the number. -/
structure Splits (whole part : List Char) (n : ℕ) (e : ℤ) : Prop where
  front : Numeral.Digits whole
  back : Numeral.Digits part
  nonempty : whole ≠ []
  value : (ofDigits 0 (whole ++ part) : ℝ) * 10 ^ (-(part.length : ℤ)) = n * 10 ^ e

theorem splits_nonneg (n : ℕ) {e : ℤ} (he : 0 ≤ e) :
    Splits (digitsOf n ++ List.replicate e.toNat '0') [] n e where
  front := List.forall_mem_append.mpr ⟨digits_digitsOf n, digits_zeros _⟩
  back := nofun
  nonempty := List.append_ne_nil_of_left_ne_nil Nat.toDigits_ne_nil _
  value := by
    have hpower : (10 : ℝ) ^ e = 10 ^ e.toNat := by
      rw [← zpow_natCast, Int.toNat_of_nonneg he]
    rw [List.append_nil, ofDigits_append, ofDigits_digitsOf, ofDigits_zeros, hpower]
    push_cast
    simp [mul_comm]

/-- Below the point there are as many digits as the exponent says, with zeros in front if `n` has not
so many. -/
theorem splits_neg (n : ℕ) {e : ℤ} (he : e < 0) {padded : List Char}
    (hpadded : padded = List.replicate ((-e).toNat + 1 - (digitsOf n).length) '0' ++ digitsOf n) :
    Splits (padded.take (padded.length - (-e).toNat)) (padded.drop (padded.length - (-e).toNat)) n e where
  front c hc := by
    have hc := List.mem_of_mem_take hc
    rw [hpadded] at hc
    exact List.forall_mem_append.mpr ⟨digits_zeros _, digits_digitsOf n⟩ c hc
  back c hc := by
    have hc := List.mem_of_mem_drop hc
    rw [hpadded] at hc
    exact List.forall_mem_append.mpr ⟨digits_zeros _, digits_digitsOf n⟩ c hc
  nonempty := by
    have hlength : (-e).toNat < padded.length := by
      rw [hpadded, List.length_append, List.length_replicate]
      omega
    rw [ne_eq, List.take_eq_nil_iff, not_or]
    exact ⟨by omega, List.ne_nil_of_length_pos (by omega)⟩
  value := by
    have hlength : (-e).toNat ≤ padded.length := by
      rw [hpadded, List.length_append, List.length_replicate]
      omega
    have hplaces : (padded.drop (padded.length - (-e).toNat)).length = (-e).toNat := by
      rw [List.length_drop]
      omega
    have hexponent : -(((-e).toNat : ℕ) : ℤ) = e := by omega
    rw [List.take_append_drop, hplaces, hexponent, hpadded, ofDigits_append, ofDigits_zeros, mul_zero,
      ofDigits_digitsOf]

theorem splits_split (n : ℕ) (e : ℤ) : Splits (split n e).1 (split n e).2 n e := by
  unfold split
  by_cases he : 0 ≤ e
  · simp only [if_pos he]
    exact splits_nonneg n he
  · simp only [if_neg he]
    exact splits_neg n (not_le.mp he) rfl

/-- Dropping zeros at the end leaves the number as it is. -/
theorem stripFrom_value (fuel n : ℕ) (e : ℤ) :
    ((stripFrom fuel n e).1 : ℝ) * 10 ^ (stripFrom fuel n e).2 = n * 10 ^ e := by
  induction fuel generalizing n e with
  | zero => rfl
  | succ fuel ih =>
    rw [stripFrom]
    split_ifs with hzero
    · have hten : (n : ℝ) = 10 * (n / 10 : ℕ) := by
        exact_mod_cast (Nat.mul_div_cancel' (Nat.dvd_of_mod_eq_zero hzero.1)).symm
      rw [ih, hten, zpow_add₀ (by norm_num), zpow_one]
      ring
    · rfl

theorem ofDecimal_strip (d : Decimal) : Exact.ofDecimal d.strip = Exact.ofDecimal d := by
  unfold strip
  split_ifs with hzero
  · simp [Exact.ofDecimal, hzero]
  · simp only [Exact.ofDecimal, stripFrom_value]

/-- Positional notation without a fraction for whole numbers is a numeral of the same value. -/
theorem literal_positional (d : Decimal) : ∃ d' : Decimal,
    Numeral.Literal (d.positional "").toList (.finite d') ∧ Exact.ofDecimal d' = Exact.ofDecimal d := by
  obtain ⟨hwhole, hpart, hne, hvalue⟩ := splits_split d.digits d.exponent
  unfold positional
  generalize split d.digits d.exponent = parts at *
  obtain ⟨whole, part⟩ := parts
  refine ⟨⟨d.negative, ofDigits 0 (whole ++ part), 0 - part.length⟩, ?_, ?_⟩
  · have hsign : Numeral.Signed (if d.negative then "-" else "").toList d.negative := by
      cases d.negative with
      | false => exact .bare
      | true => exact .minus
    have hbody : Numeral.Positional
        (String.ofList whole ++ if part.isEmpty then "" else "." ++ String.ofList part).toList
        whole part := by
      cases part with
      | nil =>
        rw [if_pos List.isEmpty_nil, String.append_empty, String.toList_ofList]
        exact .whole hwhole hne
      | cons c part =>
        rw [if_neg (by simp)]
        simp only [String.toList_append, String.toList_ofList]
        exact .pointed hwhole hpart (List.append_ne_nil_of_left_ne_nil hne _)
    have htext := Numeral.Literal.finite hsign hbody .none
    rw [List.append_nil, ← String.toList_append, ← String.append_assoc] at htext
    exact htext
  · simp only [Exact.ofDecimal, zero_sub, hvalue]

theorem literal_plain (d : Decimal) : ∃ d' : Decimal,
    Numeral.Literal d.plain.toList (.finite d') ∧ Exact.ofDecimal d' = Exact.ofDecimal d := by
  obtain ⟨d', hliteral, hvalue⟩ := d.strip.literal_positional
  exact ⟨d', hliteral, hvalue.trans d.ofDecimal_strip⟩

end Decimal

/-! ## Exact numbers in plain notation -/

open Classical in
/-- Digits and a point for every number that is a decimal; no other number has a text of its own. -/
noncomputable def Exact.text : Exact → String
  | num x => if h : ∃ d : Decimal, Exact.ofDecimal d = num x then h.choose.plain else ""
  | inf => "inf"
  | negInf => "-inf"
  | nan => "NaN"

noncomputable instance : NumText Exact := ⟨Exact.text⟩

/-- A decimal is read back from its text. -/
theorem Exact.literal_text (d : Decimal) : ∃ d' : Decimal,
    Numeral.Literal (NumText.numText (Exact.ofDecimal d)).toList (.finite d') ∧
      Exact.ofDecimal d' = Exact.ofDecimal d := by
  have hsome : ∃ d' : Decimal, Exact.ofDecimal d' = num (Exact.ofDecimal d).toReal := ⟨d, rfl⟩
  have htext : NumText.numText (Exact.ofDecimal d) = hsome.choose.plain := dif_pos hsome
  obtain ⟨d', hliteral, hvalue⟩ := hsome.choose.literal_plain
  exact ⟨d', htext ▸ hliteral, hvalue.trans hsome.choose_spec⟩

/-! ## Quantities -/

/-- Every unit is a power of ten of the canonical one. -/
theorem BaseUnit.exists_kilos_eq (u : BaseUnit) : ∃ k : ℤ, u.kilos = 10 ^ k := by
  obtain ⟨m, s⟩ := u
  cases s with
  | plain => exact ⟨-3, by norm_num [kilos]⟩
  | kilo => exact ⟨0, by norm_num [kilos]⟩
  | mega => exact ⟨3, by norm_num [kilos]⟩
  | giga => exact ⟨6, by norm_num [kilos]⟩

theorem Exact.exists_scaled_decimal (d : Decimal) (k : ℤ) :
    ∃ d' : Decimal, Exact.ofDecimal d' = num ((Exact.ofDecimal d).toReal * 10 ^ k) := by
  refine ⟨{ d with exponent := d.exponent + k }, ?_⟩
  simp only [Exact.ofDecimal, toReal_num, num_inj, zpow_add₀ (by norm_num : (10 : ℝ) ≠ 0)]
  split_ifs <;> ring

namespace StatedUnit

/-- The canonical unit of the same sort. -/
def base : StatedUnit → StatedUnit
  | of u => of ⟨u.measured, .kilo⟩
  | per currency u => per currency ⟨u.measured, .kilo⟩

/-- The text of the unit without blanks around the stroke. -/
def name : StatedUnit → List Char
  | of u => u.name.toList
  | per currency u => currency ++ '/' :: u.name.toList

theorem factor_base (u : StatedUnit) : u.base.factor = 1 := by
  cases u with
  | of u => rfl
  | per currency u => exact one_div_one

theorem dimension_base (u : StatedUnit) : u.base.dimension = u.dimension := by
  cases u with
  | of u => rcases u with ⟨_ | _, s⟩ <;> rfl
  | per currency u => rcases u with ⟨_ | _, s⟩ <;> rfl

theorem currency_base (u : StatedUnit) : u.base.currency = u.currency := by
  cases u with
  | of u => rfl
  | per currency u => rfl

theorem spelled_base {u : StatedUnit} {cs : List Char} (h : u.Spelled cs) :
    u.base.Spelled u.base.name := by
  cases u with
  | of u => rfl
  | per currency u =>
    exact ⟨h.1, [], [], Text.blank_nil, Text.blank_nil, by rw [List.append_nil]; rfl⟩

theorem exists_decimal (u : StatedUnit) (d : Decimal) :
    ∃ d' : Decimal, Exact.ofDecimal d' = num ((Exact.ofDecimal d).toReal * u.factor) := by
  cases u with
  | of u =>
    obtain ⟨k, hk⟩ := u.exists_kilos_eq
    rw [factor, hk]
    exact Exact.exists_scaled_decimal d k
  | per currency u =>
    obtain ⟨k, hk⟩ := u.exists_kilos_eq
    rw [factor, hk, one_div, ← zpow_neg]
    exact Exact.exists_scaled_decimal d (-k)

/-- Powers, energies and prices are displayed in the canonical unit, behind a blank. -/
theorem text_eq (u : StatedUnit) (v : Exact) :
    (⟨v, u.dimension, u.currency⟩ : Quantity Exact).text =
      NumText.numText v ++ String.ofList ([' '] ++ u.base.name) := by
  rw [← String.toList_inj]
  rcases u with ⟨_ | _, s⟩ | ⟨currency, _ | _, s⟩ <;>
    simp [Quantity.text, dimension, StatedUnit.currency, base, name, BaseUnit.name]

end StatedUnit

theorem QuantityUnit.text_percent (n : ℝ) :
    (QuantityUnit.percent.quantity n).text = NumText.numText (num n) ++ String.ofList ['%'] := by
  have hhundred : num (n / 100) * (Scalar.ofNat 100 : Exact) = num n := by
    rw [ofNat_eq, num_mul, Nat.cast_ofNat, div_mul_cancel₀ _ (by norm_num)]
  change NumText.numText (num (n / 100) * (Scalar.ofNat 100 : Exact)) ++ "%" = _
  rw [hhundred]

namespace Quantity

/-- A quantity that is displayed as a decimal and a unit is read as so many of the unit. -/
theorem ofText_displayed {d : Decimal} {u : QuantityUnit} {name : List Char} (hname : u.Spelled name)
    (gap : List Char) (hgap : Text.Blank gap) (hpoint : gap = [] → name.head? ≠ some '.') :
    (ofText (NumText.numText (Exact.ofDecimal d) ++ String.ofList (gap ++ name)) :
      Checked Exact (Quantity Exact)) = .ok (u.quantity (Exact.ofDecimal d).toReal) := by
  obtain ⟨d', hliteral, hvalue⟩ := Exact.literal_text d
  have h := ofText_of_literal hliteral Text.blank_nil hgap Text.blank_nil hname hpoint
  rw [hvalue, List.nil_append, List.append_nil, String.ofList_append, String.ofList_toList] at h
  exact h

/-- What has been read as a quantity is displayed as a text that is read as the same quantity. -/
theorem ofText_text_eq_self {s : String} {q : Quantity Exact}
    (h : (ofText s : Checked Exact (Quantity Exact)) = .ok q) :
    (ofText q.text : Checked Exact (Quantity Exact)) = .ok q := by
  obtain ⟨front, rest, d, u, -, hname, rfl⟩ := ofText_eq_ok_iff.mp h
  have hspace : Text.Blank [' '] := List.forall_mem_singleton.mpr rfl
  cases u with
  | none =>
    have h := ofText_displayed (d := d) (u := .none) rfl [] Text.blank_nil nofun
    rwa [List.append_nil, String.ofList_nil, String.append_empty] at h
  | percent =>
    have h := ofText_displayed (d := d) (u := .percent) rfl [] Text.blank_nil (by simp)
    rw [QuantityUnit.text_percent, num_toReal rfl]
    exact h
  | stated u =>
    obtain ⟨d', hd'⟩ := u.exists_decimal d
    have h := ofText_displayed (d := d') (u := .stated u.base) (u.spelled_base hname) [' '] hspace nofun
    rw [QuantityUnit.quantity_stated, hd', toReal_num, u.factor_base, mul_one, u.dimension_base,
      u.currency_base] at h
    rw [QuantityUnit.quantity_stated, u.text_eq]
    exact h

/-- The currency starts with a point and holds a blank and a percent sign. -/
theorem negative_price_displayed :
    (ofText "-250 .x %/MWh" : Checked Exact (Quantity Exact)) =
        .ok ⟨num (-250 / 1000), .energyPrice, some ".x %"⟩ ∧
      (ofText (⟨num (-250 / 1000), .energyPrice, some ".x %"⟩ : Quantity Exact).text :
        Checked Exact (Quantity Exact)) = .ok ⟨num (-250 / 1000), .energyPrice, some ".x %"⟩ := by
  have hnumeral : Numeral.Literal "-250".toList (.finite ⟨true, 250, 0⟩) :=
    Numeral.read?_eq_some_iff.mp (by decide +kernel)
  have hcurrency : IsCurrency ".x %".toList := by decide
  have hname : (QuantityUnit.stated (.per ".x %".toList ⟨.energy, .mega⟩)).Spelled
      ".x %/MWh".toList :=
    ⟨hcurrency, [], [], Text.blank_nil, Text.blank_nil, by decide⟩
  have hvalue : (Exact.ofDecimal ⟨true, 250, 0⟩).toReal = -250 := by simp [Exact.ofDecimal]
  have hspace : Text.Blank [' '] := List.forall_mem_singleton.mpr rfl
  have h := ofText_of_literal hnumeral Text.blank_nil hspace Text.blank_nil hname
    fun hnil => absurd hnil (List.cons_ne_nil _ _)
  rw [hvalue] at h
  exact ⟨h, ofText_text_eq_self h⟩

end Quantity

end Dispatch

import Dispatch.Proofs.Quantity.Literal
import Dispatch.Proofs.Quantity.Spelling

/-! # The grammar of quantities

* `Numeral.Leads`: the longest front part of a text that is a numeral, and what is left behind it.
* `QuantityUnit`: what may stand behind the number: nothing, a percent sign or a unit.
* `Quantity.ofText_grammar`: a text is read as a quantity just when it is a number and a unit, and
  what it is read as; a number written in front of a unit is always found.

The number is the longest front part, so the grammar says which numeral leads, not only that one does.
-/

namespace Dispatch
set_option autoImplicit false

open Exact

/-! ## The number in front -/

/-- Of all front parts of `cs` that are numerals when the blanks around them are dropped, `front` is the
longest. -/
structure Numeral.Leads (cs front rest : List Char) (v : Numeral) : Prop where
  cut : cs = front ++ rest
  literal : Literal (Text.trim front) v
  longest : ∀ longer w, longer <+: cs → Literal (Text.trim longer) w → longer.length ≤ front.length

theorem longestNumeral_of_leads {cs front rest : List Char} {v : Numeral}
    (h : Numeral.Leads cs front rest v) {n : ℕ} (hlow : front.length ≤ n) (hhigh : n ≤ cs.length) :
    longestNumeral n cs = some (v, Text.trim rest) := by
  have hread := Numeral.read?_eq_some_iff.mpr h.literal
  induction n with
  | zero =>
    rw [List.eq_nil_of_length_eq_zero (Nat.le_zero.mp hlow), Text.trim_nil] at hread
    cases hread
  | succ n ih =>
    rw [longestNumeral]
    rcases Nat.lt_or_eq_of_le hlow with hlonger | hsame
    · have hnone : Numeral.read? (Text.trim (cs.take (n + 1))) = none := by
        rw [Option.eq_none_iff_forall_ne_some]
        intro w hw
        have hle := h.longest _ w (List.take_prefix (n + 1) cs) (Numeral.read?_eq_some_iff.mp hw)
        rw [List.length_take, Nat.min_eq_left hhigh] at hle
        omega
      rw [hnone]
      exact ih (Nat.lt_succ_iff.mp hlonger) (Nat.le_of_succ_le hhigh)
    · have htake : cs.take (n + 1) = front := by rw [h.cut, ← hsame, List.take_left]
      have hdrop : cs.drop (n + 1) = rest := by rw [h.cut, ← hsame, List.drop_left]
      rw [htake, hdrop, hread]

theorem longestNumeral_eq_some_iff {cs unit : List Char} {v : Numeral} :
    longestNumeral cs.length cs = some (v, unit) ↔
      ∃ front rest, Numeral.Leads cs front rest v ∧ unit = Text.trim rest := by
  constructor
  · intro h
    obtain ⟨k, hk, hread, hunit, hmax⟩ := longestNumeral_split h
    refine ⟨cs.take k, cs.drop k, ⟨(List.take_append_drop k cs).symm,
      Numeral.read?_eq_some_iff.mp hread, fun longer w hlonger hliteral => ?_⟩, hunit⟩
    rw [List.length_take, Nat.min_eq_left hk]
    by_contra hlt
    have hnone := hmax longer.length (Nat.lt_of_not_le hlt) hlonger.length_le
    rw [← List.prefix_iff_eq_take.mp hlonger, Numeral.read?_eq_some_iff.mpr hliteral] at hnone
    cases hnone
  · rintro ⟨front, rest, h, rfl⟩
    refine longestNumeral_of_leads h ?_ le_rfl
    rw [h.cut, List.length_append]
    exact Nat.le_add_right _ _

/-! ## Units -/

/-- What may stand behind a number. -/
inductive QuantityUnit where
  | none
  | percent
  | stated (unit : StatedUnit)

namespace QuantityUnit

def Spelled : QuantityUnit → List Char → Prop
  | none, cs => cs = []
  | percent, cs => cs = ['%']
  | stated u, cs => u.Spelled cs

/-- So many of the unit, in canonical units. -/
noncomputable def canonical (n : ℝ) : QuantityUnit → ℝ
  | none => n
  | percent => n / (100 : ℕ)
  | stated (.of u) => n * u.kilos
  | stated (.per _ u) => n / u.kilos

def dimension : QuantityUnit → Dimension
  | none => .dimensionless
  | percent => .ratio
  | stated u => u.dimension

def currency : QuantityUnit → Option String
  | none => .none
  | percent => .none
  | stated u => u.currency

noncomputable def quantity (u : QuantityUnit) (n : ℝ) : Quantity Exact :=
  ⟨num (u.canonical n), u.dimension, u.currency⟩

theorem quantity_stated (u : StatedUnit) (n : ℝ) :
    (stated u).quantity n = ⟨num (n * u.factor), u.dimension, u.currency⟩ := by
  cases u with
  | of u => rfl
  | per currency u => rw [StatedUnit.factor, mul_one_div]; rfl

theorem ofUnit_eq {u : QuantityUnit} {cs : List Char} (h : u.Spelled cs) (n : ℝ) :
    (Quantity.ofUnit (num n) cs : Except TextFault (Quantity Exact)) = .ok (u.quantity n) := by
  cases u with
  | none =>
    obtain rfl := h
    rfl
  | percent =>
    obtain rfl := h
    have hhundred : (Scalar.ofNat 100 : Exact) = num (100 : ℕ) := ofNat_eq 100
    have hvalue : num n / (Scalar.ofNat 100 : Exact) = num (n / 100) := by
      rw [hhundred, num_div _ (by norm_num)]
      norm_num
    rw [Quantity.ofUnit, if_neg (by decide), if_pos (by decide), hvalue]
    rfl
  | stated u => rw [StatedUnit.ofUnit_eq h, quantity_stated]

theorem follows {u : QuantityUnit} {numeral gap cs : List Char} (h : u.Spelled cs) (hne : cs ≠ [])
    (hgap : Text.Blank gap)
    (hpoint : gap = [] → cs.head? = some '.' → Numeral.read? (numeral ++ ['.']) = .none) :
    Text.Follows numeral gap cs := by
  cases u with
  | none => exact absurd h hne
  | percent =>
    obtain rfl := h
    exact ⟨hgap, Text.bare_singleton rfl, hne, List.forall_mem_singleton.mpr rfl, hpoint⟩
  | stated u => exact u.follows h hgap hpoint

/-- Only these units are read. -/
theorem ofUnit_eq_ok_iff {cs : List Char} (hbare : Text.Bare cs) {n : ℝ} {q : Quantity Exact} :
    Quantity.ofUnit (num n) cs = .ok q ↔ ∃ u : QuantityUnit, u.Spelled cs ∧ q = u.quantity n := by
  constructor
  · intro h
    obtain ⟨u, hu⟩ : ∃ u : QuantityUnit, u.Spelled cs := by
      by_cases hnone : cs = []
      · exact ⟨none, hnone⟩
      · by_cases hpercent : String.ofList cs = "%"
        · exact ⟨percent, by rw [Spelled, ← String.toList_ofList (l := cs), hpercent]; rfl⟩
        · obtain ⟨u, hu⟩ := StatedUnit.exists_spelled_of_ne hbare hnone hpercent h
          exact ⟨stated u, hu⟩
    exact ⟨u, hu, Except.ok.inj (h.symm.trans (ofUnit_eq hu n))⟩
  · rintro ⟨u, hu, rfl⟩
    exact ofUnit_eq hu n

end QuantityUnit

/-! ## Texts of quantities -/

theorem Exact.ofDecimal_eq (d : Decimal) :
    (Scalar.ofDecimal d : Exact) = num (Exact.ofDecimal d).toReal := (num_toReal rfl).symm

namespace Quantity

/-- A quantity is the number that leads its text and the unit behind it. -/
theorem ofText_eq_ok_iff {s : String} {q : Quantity Exact} :
    (ofText s : Checked Exact (Quantity Exact)) = .ok q ↔
      ∃ front rest d, ∃ u : QuantityUnit,
        Numeral.Leads (Text.trim s.toList) front rest (.finite d) ∧ u.Spelled (Text.trim rest) ∧
          q = u.quantity (Exact.ofDecimal d).toReal := by
  constructor
  · intro h
    obtain ⟨d, unit, hlongest, hunit⟩ := number_of_ofText h
    obtain ⟨front, rest, hleads, rfl⟩ := longestNumeral_eq_some_iff.mp hlongest
    rw [ofDecimal_eq, QuantityUnit.ofUnit_eq_ok_iff (Text.bare_trim rest)] at hunit
    obtain ⟨u, hu, hq⟩ := hunit
    exact ⟨front, rest, d, u, hleads, hu, hq⟩
  · rintro ⟨front, rest, d, u, hleads, hu, rfl⟩
    rw [ofText_eq rfl (longestNumeral_eq_some_iff.mpr ⟨front, rest, hleads, rfl⟩), ofDecimal_eq,
      QuantityUnit.ofUnit_eq hu]
    rfl

/-- A number is found in front of any unit, with any blanks; only a point right behind it may belong to
it. -/
theorem ofText_of_literal {before numeral gap name after : List Char} {d : Decimal} {u : QuantityUnit}
    (hnumeral : Numeral.Literal numeral (.finite d)) (hbefore : Text.Blank before)
    (hgap : Text.Blank gap) (hafter : Text.Blank after) (hname : u.Spelled name)
    (hpoint : gap = [] → name.head? ≠ some '.') :
    (ofText (String.ofList (before ++ (numeral ++ (gap ++ name)) ++ after)) :
        Checked Exact (Quantity Exact)) = .ok (u.quantity (Exact.ofDecimal d).toReal) := by
  have hread := Numeral.read?_eq_some_iff.mpr hnumeral
  obtain ⟨hbare, hne⟩ := Numeral.bare_of_read? hread
  by_cases hempty : name = []
  · -- the gap is at the end of the text and is cut off with the blanks there
    subst hempty
    have hblank : Text.Blank (gap ++ after) := List.forall_mem_append.mpr ⟨hgap, hafter⟩
    have htrim : Text.trim (before ++ (numeral ++ (gap ++ [])) ++ after) = numeral := by
      rw [List.append_nil, ← List.append_assoc before, List.append_assoc (before ++ numeral)]
      exact Text.trim_append hbefore hblank hbare hne
    refine ofText_eq_ok_iff.mpr ⟨numeral, [], d, u, ?_, hname, rfl⟩
    rw [String.toList_ofList, htrim]
    refine ⟨(List.append_nil _).symm, ?_, fun longer w hlonger _ => hlonger.length_le⟩
    rwa [← List.nil_append numeral, ← List.append_nil ([] ++ numeral),
      Text.trim_append Text.blank_nil Text.blank_nil hbare hne]
  · have hfollows : Text.Follows numeral gap name :=
      u.follows hname hempty hgap fun hnone h => absurd h (hpoint hnone)
    have htrim : Text.trim (before ++ (numeral ++ (gap ++ name)) ++ after) = numeral ++ (gap ++ name) :=
      Text.trim_append hbefore hafter (hbare.append hne hfollows.bare hempty)
        (List.append_ne_nil_of_left_ne_nil hne _)
    rw [ofText_eq (by rw [String.toList_ofList, htrim]) (longestNumeral_eq hread hfollows), ofDecimal_eq,
      QuantityUnit.ofUnit_eq hname]
    rfl

/-- A text is a quantity just when the longest numeral in front is finite and a unit is left behind it; it
is then so many of the unit. Whatever blanks stand between, a numeral is found in front of every unit,
unless the unit follows at once and starts with a point; no unit does whose currency starts with a
letter. -/
theorem ofText_grammar :
    (∀ (s : String) (q : Quantity Exact), (ofText s : Checked Exact (Quantity Exact)) = .ok q ↔
      ∃ front rest d, ∃ u : QuantityUnit,
        Numeral.Leads (Text.trim s.toList) front rest (.finite d) ∧ u.Spelled (Text.trim rest) ∧
          q = u.quantity (Exact.ofDecimal d).toReal) ∧
    ∀ (before numeral gap name after : List Char) (d : Decimal) (u : QuantityUnit),
      Numeral.Literal numeral (.finite d) → Text.Blank before → Text.Blank gap → Text.Blank after →
      u.Spelled name → (gap = [] → name.head? ≠ some '.') →
      (ofText (String.ofList (before ++ (numeral ++ (gap ++ name)) ++ after)) :
        Checked Exact (Quantity Exact)) = .ok (u.quantity (Exact.ofDecimal d).toReal) :=
  ⟨fun _ _ => ofText_eq_ok_iff, fun _ _ _ _ _ _ _ hnumeral hbefore hgap hafter hname hpoint =>
    ofText_of_literal hnumeral hbefore hgap hafter hname hpoint⟩

/-- The `e` that starts the currency is no exponent. -/
theorem price_in_eEuro :
    Numeral.Literal "1.2e1".toList (.finite ⟨false, 12, 0⟩) ∧
      (QuantityUnit.stated (.per "eEUR".toList ⟨.energy, .mega⟩)).Spelled "eEUR/MWh".toList ∧
      (ofText "1.2e1eEUR/MWh" : Checked Exact (Quantity Exact)) =
        .ok ⟨num (12 / 1000), .energyPrice, some "eEUR"⟩ := by
  have hnumeral : Numeral.Literal "1.2e1".toList (.finite ⟨false, 12, 0⟩) :=
    Numeral.read?_eq_some_iff.mp (by decide +kernel)
  have hcurrency : IsCurrency "eEUR".toList := by decide
  have hname : (QuantityUnit.stated (.per "eEUR".toList ⟨.energy, .mega⟩)).Spelled
      "eEUR/MWh".toList :=
    ⟨hcurrency, [], [], Text.blank_nil, Text.blank_nil, by decide⟩
  have htwelve : (Exact.ofDecimal ⟨false, 12, 0⟩).toReal = 12 := by simp [Exact.ofDecimal]
  have h := ofText_grammar.2 [] _ [] _ [] _ _ hnumeral Text.blank_nil Text.blank_nil Text.blank_nil hname
    fun _ => by decide
  rw [htwelve] at h
  exact ⟨hnumeral, hname, h⟩

end Quantity

end Dispatch

import Dispatch.Proofs.Quantity.Numeral
import Dispatch.Proofs.Request.Units

/-! # Spellings of a quantity

* `BaseUnit`: a watt or a watt hour, or a thousand, a million or a billion of them.
* `StatedUnit`: such a unit, or a currency per such a unit.
* `StatedUnit.factor`: how much one of the unit is in canonical units.
* `Spelling`: a numeral and a unit, with blanks around and between them.
* `Spelling.ofText_text`: what is read of it: the number times the factor of the unit.
* `Spelling.exists_text`: every power, energy or price that can be read is a spelling.
-/

namespace Dispatch
set_option autoImplicit false

open Exact

/-! ## Units -/

inductive Measured where
  | power
  | energy

inductive Size where
  | plain
  | kilo
  | mega
  | giga

structure BaseUnit where
  measured : Measured
  size : Size

namespace BaseUnit

def name : BaseUnit → String
  | ⟨.power, .plain⟩ => "W"
  | ⟨.power, .kilo⟩ => "kW"
  | ⟨.power, .mega⟩ => "MW"
  | ⟨.power, .giga⟩ => "GW"
  | ⟨.energy, .plain⟩ => "Wh"
  | ⟨.energy, .kilo⟩ => "kWh"
  | ⟨.energy, .mega⟩ => "MWh"
  | ⟨.energy, .giga⟩ => "GWh"

/-- The unit in kilowatts or kilowatt hours. -/
noncomputable def kilos (u : BaseUnit) : ℝ :=
  match u.size with
  | .plain => 1 / 1000
  | .kilo => 1
  | .mega => 1000
  | .giga => 1000000

end BaseUnit

inductive StatedUnit where
  | of (unit : BaseUnit)
  | per (currency : List Char) (unit : BaseUnit)

/-- A text that may stand for a currency. -/
structure IsCurrency (cs : List Char) : Prop where
  bare : Text.Bare cs
  nonempty : cs ≠ []
  digits : ∀ c ∈ cs, Decimal.isDigit c = false
  slash : '/' ∉ cs

theorem isCurrency_iff {cs : List Char} : IsCurrency cs ↔
    Text.Bare cs ∧ cs ≠ [] ∧ (cs.all fun c => !Decimal.isDigit c) = true ∧ '/' ∉ cs := by
  have hall : (cs.all fun c => !Decimal.isDigit c) = true ↔ ∀ c ∈ cs, Decimal.isDigit c = false := by
    simp
  rw [hall]
  exact ⟨fun h => ⟨h.bare, h.nonempty, h.digits, h.slash⟩, fun h => ⟨h.1, h.2.1, h.2.2.1, h.2.2.2⟩⟩

instance (cs : List Char) : Decidable (IsCurrency cs) := decidable_of_iff' _ isCurrency_iff

namespace StatedUnit

def dimension : StatedUnit → Dimension
  | of ⟨.power, _⟩ => .power
  | of ⟨.energy, _⟩ => .energy
  | per _ ⟨.power, _⟩ => .powerPrice
  | per _ ⟨.energy, _⟩ => .energyPrice

def currency : StatedUnit → Option String
  | of _ => none
  | per cs _ => some (String.ofList cs)

/-- One of the unit in canonical units. -/
noncomputable def factor : StatedUnit → ℝ
  | of u => u.kilos
  | per _ u => 1 / u.kilos

/-- The texts of the unit; blanks may stand on both sides of the stroke. -/
def Spelled : StatedUnit → List Char → Prop
  | of u, cs => cs = u.name.toList
  | per currency u, cs => IsCurrency currency ∧ ∃ before after, Text.Blank before ∧
      Text.Blank after ∧ cs = currency ++ before ++ '/' :: (after ++ u.name.toList)

end StatedUnit

namespace BaseUnit

theorem kilos_pos (u : BaseUnit) : 0 < u.kilos := by
  obtain ⟨m, s⟩ := u
  cases s <;> norm_num [kilos]

theorem powerFactor?_name (u : BaseUnit) : (powerFactor? u.name : Option Exact) =
    match u.measured with
    | .power => some (num u.kilos)
    | .energy => none := by
  obtain ⟨m, s⟩ := u
  cases m <;> cases s <;> simp [name, kilos, powerFactor?, one_eq]
  norm_num

theorem energyFactor?_name (u : BaseUnit) : (energyFactor? u.name : Option Exact) =
    match u.measured with
    | .power => none
    | .energy => some (num u.kilos) := by
  obtain ⟨m, s⟩ := u
  cases m <;> cases s <;> simp [name, kilos, energyFactor?, one_eq]
  norm_num

/-- No digit, no stroke, no blank and no percent sign is in the name of a unit. -/
theorem name_plain (u : BaseUnit) : u.name.toList ≠ [] ∧ ∀ c ∈ u.name.toList,
    Decimal.isDigit c = false ∧ Text.isBlank c = false ∧ c ≠ '.' ∧ c ≠ '/' ∧ c ≠ '%' := by
  have hplain : (u.name.toList.all fun c =>
      !Decimal.isDigit c && !Text.isBlank c && c != '.' && c != '/' && c != '%') = true := by
    obtain ⟨m, s⟩ := u
    cases m <;> cases s <;> rfl
  refine ⟨by obtain ⟨m, s⟩ := u; cases m <;> cases s <;> exact List.cons_ne_nil _ _, ?_⟩
  simpa [and_assoc] using hplain

theorem name_bare (u : BaseUnit) : Text.Bare u.name.toList where
  head c hc := (u.name_plain.2 c (List.mem_of_mem_head? hc)).2.1
  last c hc := (u.name_plain.2 c (List.mem_of_getLast? hc)).2.1

end BaseUnit

/-! ## Reading a unit -/

/-- Only units have factors. -/
theorem exists_name_of_factor? {name : String} {k : Exact}
    (h : powerFactor? name = some k ∨ energyFactor? name = some k) :
    ∃ u : BaseUnit, u.name = name := by
  rcases h with h | h
  · unfold powerFactor? at h
    split at h
    · exact ⟨⟨.power, .plain⟩, rfl⟩
    · exact ⟨⟨.power, .kilo⟩, rfl⟩
    · exact ⟨⟨.power, .mega⟩, rfl⟩
    · exact ⟨⟨.power, .giga⟩, rfl⟩
    · cases h
  · unfold energyFactor? at h
    split at h
    · exact ⟨⟨.energy, .plain⟩, rfl⟩
    · exact ⟨⟨.energy, .kilo⟩, rfl⟩
    · exact ⟨⟨.energy, .mega⟩, rfl⟩
    · exact ⟨⟨.energy, .giga⟩, rfl⟩
    · cases h

theorem factor?_of_slash {cs : List Char} (h : '/' ∈ cs) :
    (powerFactor? (String.ofList cs) : Option Exact) = none ∧
      (energyFactor? (String.ofList cs) : Option Exact) = none := by
  have hnone (k : Exact) : ¬(powerFactor? (String.ofList cs) = some k ∨
      energyFactor? (String.ofList cs) = some k) := by
    intro hk
    obtain ⟨u, hu⟩ := exists_name_of_factor? hk
    refine (u.name_plain.2 '/' ?_).2.2.2.1 rfl
    rwa [hu, String.toList_ofList]
  exact ⟨Option.eq_none_iff_forall_ne_some.mpr fun k hk => hnone k (.inl hk),
    Option.eq_none_iff_forall_ne_some.mpr fun k hk => hnone k (.inr hk)⟩

theorem splitSlash?_append {front rest : List Char} (h : '/' ∉ front) :
    splitSlash? (front ++ '/' :: rest) = some (front, rest) := by
  have hfront : ∀ c ∈ front, (c != '/') = true := by
    intro c hc
    exact bne_iff_ne.mpr fun heq => h (heq ▸ hc)
  rw [splitSlash?, List.dropWhile_append_of_pos hfront, List.takeWhile_append_of_pos hfront]
  simp

theorem ofUnit_baseUnit (u : BaseUnit) (v : ℝ) :
    (Quantity.ofUnit (num v) u.name.toList : Except TextFault (Quantity Exact)) =
      .ok ⟨num (v * u.kilos), (StatedUnit.of u).dimension, none⟩ := by
  obtain ⟨hne, hplain⟩ := u.name_plain
  have hpercent : u.name ≠ "%" := by
    intro heq
    exact (hplain '%' (by rw [heq]; decide)).2.2.2.2 rfl
  rw [Quantity.ofUnit, String.ofList_toList, List.isEmpty_eq_false_iff.mpr hne,
    if_neg Bool.false_ne_true, if_neg hpercent, u.powerFactor?_name, u.energyFactor?_name, ← num_mul]
  obtain ⟨m, s⟩ := u
  cases m <;> rfl

theorem price_eq {currency before after : List Char} (hcurrency : IsCurrency currency)
    (hbefore : Text.Blank before) (hafter : Text.Blank after) (u : BaseUnit) (v : ℝ) :
    (Quantity.price (num v) (currency ++ before) (after ++ u.name.toList) :
        Except TextFault (Quantity Exact)) =
      .ok ⟨num (v * (1 / u.kilos)), (StatedUnit.per currency u).dimension,
        some (String.ofList currency)⟩ := by
  obtain ⟨hne, hplain⟩ := u.name_plain
  have hcurrency' : Text.trim (currency ++ before) = currency :=
    Text.trim_append Text.blank_nil hbefore hcurrency.bare hcurrency.nonempty
  have hper : Text.trim (after ++ u.name.toList) = u.name.toList := by
    rw [← List.append_nil (after ++ _)]
    exact Text.trim_append hafter Text.blank_nil u.name_bare hne
  have hstated : ¬(currency.isEmpty || currency.any Decimal.isDigit) = true := by
    rw [List.isEmpty_eq_false_iff.mpr hcurrency.nonempty, List.any_eq_false.mpr fun c hc => by
      rw [hcurrency.digits c hc]; exact Bool.false_ne_true]
    exact Bool.false_ne_true
  have hvalue : num v / num u.kilos = num (v * (1 / u.kilos)) := by
    rw [num_div v u.kilos_pos.ne', mul_one_div]
  simp only [Quantity.price, hcurrency', hper, String.ofList_toList, if_neg hstated,
    u.powerFactor?_name, u.energyFactor?_name, ← hvalue]
  obtain ⟨m, s⟩ := u
  cases m <;> rfl

theorem StatedUnit.ofUnit_eq {u : StatedUnit} {cs : List Char} (h : u.Spelled cs) (v : ℝ) :
    (Quantity.ofUnit (num v) cs : Except TextFault (Quantity Exact)) =
      .ok ⟨num (v * u.factor), u.dimension, u.currency⟩ := by
  cases u with
  | of u =>
    obtain rfl := h
    exact ofUnit_baseUnit u v
  | per currency u =>
    obtain ⟨hcurrency, before, after, hbefore, hafter, rfl⟩ := h
    have hslash : '/' ∈ currency ++ before ++ '/' :: (after ++ u.name.toList) :=
      List.mem_append_right _ List.mem_cons_self
    have hfront : '/' ∉ currency ++ before := by
      refine List.not_mem_append hcurrency.slash fun hmem => ?_
      exact absurd (hbefore '/' hmem) (by decide)
    have hpercent : String.ofList (currency ++ before ++ '/' :: (after ++ u.name.toList)) ≠ "%" := by
      intro heq
      rw [← String.toList_inj, String.toList_ofList] at heq
      rw [heq] at hslash
      exact absurd hslash (by decide)
    rw [Quantity.ofUnit, if_neg (by simp), if_neg hpercent, (factor?_of_slash hslash).1,
      (factor?_of_slash hslash).2, splitSlash?_append hfront]
    exact price_eq hcurrency hbefore hafter u v

/-! ## Spellings -/

theorem StatedUnit.follows {u : StatedUnit} {cs numeral gap : List Char} (h : u.Spelled cs)
    (hgap : Text.Blank gap)
    (hpoint : gap = [] → cs.head? = some '.' → Numeral.read? (numeral ++ ['.']) = none) :
    Text.Follows numeral gap cs := by
  cases u with
  | of u =>
    obtain rfl := h
    exact ⟨hgap, u.name_bare, u.name_plain.1, fun c hc => (u.name_plain.2 c hc).1, hpoint⟩
  | per currency u =>
    obtain ⟨hcurrency, before, after, hbefore, hafter, rfl⟩ := h
    refine ⟨hgap, ?_, by simp, ?_, hpoint⟩
    · have hsplit : currency ++ before ++ '/' :: (after ++ u.name.toList) =
          currency ++ ((before ++ '/' :: after) ++ u.name.toList) := by simp
      rw [hsplit]
      exact hcurrency.bare.append hcurrency.nonempty u.name_bare u.name_plain.1
    · have hblank {cs : List Char} (hcs : Text.Blank cs) : ∀ c ∈ cs, Decimal.isDigit c = false :=
        fun c hc => Numeral.isDigit_of_isBlank (hcs c hc)
      exact List.forall_mem_append.mpr ⟨List.forall_mem_append.mpr ⟨hcurrency.digits, hblank hbefore⟩,
        List.forall_mem_cons.mpr ⟨rfl, List.forall_mem_append.mpr ⟨hblank hafter,
          fun c hc => (u.name_plain.2 c hc).1⟩⟩⟩

/-- A numeral and a unit with blanks around and between them. -/
structure Spelling where
  before : List Char
  numeral : List Char
  gap : List Char
  name : List Char
  after : List Char
  number : Decimal
  unit : StatedUnit
  reads : Numeral.read? numeral = some (.finite number)
  spelled : unit.Spelled name
  blank : Text.Blank before ∧ Text.Blank gap ∧ Text.Blank after
  /-- A point right behind the numeral is not read as a part of it. -/
  point : gap = [] → name.head? = some '.' → Numeral.read? (numeral ++ ['.']) = none

namespace Spelling

def text (x : Spelling) : String :=
  String.ofList (x.before ++ (x.numeral ++ (x.gap ++ x.name)) ++ x.after)

/-- The number in canonical units. -/
noncomputable def magnitude (x : Spelling) : ℝ :=
  (Exact.ofDecimal x.number).toReal * x.unit.factor

/-- A spelling is read as what it says. -/
theorem ofText_text (x : Spelling) :
    (Quantity.ofText x.text : Checked Exact (Quantity Exact)) =
      .ok ⟨num x.magnitude, x.unit.dimension, x.unit.currency⟩ := by
  obtain ⟨hbefore, hgap, hafter⟩ := x.blank
  obtain ⟨hbare, hne⟩ := Numeral.bare_of_read? x.reads
  have hfollows := x.unit.follows x.spelled hgap x.point
  have htrim : Text.trim x.text.toList = x.numeral ++ (x.gap ++ x.name) := by
    rw [text, String.toList_ofList]
    exact Text.trim_append hbefore hafter (hbare.append hne hfollows.bare hfollows.nonempty)
      (List.append_ne_nil_of_left_ne_nil hne _)
  have hnumber : (Scalar.ofDecimal x.number : Exact) = num (Exact.ofDecimal x.number).toReal :=
    (num_toReal rfl).symm
  rw [Quantity.ofText_eq htrim (longestNumeral_eq x.reads hfollows), hnumber,
    StatedUnit.ofUnit_eq x.spelled]
  rfl

end Spelling

/-! ## Every power, energy or price is a spelling -/

theorem splitSlash?_eq_some {cs front rest : List Char} (h : splitSlash? cs = some (front, rest)) :
    cs = front ++ '/' :: rest ∧ '/' ∉ front := by
  unfold splitSlash? at h
  split at h
  case h_1 => cases h
  case h_2 c per hdrop =>
    obtain ⟨rfl, rfl⟩ := Prod.mk.inj (Option.some.inj h)
    have hslash : c = '/' := by
      have hnot := List.head?_dropWhile_not (· != '/') cs
      rw [hdrop] at hnot
      simpa using hnot
    refine ⟨?_, fun hmem => absurd (List.mem_takeWhile_imp hmem) (by simp)⟩
    subst hslash
    rw [← hdrop, List.takeWhile_append_dropWhile]

theorem exists_price {v : Exact} {currency per : List Char} {q : Quantity Exact}
    (hbare : Text.Bare (currency ++ '/' :: per)) (hslash : '/' ∉ currency)
    (h : Quantity.price v currency per = .ok q) :
    ∃ u : StatedUnit, u.Spelled (currency ++ '/' :: per) := by
  obtain ⟨before, after, hcurrency, hbefore, hafter⟩ := Text.trim_split currency
  obtain ⟨before', after', hper, hbefore', hafter'⟩ := Text.trim_split per
  unfold Quantity.price at h
  dsimp only at h
  split_ifs at h with hstated
  obtain ⟨u, hu⟩ : ∃ u : BaseUnit, u.name = String.ofList (Text.trim per) := by
    split at h
    case h_1 k hk => exact exists_name_of_factor? (.inr hk)
    case h_2 =>
      split at h
      case h_1 k hk => exact exists_name_of_factor? (.inl hk)
      case h_2 => cases h
  have hname : u.name.toList = Text.trim per := by rw [hu, String.toList_ofList]
  have hwhole : currency ++ '/' :: per =
      before ++ (Text.trim currency ++ after ++ '/' :: (before' ++ u.name.toList)) ++ after' := by
    conv_lhs => rw [hcurrency, hper]
    simp [hname]
  rw [hwhole] at hbare ⊢
  obtain ⟨rfl, rfl⟩ := hbare.nil_of_blank hbefore hafter'
  simp only [Bool.or_eq_true, List.isEmpty_iff, List.any_eq_true, not_or, not_exists, not_and,
    Bool.not_eq_true] at hstated
  have hcurrency' : IsCurrency (Text.trim currency) := by
    refine ⟨Text.bare_trim _, hstated.1, hstated.2, fun hmem => hslash ?_⟩
    rw [hcurrency]
    exact List.mem_append_left _ (List.mem_append_right _ hmem)
  exact ⟨.per _ u, hcurrency', after, before', hafter, hbefore', by simp⟩

theorem StatedUnit.exists_spelled_of_ne {v : Exact} {cs : List Char} {q : Quantity Exact}
    (hbare : Text.Bare cs) (hne : cs ≠ []) (hpercent : String.ofList cs ≠ "%")
    (h : Quantity.ofUnit v cs = .ok q) : ∃ u : StatedUnit, u.Spelled cs := by
  have hname {u : BaseUnit} (hu : u.name = String.ofList cs) : (StatedUnit.of u).Spelled cs := by
    rw [Spelled, hu, String.toList_ofList]
  rw [Quantity.ofUnit, List.isEmpty_eq_false_iff.mpr hne, if_neg Bool.false_ne_true,
    if_neg hpercent] at h
  split at h
  case h_1 k hk =>
    obtain ⟨u, hu⟩ := exists_name_of_factor? (.inl hk)
    exact ⟨_, hname hu⟩
  case h_2 =>
    split at h
    case h_1 k hk =>
      obtain ⟨u, hu⟩ := exists_name_of_factor? (.inr hk)
      exact ⟨_, hname hu⟩
    case h_2 =>
      split at h
      case h_1 currency per hsplit =>
        obtain ⟨rfl, hslash⟩ := splitSlash?_eq_some hsplit
        exact exists_price hbare hslash h
      case h_2 => cases h

theorem StatedUnit.exists_spelled {v : Exact} {cs : List Char} {q : Quantity Exact}
    (hbare : Text.Bare cs) (h : Quantity.ofUnit v cs = .ok q)
    (hdim : q.dimension ≠ .dimensionless ∧ q.dimension ≠ .ratio) : ∃ u : StatedUnit, u.Spelled cs := by
  have hne : cs ≠ [] := by
    rintro rfl
    cases h
    exact absurd rfl hdim.1
  have hpercent : String.ofList cs ≠ "%" := by
    intro hname
    rw [Quantity.ofUnit, List.isEmpty_eq_false_iff.mpr hne, if_neg Bool.false_ne_true,
      if_pos hname] at h
    cases h
    exact absurd rfl hdim.2
  exact exists_spelled_of_ne hbare hne hpercent h

theorem Quantity.number_of_ofText {s : String} {q : Quantity Exact}
    (h : (Quantity.ofText s : Checked Exact (Quantity Exact)) = .ok q) :
    ∃ d unit, longestNumeral (Text.trim s.toList).length (Text.trim s.toList) =
        some (.finite d, unit) ∧ Quantity.ofUnit (Scalar.ofDecimal d : Exact) unit = .ok q := by
  have hread := Checked.mapError_eq_ok.mp h
  split at hread
  case h_1 => cases hread
  case h_2 value unit hsplit =>
    unfold splitNumber? at hsplit
    split at hsplit
    case h_1 d unit' hlongest =>
      dsimp only at hsplit
      split_ifs at hsplit
      cases hsplit
      exact ⟨d, unit, hlongest, hread⟩
    case h_2 => cases hsplit

/-- Whatever is read as a power, an energy or a price is a numeral and a unit. -/
theorem Spelling.exists_text {s : String} {q : Quantity Exact}
    (h : (Quantity.ofText s : Checked Exact (Quantity Exact)) = .ok q)
    (hdim : q.dimension ≠ .dimensionless ∧ q.dimension ≠ .ratio) : ∃ x : Spelling, x.text = s := by
  obtain ⟨d, unit, hlongest, hunit⟩ := Quantity.number_of_ofText h
  obtain ⟨k, hk, hread, rfl, hmax⟩ := longestNumeral_split hlongest
  obtain ⟨before, after, hs, hbefore, hafter⟩ := Text.trim_split s.toList
  generalize Text.trim s.toList = cs at *
  obtain ⟨u, hu⟩ := StatedUnit.exists_spelled (Text.bare_trim _) hunit hdim
  obtain ⟨before', gap, hfront, hbefore', hgap⟩ := Text.trim_split (cs.take k)
  obtain ⟨gap', after', hback, hgap', hafter'⟩ := Text.trim_split (cs.drop k)
  have hblank {xs ys : List Char} (hxs : Text.Blank xs) (hys : Text.Blank ys) : Text.Blank (xs ++ ys) :=
    List.forall_mem_append.mpr ⟨hxs, hys⟩
  refine ⟨⟨before ++ before', _, gap ++ gap', _, after' ++ after, d, u, hread, hu,
    ⟨hblank hbefore hbefore', hblank hgap hgap', hblank hafter' hafter⟩, fun hnone hpoint => ?_⟩, ?_⟩
  · -- the front part that ends with the point is longer, so it is no numeral
    obtain ⟨rfl, rfl⟩ := List.append_eq_nil_iff.mp hnone
    obtain ⟨rest, hrest⟩ : ∃ rest, cs.drop k = '.' :: rest := by
      obtain ⟨unit, hunit⟩ := List.head?_eq_some_iff.mp hpoint
      exact ⟨unit ++ after', by rw [hback, hunit]; rfl⟩
    have hlt : k < cs.length := by
      by_contra hle
      rw [List.drop_of_length_le (Nat.not_lt.mp hle)] at hrest
      cases hrest
    have htake : cs.take (k + 1) = before' ++ (Text.trim (cs.take k) ++ ['.']) ++ [] := by
      rw [List.take_add_one, ← List.head?_drop, hrest]
      conv_lhs => rw [hfront]
      simp
    obtain ⟨hbare, hne⟩ := Numeral.bare_of_read? hread
    have hpointed : Text.Bare (Text.trim (cs.take k) ++ ['.']) :=
      @Text.Bare.append _ _ [] hbare hne (Text.bare_singleton rfl) (List.cons_ne_nil _ _)
    have hlonger := hmax (k + 1) (Nat.lt_succ_self k) hlt
    rwa [htake, Text.trim_append hbefore' Text.blank_nil hpointed
      (List.append_ne_nil_of_left_ne_nil hne _)] at hlonger
  · rw [← String.toList_inj, text, String.toList_ofList, hs]
    conv_rhs => rw [← List.take_append_drop k cs, hfront, hback]
    simp

end Dispatch

import Dispatch.Proofs.Quantity.Spelling

/-! # Numbers and a unit that is stated once

* `Quantity.ofText_spaced`: a numeral, a blank and a unit are read as that number of the unit, whatever
  the unit is.
* `Quantity.ofUnit_scaled`: so many of a unit are so many times one of it.
* `Amount.InUnit`: a number and the unit of its series, as an amount of its own.
-/

namespace Dispatch
set_option autoImplicit false

open Exact

/-! ## Blanks behind a text -/

namespace Text
variable {cs tail : List Char}

/-- Where a text ends without a blank, only blanks of what follows it are cut off. -/
theorem trimEnd_append_right (hlast : ∀ c ∈ cs.getLast?, isBlank c = false) (tail : List Char) :
    trimEnd (cs ++ tail) = cs ++ trimEnd tail := by
  obtain ⟨blanks, htail, hblank⟩ := trimEnd_split tail
  by_cases hnone : trimEnd tail = []
  · rw [hnone, List.nil_append] at htail
    rw [hnone, List.append_nil, htail, trimEnd_append hblank hlast]
  · have hend : ∀ c ∈ (cs ++ trimEnd tail).getLast?, isBlank c = false := by
      intro c hc
      rw [List.getLast?_append, List.getLast?_eq_some_getLast hnone, Option.some_or] at hc
      exact last_trimEnd tail c (List.getLast?_eq_some_getLast hnone ▸ hc)
    conv_lhs => rw [htail, ← List.append_assoc]
    exact trimEnd_append hblank hend

theorem trim_append_right (hcs : Bare cs) (hne : cs ≠ []) (tail : List Char) :
    trim (cs ++ tail) = cs ++ trimEnd tail := by
  obtain ⟨c, rest, rfl⟩ := List.exists_cons_of_ne_nil hne
  rw [trim, List.cons_append, trimStart_of_head (hcs.head c rfl), ← List.cons_append,
    trimEnd_append_right hcs.last]

theorem trim_blank_append {blanks : List Char} (hblanks : Blank blanks) (cs : List Char) :
    trim (blanks ++ cs) = trim cs := by
  rw [trim, trimStart, List.dropWhile_append_of_pos hblanks]
  rfl

theorem trim_trimEnd (cs : List Char) : trim (trimEnd cs) = trim cs := by
  obtain ⟨blanks, hcs, hblanks⟩ := trimEnd_split cs
  obtain ⟨before, after, hinner, hbefore, hafter⟩ := trim_split (trimEnd cs)
  by_cases hnone : trim (trimEnd cs) = []
  · rw [hnone, List.append_nil] at hinner
    have hall : Blank cs := by
      rw [hcs, hinner]
      exact List.forall_mem_append.mpr ⟨List.forall_mem_append.mpr ⟨hbefore, hafter⟩, hblanks⟩
    rw [hnone, ← List.append_nil cs, trim_blank_append hall, trim_nil]
  · conv_rhs => rw [hcs, hinner, List.append_assoc]
    exact (trim_append hbefore (List.forall_mem_append.mpr ⟨hafter, hblanks⟩) (bare_trim _) hnone).symm

end Text

/-! ## A numeral and a blank -/

/-- No numeral has a blank in it. -/
theorem Numeral.read?_eq_none_of_blank {cs : List Char} (h : ' ' ∈ cs) : read? cs = none := by
  rw [Option.eq_none_iff_forall_ne_some]
  exact fun v hv => absurd (isBlank_of_read? hv ' ' h) (by decide)

/-- What a blank parts from a numeral is not read as a part of the number. The induction is on the front
part that is tried. -/
theorem longestNumeral_spaced {numeral tail : List Char} {d : Decimal}
    (hread : Numeral.read? numeral = some (.finite d)) (htail : ∀ c ∈ tail.head?, c = ' ') {n : ℕ}
    (hn : numeral.length ≤ n) :
    longestNumeral n (numeral ++ tail) = some (.finite d, Text.trim tail) := by
  obtain ⟨hbare, hne⟩ := Numeral.bare_of_read? hread
  have hpos : 0 < numeral.length := List.length_pos_iff.mpr hne
  induction n with
  | zero => omega
  | succ n ih =>
    have htake : (numeral ++ tail).take (n + 1) = numeral ++ tail.take (n + 1 - numeral.length) := by
      rw [List.take_append, List.take_of_length_le hn]
    have hdrop : (numeral ++ tail).drop (n + 1) = tail.drop (n + 1 - numeral.length) := by
      rw [List.drop_append, List.drop_of_length_le hn, List.nil_append]
    obtain ⟨blanks, hfront, hblanks⟩ := Text.trimEnd_split (tail.take (n + 1 - numeral.length))
    rw [longestNumeral, htake, hdrop, Text.trim_append_right hbare hne]
    by_cases hnone : Text.trimEnd (tail.take (n + 1 - numeral.length)) = []
    · rw [hnone, List.nil_append] at hfront
      rw [hnone, List.append_nil, hread]
      conv_rhs => rw [← List.take_append_drop (n + 1 - numeral.length) tail, hfront,
        Text.trim_blank_append hblanks]
    · have hspace : ' ' ∈ Text.trimEnd (tail.take (n + 1 - numeral.length)) := by
        obtain ⟨c, rest, hc⟩ := List.exists_cons_of_ne_nil hnone
        have hhead : tail.head? = some c := by
          rw [← List.take_append_drop (n + 1 - numeral.length) tail, hfront, hc]
          rfl
        rw [hc, htail c hhead]
        exact List.mem_cons_self
      rw [Numeral.read?_eq_none_of_blank (List.mem_append_right _ hspace)]
      refine ih ?_
      by_contra hshort
      have hzero : n + 1 - numeral.length = 0 := by omega
      rw [hzero, List.take_zero] at hnone
      exact hnone rfl

namespace Quantity

/-- Whatever unit follows a numeral and a blank, it is that number of the unit. -/
theorem ofText_spaced {numeral : List Char} {d : Decimal}
    (hread : Numeral.read? numeral = some (.finite d)) (unit : String) :
    ∃ text, (ofText (String.ofList numeral ++ " " ++ unit) : Checked Exact (Quantity Exact)) =
      (ofUnit (num (Exact.ofDecimal d).toReal) (Text.trim unit.toList)).mapError (Fault.text text) := by
  obtain ⟨hbare, hne⟩ := Numeral.bare_of_read? hread
  have htrim : Text.trim (String.ofList numeral ++ " " ++ unit).toList =
      numeral ++ Text.trimEnd (' ' :: unit.toList) := by
    rw [String.toList_append, String.toList_append, String.toList_ofList, List.append_assoc]
    exact Text.trim_append_right hbare hne _
  have hhead : ∀ c ∈ (Text.trimEnd (' ' :: unit.toList)).head?, c = ' ' := by
    intro c hc
    obtain ⟨blanks, htail, -⟩ := Text.trimEnd_split (' ' :: unit.toList)
    obtain ⟨rest, hrest⟩ := List.head?_eq_some_iff.mp hc
    rw [hrest] at htail
    exact (List.cons.inj htail).1.symm
  have hsplit := longestNumeral_spaced hread hhead
    (n := (numeral ++ Text.trimEnd (' ' :: unit.toList)).length) (by simp)
  have hblank : Text.Blank [' '] := List.forall_mem_singleton.mpr rfl
  rw [Text.trim_trimEnd, show ' ' :: unit.toList = [' '] ++ unit.toList from rfl,
    Text.trim_blank_append hblank] at hsplit
  have hnumber : (Scalar.ofDecimal d : Exact) = num (Exact.ofDecimal d).toReal := (num_toReal rfl).symm
  exact ⟨_, by rw [ofText_eq htrim hsplit, hnumber]⟩

/-- One of the unit, as the reader of samples asks for it. -/
theorem ofUnit_of_one {unit : String} {one : Quantity Exact}
    (h : (ofText ("1 " ++ unit) : Checked Exact (Quantity Exact)) = .ok one) :
    ofUnit (num 1) (Text.trim unit.toList) = .ok one := by
  have hread : Numeral.read? ['1'] = some (.finite ⟨false, 1, 0⟩) := by decide +kernel
  obtain ⟨text, htext⟩ := ofText_spaced hread unit
  have hone : (Exact.ofDecimal ⟨false, 1, 0⟩).toReal = 1 := by simp [Exact.ofDecimal]
  rw [hone] at htext
  exact Checked.mapError_eq_ok.mp (htext.symm.trans h)

/-- So many of a unit are so many times one of it. -/
theorem ofUnit_scaled {cs : List Char} (hbare : Text.Bare cs) {one : Quantity Exact}
    (hone : ofUnit (num 1) cs = .ok one) (v : ℝ) :
    ofUnit (num v) cs = .ok ⟨num v * one.value, one.dimension, one.currency⟩ := by
  by_cases hne : cs = []
  · subst hne
    obtain rfl : number (num 1) = one := Except.ok.inj hone
    simp [ofUnit, number]
  · by_cases hpercent : String.ofList cs = "%"
    · rw [ofUnit, List.isEmpty_eq_false_iff.mpr hne, if_neg Bool.false_ne_true, if_pos hpercent] at hone ⊢
      obtain rfl := Except.ok.inj hone
      have hhundred : (Scalar.ofNat 100 : Exact) = num (100 : ℕ) := ofNat_eq 100
      simp only [hhundred]
      rw [num_div _ (by norm_num), num_div _ (by norm_num), num_mul, mul_one_div]
    · obtain ⟨u, hu⟩ := StatedUnit.exists_spelled_of_ne hbare hne hpercent hone
      rw [StatedUnit.ofUnit_eq hu, one_mul] at hone
      obtain rfl := Except.ok.inj hone
      rw [StatedUnit.ofUnit_eq hu, num_mul]

end Quantity

/-! ## Samples restated -/

/-- A sample in the unit of its series, as an amount of its own: bare, or as a numeral and the unit. -/
inductive Amount.InUnit : Option String → Exact → Amount Exact → Prop where
  | bare (v : Exact) : InUnit none v (.number v)
  | spaced {numeral : List Char} {d : Decimal} (hread : Numeral.read? numeral = some (.finite d))
      (unit : String) :
      InUnit (some unit) (Exact.ofDecimal d) (.text (String.ofList numeral ++ " " ++ unit))

end Dispatch

import Dispatch.Quantity.Reader
import Dispatch.Proofs.Quantity.Literal

/-! # The number in front of a unit

* `Numeral.Stops`: what cannot continue a numeral.
* `Numeral.read?_append`: a numeral that such a text follows is no numeral.
* `longestNumeral_eq`: the number in front of a unit is the numeral that stands there.
* `longestNumeral_split`: the other way round, how a text is cut into a numeral and the rest.
-/

namespace Dispatch
set_option autoImplicit false

/-! ## Blanks -/

def Text.Blank (cs : List Char) : Prop := ∀ c ∈ cs, isBlank c = true

theorem Text.blank_nil : Blank [] := fun _ hc => nomatch hc

/-- No blank at either end. -/
structure Text.Bare (cs : List Char) : Prop where
  head : ∀ c ∈ cs.head?, isBlank c = false
  last : ∀ c ∈ cs.getLast?, isBlank c = false

theorem Text.bare_iff {cs : List Char} : Bare cs ↔
    (cs.head?.all fun c => !isBlank c) = true ∧ (cs.getLast?.all fun c => !isBlank c) = true := by
  have hall (o : Option Char) : (o.all fun c => !isBlank c) = true ↔ ∀ c ∈ o, isBlank c = false := by
    cases o <;> simp
  rw [hall, hall]
  exact ⟨fun h => ⟨h.head, h.last⟩, fun h => ⟨h.1, h.2⟩⟩

instance (cs : List Char) : Decidable (Text.Bare cs) := decidable_of_iff' _ Text.bare_iff

theorem Text.bare_singleton {c : Char} (h : isBlank c = false) : Bare [c] :=
  ⟨fun _ hc => Option.some.inj hc ▸ h, fun _ hc => Option.some.inj hc ▸ h⟩

namespace Text
variable {before after cs : List Char}

theorem trimStart_append (hbefore : Blank before) (hhead : ∀ c ∈ cs.head?, isBlank c = false) :
    trimStart (before ++ cs) = cs := by
  rw [trimStart, List.dropWhile_append_of_pos hbefore]
  cases cs with
  | nil => rfl
  | cons c cs => exact trimStart_of_head (hhead c rfl)

theorem trimEnd_append (hafter : Blank after) (hlast : ∀ c ∈ cs.getLast?, isBlank c = false) :
    trimEnd (cs ++ after) = cs := by
  have hreverse : trimStart (after.reverse ++ cs.reverse) = cs.reverse :=
    trimStart_append (fun c hc => hafter c (List.mem_reverse.mp hc)) (by rwa [List.head?_reverse])
  rw [trimEnd, List.reverse_append]
  exact (congrArg List.reverse hreverse).trans (List.reverse_reverse cs)

theorem Bare.append {mid : List Char} (hbefore : Bare before) (hne : before ≠ []) (hafter : Bare after)
    (hne' : after ≠ []) : Bare (before ++ (mid ++ after)) where
  head := by
    obtain ⟨c, before, rfl⟩ := List.exists_cons_of_ne_nil hne
    exact hbefore.head
  last := by
    have hlast : (before ++ (mid ++ after)).getLast? = after.getLast? := by
      simp [List.getLast?_append, List.getLast?_eq_some_getLast hne']
    rw [hlast]
    exact hafter.last

theorem trim_append (hbefore : Blank before) (hafter : Blank after) (hcs : Bare cs) (hne : cs ≠ []) :
    trim (before ++ cs ++ after) = cs := by
  have hhead : ∀ c ∈ (cs ++ after).head?, isBlank c = false := by
    obtain ⟨c, cs, rfl⟩ := List.exists_cons_of_ne_nil hne
    exact hcs.head
  rw [trim, List.append_assoc, trimStart_append hbefore hhead, trimEnd_append hafter hcs.last]

theorem trimEnd_split (cs : List Char) : ∃ blanks, cs = trimEnd cs ++ blanks ∧ Blank blanks := by
  refine ⟨(cs.reverse.takeWhile isBlank).reverse, ?_,
    fun c hc => List.mem_takeWhile_imp (List.mem_reverse.mp hc)⟩
  rw [trimEnd, ← List.reverse_append, List.takeWhile_append_dropWhile, List.reverse_reverse]

theorem last_trimEnd (cs : List Char) : ∀ c ∈ (trimEnd cs).getLast?, isBlank c = false := by
  intro c hc
  rw [trimEnd, List.getLast?_reverse] at hc
  have hnot := List.head?_dropWhile_not isBlank cs.reverse
  rw [Option.mem_def.mp hc] at hnot
  exact hnot

theorem bare_trimEnd (hne : cs ≠ []) (hhead : ∀ c ∈ cs.head?, isBlank c = false) :
    Bare (trimEnd cs) ∧ trimEnd cs ≠ [] := by
  obtain ⟨blanks, hcs, hblank⟩ := trimEnd_split cs
  have hfront : trimEnd cs ≠ [] := by
    intro hempty
    obtain ⟨c, rest, rfl⟩ := List.exists_cons_of_ne_nil hne
    rw [hempty, List.nil_append] at hcs
    have hc := hblank c (hcs ▸ List.mem_cons_self)
    rw [hhead c rfl] at hc
    cases hc
  have hfirst : (trimEnd cs).head? = cs.head? := by
    conv_rhs => rw [hcs]
    obtain ⟨c, rest, hrest⟩ := List.exists_cons_of_ne_nil hfront
    rw [hrest]
    rfl
  exact ⟨⟨hfirst ▸ hhead, last_trimEnd cs⟩, hfront⟩

theorem trim_split (cs : List Char) :
    ∃ before after, cs = before ++ trim cs ++ after ∧ Blank before ∧ Blank after := by
  obtain ⟨after, hcs, hafter⟩ := trimEnd_split (trimStart cs)
  refine ⟨cs.takeWhile isBlank, after, ?_, fun c hc => List.mem_takeWhile_imp hc, hafter⟩
  rw [List.append_assoc, trim, ← hcs, trimStart, List.takeWhile_append_dropWhile]

theorem bare_trim (cs : List Char) : Bare (trim cs) := by
  by_cases hempty : trimStart cs = []
  · rw [trim, hempty]
    exact ⟨nofun, nofun⟩
  · refine (bare_trimEnd hempty fun c hc => ?_).1
    have hnot := List.head?_dropWhile_not isBlank cs
    rw [← trimStart, Option.mem_def.mp hc] at hnot
    exact hnot

/-- A text without blanks at its ends starts and ends with no blanks. -/
theorem Bare.nil_of_blank (h : Bare (before ++ cs ++ after)) (hbefore : Blank before)
    (hafter : Blank after) : before = [] ∧ after = [] := by
  constructor
  · cases hb : before with
    | nil => rfl
    | cons b rest =>
      have hblank := hbefore b (hb ▸ List.mem_cons_self)
      rw [h.head b (by rw [hb]; rfl)] at hblank
      cases hblank
  · by_contra hne
    have hblank := hafter _ (List.getLast_mem hne)
    rw [h.last _ (by rw [List.getLast?_append, List.getLast?_eq_some_getLast hne]; rfl)] at hblank
    cases hblank

end Text

/-! ## What continues a numeral -/

namespace Numeral
variable {cs tail : List Char} {negative : Bool}

/-- What may stand behind a numeral without being read as a part of it: no digit is in it, and it is
not a point alone. -/
structure Stops (tail : List Char) : Prop where
  nonempty : tail ≠ []
  digits : ∀ c ∈ tail, Decimal.isDigit c = false
  point : tail ≠ ['.']

theorem unsigned?_append (h : Stops tail) : unsigned? negative (cs ++ tail) = none := by
  rw [Option.eq_none_iff_forall_ne_some]
  intro d hd
  obtain ⟨digits, exponent, front, back, e, hsplit, hdigits, hexponent, -⟩ :=
    unsigned?_eq_some_iff.mp hd
  rcases hexponent.ends with rfl | ⟨c, hc, hdigit⟩
  · -- the tail is at the end of the digits, so it can only be their point
    rw [List.append_nil] at hsplit
    subst hsplit
    have hpoints : ∀ c ∈ tail, '.' = c := fun c hc =>
      ((hdigits.chars c (List.mem_append_right _ hc)).resolve_left (by rw [h.digits c hc]; simp)).symm
    have hcount := hdigits.count_point
    rw [List.count_append, List.count_eq_length.mpr hpoints] at hcount
    obtain ⟨c, rest, rfl⟩ := List.exists_cons_of_ne_nil h.nonempty
    obtain rfl : rest = [] := List.eq_nil_of_length_eq_zero (by rw [List.length_cons] at hcount; omega)
    exact absurd (congrArg (· :: []) (hpoints c List.mem_cons_self).symm) h.point
  · have hlast : (cs ++ tail).getLast? = some c := by
      rw [hsplit, List.getLast?_append, Option.mem_def.mp hc, Option.some_or]
    rw [List.getLast?_append, List.getLast?_eq_some_getLast h.nonempty, Option.some_or] at hlast
    obtain rfl := Option.some.inj hlast
    rw [h.digits _ (List.getLast_mem h.nonempty)] at hdigit
    cases hdigit

/-- A numeral that something else follows is no numeral. -/
theorem read?_append {d : Decimal} (h : read? cs = some (.finite d)) (htail : Stops tail) :
    read? (cs ++ tail) = none := by
  obtain ⟨sign, digits, exponent, front, back, negative, rfl, hsign, hdigits⟩ : ∃ sign digits exponent
      front back negative, cs = sign ++ (digits ++ exponent) ∧ Signed sign negative ∧
        Positional digits front back := by
    cases read?_eq_some_iff.mp h with
    | finite hsign hdigits _ => exact ⟨_, _, _, _, _, _, rfl, hsign, hdigits⟩
  obtain ⟨c, rest, rfl, hlead⟩ := hdigits.exists_cons
  rw [read?, List.append_assoc, List.cons_append, List.cons_append,
    spanSign_of_signed hsign (ne_sign_of_lead hlead)]
  dsimp only
  rw [← List.cons_append, unsigned?_append htail]
  have hlower : c.toLower = c := by
    rcases hlead with hdigit | rfl
    · exact toLower_of_isDigit hdigit
    · rfl
  have hword {w : String} {c' : Char} {letters : List Char} (hw : w.toList = c' :: letters)
      (hdigit : Decimal.isDigit c' = false) (hpoint : c' ≠ '.') :
      String.ofList ((c :: (rest ++ exponent) ++ tail).map Char.toLower) ≠ w := by
    rintro rfl
    rw [String.toList_ofList, List.cons_append, List.map_cons, hlower] at hw
    obtain rfl := (List.cons.inj hw).1
    rcases hlead with h | h
    · rw [hdigit] at h
      cases h
    · exact hpoint h
  have hinf : _ ≠ "inf" := hword rfl rfl (by decide)
  have hinfinity : _ ≠ "infinity" := hword rfl rfl (by decide)
  have hnan : _ ≠ "nan" := hword rfl rfl (by decide)
  rw [if_neg (not_or_intro hinf hinfinity), if_neg hnan]

theorem isBlank_of_read? {v : Numeral} (h : read? cs = some v) : ∀ c ∈ cs, Text.isBlank c = false :=
  (read?_eq_some_iff.mp h).not_blank

theorem bare_of_read? {d : Decimal} (h : read? cs = some (.finite d)) : Text.Bare cs ∧ cs ≠ [] := by
  refine ⟨⟨fun c hc => isBlank_of_read? h c (List.mem_of_mem_head? hc),
    fun c hc => isBlank_of_read? h c (List.mem_of_getLast? hc)⟩, ?_⟩
  rintro rfl
  cases h

end Numeral

/-! ## The number in front -/

/-- A unit that may stand behind a numeral: it holds no digit, and no point that would be read as a part
of the numeral. -/
structure Text.Follows (numeral gap unit : List Char) : Prop where
  blank : Blank gap
  bare : Bare unit
  nonempty : unit ≠ []
  digits : ∀ c ∈ unit, Decimal.isDigit c = false
  point : gap = [] → unit.head? = some '.' → Numeral.read? (numeral ++ ['.']) = none

/-- The beginning of the unit is not read as a part of the number. -/
theorem Text.Follows.read?_eq_none {numeral gap unit : List Char} (h : Follows numeral gap unit)
    {d : Decimal} (hnumeral : Numeral.read? numeral = some (.finite d)) {front rest : List Char}
    (hunit : unit = front ++ rest) (hne : front ≠ []) :
    Numeral.read? (numeral ++ (gap ++ front)) = none := by
  by_cases hpoint : gap ++ front = ['.']
  · obtain ⟨rfl, rfl⟩ : gap = [] ∧ front = ['.'] := by
      rcases List.append_eq_singleton_iff.mp hpoint with hcut | ⟨-, hfront⟩
      · exact hcut
      · exact absurd hfront hne
    exact h.point rfl (by rw [hunit]; rfl)
  · refine Numeral.read?_append hnumeral ⟨List.append_ne_nil_of_right_ne_nil _ hne, ?_, hpoint⟩
    exact List.forall_mem_append.mpr ⟨fun c hc => Numeral.isDigit_of_isBlank (h.blank c hc),
      fun c hc => h.digits c (hunit ▸ List.mem_append_left _ hc)⟩

theorem longestNumeral_of_le {numeral gap unit : List Char} {d : Decimal}
    (hnumeral : Numeral.read? numeral = some (.finite d)) (h : Text.Follows numeral gap unit) {n : ℕ}
    (hn : numeral.length ≤ n) :
    longestNumeral n (numeral ++ (gap ++ unit)) = some (.finite d, unit) := by
  obtain ⟨hbare, hne⟩ := Numeral.bare_of_read? hnumeral
  have hpos : 0 < numeral.length := List.length_pos_iff.mpr hne
  induction n with
  | zero => omega
  | succ n ih =>
    rw [longestNumeral]
    by_cases hshort : n + 1 - numeral.length ≤ gap.length
    · -- the front part ends within the gap
      have htake : (numeral ++ (gap ++ unit)).take (n + 1) =
          [] ++ numeral ++ gap.take (n + 1 - numeral.length) := by
        rw [List.take_append, List.take_of_length_le hn, List.take_append_of_le_length hshort,
          List.nil_append]
      have hdrop : (numeral ++ (gap ++ unit)).drop (n + 1) =
          gap.drop (n + 1 - numeral.length) ++ unit ++ [] := by
        rw [List.drop_append, List.drop_of_length_le hn, List.drop_append_of_le_length hshort,
          List.append_nil, List.nil_append]
      have hbefore : Text.Blank (gap.take (n + 1 - numeral.length)) :=
        fun c hc => h.blank c (List.mem_of_mem_take hc)
      have hbehind : Text.Blank (gap.drop (n + 1 - numeral.length)) :=
        fun c hc => h.blank c (List.mem_of_mem_drop hc)
      rw [htake, Text.trim_append Text.blank_nil hbefore hbare hne, hnumeral, hdrop,
        Text.trim_append hbehind Text.blank_nil h.bare h.nonempty]
    · -- it ends within the unit
      have hcut : unit.take (n + 1 - numeral.length - gap.length) ≠ [] := by
        rw [ne_eq, List.take_eq_nil_iff, not_or]
        exact ⟨by omega, h.nonempty⟩
      obtain ⟨blanks, hfront, hblanks⟩ :=
        Text.trimEnd_split (unit.take (n + 1 - numeral.length - gap.length))
      obtain ⟨hbareFront, hneFront⟩ := Text.bare_trimEnd hcut fun c hc =>
        h.bare.head c (by rwa [List.head?_take, if_neg (by omega)] at hc)
      generalize Text.trimEnd (unit.take (n + 1 - numeral.length - gap.length)) = front at *
      have htake : (numeral ++ (gap ++ unit)).take (n + 1) =
          [] ++ (numeral ++ (gap ++ front)) ++ blanks := by
        rw [List.take_append, List.take_of_length_le hn, List.take_append,
          List.take_of_length_le (by omega), hfront]
        simp only [List.nil_append, List.append_assoc]
      have hunit : unit = front ++ (blanks ++ unit.drop (n + 1 - numeral.length - gap.length)) := by
        rw [← List.append_assoc, ← hfront, List.take_append_drop]
      rw [htake, Text.trim_append Text.blank_nil hblanks (hbare.append hne hbareFront hneFront)
          (List.append_ne_nil_of_left_ne_nil hne _),
        h.read?_eq_none hnumeral hunit hneFront]
      exact ih (by omega)

theorem longestNumeral_eq {numeral gap unit : List Char} {d : Decimal}
    (hnumeral : Numeral.read? numeral = some (.finite d)) (h : Text.Follows numeral gap unit) :
    longestNumeral (numeral ++ (gap ++ unit)).length (numeral ++ (gap ++ unit)) =
      some (.finite d, unit) :=
  longestNumeral_of_le hnumeral h (by rw [List.length_append]; omega)

/-- What is taken for the number, and that nothing longer could have been. -/
theorem longestNumeral_split {n : ℕ} {cs unit : List Char} {v : Numeral}
    (h : longestNumeral n cs = some (v, unit)) :
    ∃ k ≤ n, Numeral.read? (Text.trim (cs.take k)) = some v ∧ unit = Text.trim (cs.drop k) ∧
      ∀ m, k < m → m ≤ n → Numeral.read? (Text.trim (cs.take m)) = none := by
  induction n with
  | zero => cases h
  | succ n ih =>
    rw [longestNumeral] at h
    split at h
    case h_1 w hw =>
      cases h
      exact ⟨n + 1, le_rfl, hw, rfl, fun m hm hm' => absurd hm' (Nat.not_le.mpr hm)⟩
    case h_2 hnone =>
      obtain ⟨k, hk, hread, hunit, hmax⟩ := ih h
      refine ⟨k, Nat.le_succ_of_le hk, hread, hunit, fun m hm hm' => ?_⟩
      rcases Nat.lt_or_eq_of_le hm' with hlt | rfl
      · exact hmax m hm (Nat.lt_succ_iff.mp hlt)
      · exact hnone

end Dispatch

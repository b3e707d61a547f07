import Dispatch.Time.Duration
import Dispatch.Proofs.Exact.Basic
import Dispatch.Proofs.Quantity.Literal

/-! # The grammar of durations

* `Duration.Component`: a number and the letter behind it.
* `Duration.Parts`: components of the date and, behind a `T`, components of the time.
* `Duration.readFrom_parts`, `Duration.exists_parts`: reading on after some components ends well just when
  the rest is made of such parts, and adds up their seconds.
* `Duration.ofText_components`: the texts of durations, their lengths, and what may be written
  differently without changing the length.
-/

namespace Dispatch.Duration
set_option autoImplicit false

open Exact
open Decimal (isDigit ofDigits)

/-! ## Components -/

inductive Designator where
  | week
  | day
  | hour
  | minute
  | second
deriving DecidableEq

namespace Designator

def letter : Designator → Char
  | week => 'W'
  | day => 'D'
  | hour => 'H'
  | minute => 'M'
  | second => 'S'

/-- Whether it stands behind the `T`. -/
def inTime : Designator → Bool
  | week | day => false
  | hour | minute | second => true

def seconds : Designator → ℕ
  | week => 604800
  | day => 86400
  | hour => 3600
  | minute => 60
  | second => 1

theorem letter_plain (x : Designator) : isDigit x.letter = false ∧ x.letter ≠ '.' ∧ x.letter ≠ 'T' := by
  cases x <;> decide

theorem unitSeconds_letter (x : Designator) :
    (unitSeconds x.inTime x.letter : Except DurationFault Exact) = .ok (num x.seconds) := by
  cases x with
  | second =>
    rw [seconds, Nat.cast_one]
    rfl
  | week | day | hour | minute => exact congrArg Except.ok (ofNat_eq _)

/-- Only designators have a length, each in its own part. -/
theorem exists_of_unitSeconds {inTime : Bool} {c : Char} {k : Exact} (h : unitSeconds inTime c = .ok k) :
    ∃ x : Designator, x.letter = c ∧ x.inTime = inTime ∧ k = num x.seconds := by
  obtain ⟨x, rfl, rfl⟩ : ∃ x : Designator, x.letter = c ∧ x.inTime = inTime := by
    unfold unitSeconds at h
    split at h
    · exact ⟨week, rfl, rfl⟩
    · exact ⟨day, rfl, rfl⟩
    · exact ⟨hour, rfl, rfl⟩
    · exact ⟨minute, rfl, rfl⟩
    · exact ⟨second, rfl, rfl⟩
    · cases h
    · cases h
    · cases h
  exact ⟨x, rfl, rfl, Except.ok.inj (h.symm.trans x.unitSeconds_letter)⟩

end Designator

/-- A number without a sign or an exponent, and its designator. -/
structure Component where
  numeral : List Char
  whole : List Char
  part : List Char
  designator : Designator
  positional : Numeral.Positional numeral whole part

namespace Component

def text (x : Component) : List Char := x.numeral ++ [x.designator.letter]

noncomputable def number (x : Component) : ℝ :=
  ofDigits 0 (x.whole ++ x.part) / (10 : ℕ) ^ x.part.length

noncomputable def seconds (x : Component) : ℝ := x.number * x.designator.seconds

theorem seconds_nonneg (x : Component) : 0 ≤ x.seconds := by
  unfold seconds number
  positivity

/-- The number as a decimal. -/
def decimal (x : Component) : Decimal :=
  ⟨false, ofDigits 0 (x.whole ++ x.part), 0 - x.part.length⟩

theorem unsigned?_numeral (x : Component) : Numeral.unsigned? false x.numeral = some x.decimal :=
  Numeral.unsigned?_eq_some_iff.mpr
    ⟨_, [], _, _, 0, (List.append_nil _).symm, x.positional, .none, rfl⟩

theorem ofDecimal_decimal (x : Component) : (Scalar.ofDecimal x.decimal : Exact) = num x.number := by
  change Exact.ofDecimal x.decimal = _
  rw [Exact.ofDecimal, decimal, number, zero_sub, zpow_neg, zpow_natCast, div_eq_mul_inv]
  rfl

end Component

/-! ## Parts of a duration -/

/-- Components where a duration is read, and those behind a `T` that may come later. -/
structure Parts (inTime : Bool) where
  here : List Component
  later : Option (List Component)
  here_inTime : ∀ x ∈ here, x.designator.inTime = inTime
  later_inTime : ∀ x ∈ later.getD [], x.designator.inTime = true
  /-- There is one `T` at most. -/
  once : later.isSome → inTime = false

namespace Parts
variable {inTime : Bool}

def all (x : Parts inTime) : List Component := x.here ++ x.later.getD []

def text (x : Parts inTime) : List Char :=
  x.here.flatMap Component.text ++
    match x.later with
    | none => []
    | some xs => 'T' :: xs.flatMap Component.text

noncomputable def seconds (x : Parts inTime) : ℝ := (x.all.map Component.seconds).sum

theorem seconds_nonneg (x : Parts inTime) : 0 ≤ x.seconds := by
  refine List.sum_nonneg fun s hs => ?_
  obtain ⟨c, -, rfl⟩ := List.mem_map.mp hs
  exact c.seconds_nonneg

end Parts

/-! ## Reading on -/

/-- What waits for its designator. -/
def Waits (pending : List Char) : Prop := ∀ c ∈ pending, isDigit c = true ∨ c = '.'

theorem waits_nil : Waits [] := List.forall_mem_nil _

/-- No exponent is in what waits, so it is a number in positional notation. -/
theorem positional_of_unsigned? {pending : List Char} {d : Decimal} (hpending : Waits pending)
    (h : Numeral.unsigned? false pending = some d) : ∃ front back,
      Numeral.Positional pending front back ∧ d = ⟨false, ofDigits 0 (front ++ back), 0 - back.length⟩ := by
  obtain ⟨digits, exponent, front, back, e, rfl, hdigits, hexponent, rfl⟩ :=
    Numeral.unsigned?_eq_some_iff.mp h
  cases hexponent with
  | none => exact ⟨front, back, by rwa [List.append_nil], rfl⟩
  | stated hletter =>
    have hwaits := hpending _ (List.mem_append_right _ List.mem_cons_self)
    rcases hletter with rfl | rfl
    · exact absurd hwaits (by decide)
    · exact absurd hwaits (by decide)

section Steps
variable {started : Bool} {t : ℝ}

theorem readFrom_waits {inTime : Bool} {total : Exact} {cs : List Char} (hcs : Waits cs)
    (pending rest : List Char) :
    readFrom inTime started total pending (cs ++ rest) =
      readFrom inTime started total (pending ++ cs) rest := by
  induction cs generalizing pending with
  | nil => rw [List.append_nil, List.nil_append]
  | cons c cs ih =>
    obtain ⟨hc, hcs⟩ := List.forall_mem_cons.mp hcs
    have hT : ¬(c = 'T' ∧ inTime = false ∧ pending = []) := by
      rintro ⟨rfl, -⟩
      exact absurd hc (by decide)
    have hwaits : (isDigit c || c == '.') = true := by simpa using hc
    rw [List.cons_append, readFrom, if_neg hT, if_pos hwaits, ih hcs, List.append_assoc,
      List.singleton_append]

theorem readFrom_component (x : Component) (rest : List Char) :
    readFrom x.designator.inTime started (num t) [] (x.text ++ rest) =
      readFrom x.designator.inTime true (num (t + x.seconds)) [] rest := by
  obtain ⟨hdigit, hpoint, hT⟩ := x.designator.letter_plain
  rw [Component.text, List.append_assoc, readFrom_waits x.positional.chars,
    List.nil_append, List.singleton_append, readFrom, if_neg (fun h => hT h.1),
    if_neg (by simp [hdigit, hpoint]), x.unsigned?_numeral]
  simp only [x.designator.unitSeconds_letter, x.ofDecimal_decimal, num_mul, num_add, Component.seconds]

theorem readFrom_components {inTime : Bool} {xs : List Component}
    (hxs : ∀ x ∈ xs, x.designator.inTime = inTime) (rest : List Char) :
    readFrom inTime started (num t) [] (xs.flatMap Component.text ++ rest) =
      readFrom inTime (started || !xs.isEmpty) (num (t + (xs.map Component.seconds).sum)) [] rest := by
  induction xs generalizing started t with
  | nil => simp
  | cons x xs ih =>
    obtain ⟨rfl, hxs⟩ := List.forall_mem_cons.mp hxs
    rw [List.flatMap_cons, List.append_assoc, readFrom_component, ih hxs, List.map_cons, List.sum_cons,
      add_assoc]
    simp

/-- Parts are read to their end. -/
theorem readFrom_parts {inTime : Bool} (x : Parts inTime) (hsome : started = true ∨ x.all ≠ []) :
    readFrom inTime started (num t) [] x.text = .ok (num (t + x.seconds)) := by
  obtain ⟨here, later, hhere, hlater, honce⟩ := x
  rw [Parts.text, readFrom_components hhere]
  cases later with
  | none =>
    have hstarted : (started || !here.isEmpty) = true := by
      simpa [Parts.all] using hsome
    simp [readFrom, hstarted, Parts.seconds, Parts.all]
  | some xs =>
    obtain rfl := honce rfl
    have hstarted : (started || !here.isEmpty || !xs.isEmpty) = true := by
      simpa [Parts.all, or_assoc, ← not_and_or] using hsome
    rw [Option.getD_some] at hlater
    rw [readFrom, if_pos ⟨rfl, rfl, rfl⟩, ← List.append_nil (xs.flatMap _), readFrom_components hlater]
    simp only [readFrom, hstarted, Parts.seconds, Parts.all, List.map_append, List.sum_append,
      Option.getD_some, add_assoc]
    rfl

/-- Whatever is read to its end is made of parts, the number that waited included. -/
theorem exists_parts {inTime : Bool} {pending cs : List Char} {total : Exact} (hpending : Waits pending)
    (h : readFrom inTime started (num t) pending cs = .ok total) :
    ∃ x : Parts inTime, x.text = pending ++ cs ∧ (started = true ∨ x.all ≠ []) ∧
      total = num (t + x.seconds) := by
  induction cs generalizing inTime started t pending with
  | nil =>
    unfold readFrom at h
    split_ifs at h with hwaiting hstarted
    have hnone : pending = [] := by simpa using hwaiting
    refine ⟨⟨[], none, nofun, nofun, nofun⟩, by rw [hnone]; rfl, .inl hstarted, ?_⟩
    rw [← Except.ok.inj h]
    simp [Parts.seconds, Parts.all]
  | cons c rest ih =>
    rw [readFrom] at h
    split_ifs at h with hT hwaits
    · obtain ⟨rfl, rfl, rfl⟩ := hT
      obtain ⟨⟨here, later, hhere, hlater, honce⟩, htext, hsome, htotal⟩ := ih waits_nil h
      cases later with
      | some xs => cases honce rfl
      | none =>
        refine ⟨⟨[], some here, nofun, hhere, fun _ => rfl⟩, ?_, ?_, ?_⟩
        · rw [← List.nil_append rest, ← htext]
          simp [Parts.text]
        · simpa [Parts.all] using hsome
        · simpa [Parts.seconds, Parts.all] using htotal
    · have hc : isDigit c = true ∨ c = '.' := by simpa using hwaits
      obtain ⟨x, htext, hx⟩ :=
        ih (List.forall_mem_append.mpr ⟨hpending, List.forall_mem_singleton.mpr hc⟩) h
      exact ⟨x, by rw [htext, List.append_assoc, List.singleton_append], hx⟩
    · split at h
      case h_1 => cases h
      case h_2 d hd =>
        split at h
        case h_1 => cases h
        case h_2 k hk =>
          obtain ⟨front, back, hpositional, rfl⟩ := positional_of_unsigned? hpending hd
          obtain ⟨designator, rfl, rfl, rfl⟩ := Designator.exists_of_unitSeconds hk
          let component : Component := ⟨pending, front, back, designator, hpositional⟩
          have hdecimal := component.ofDecimal_decimal
          rw [Component.decimal] at hdecimal
          rw [hdecimal, num_mul, num_add] at h
          obtain ⟨⟨here, later, hhere, hlater, honce⟩, htext, -, htotal⟩ := ih waits_nil h
          refine ⟨⟨component :: here, later, List.forall_mem_cons.mpr ⟨rfl, hhere⟩, hlater, honce⟩,
            ?_, .inr (List.cons_ne_nil _ _), ?_⟩
          · rw [← List.nil_append rest, ← htext]
            simp [Parts.text, Component.text, component]
          · rw [htotal]
            simp [Parts.seconds, Parts.all, Component.seconds, component, add_assoc]

end Steps

/-! ## Texts of durations -/

namespace Parts
variable {x y : Parts false} {s t : String}

/-- The text, blanks around it dropped, is `P` and these parts, of which there is one at least. -/
structure Written (x : Parts false) (s : String) : Prop where
  text : Text.trim s.toList = 'P' :: x.text
  nonempty : x.all ≠ []

/-- The length to the millisecond, halves rounded up; no length is above the greatest 64-bit number of
milliseconds. -/
noncomputable def span (x : Parts false) : Span :=
  Span.ofMillis (min wordMax ⌊(1000 : ℕ) * x.seconds + 1 / (2 : ℕ)⌋)

theorem span_eq (x : Parts false) :
    x.span = Span.ofMillis (min wordMax ⌊1000 * x.seconds + 1 / 2⌋) := rfl

theorem text_ne_nil (h : x.all ≠ []) : x.text ≠ [] := by
  obtain ⟨here, later, hhere, hlater, honce⟩ := x
  cases later with
  | some xs => exact List.append_ne_nil_of_right_ne_nil _ (List.cons_ne_nil _ _)
  | none =>
    obtain ⟨c, cs, rfl⟩ : ∃ c cs, here = c :: cs := by simpa [all, List.ne_nil_iff_exists_cons] using h
    simp [text, Component.text]

theorem roundInt_of_nonneg {r : ℝ} (h : 0 ≤ r) :
    Scalar.roundInt (num r) = min wordMax ⌊r + 1 / 2⌋ := by
  have hfloor : 0 ≤ ⌊r + 1 / 2⌋ := Int.floor_nonneg.mpr (by positivity)
  have hmin : wordMin ≤ min wordMax ⌊r + 1 / 2⌋ :=
    le_min (by decide) (le_trans (by decide) hfloor)
  change max wordMin (min wordMax (if 0 ≤ r then _ else _)) = _
  rw [if_pos h, max_eq_right hmin]

theorem Written.ofText_eq (h : x.Written s) : (ofText s : Checked Exact Span) = .ok x.span := by
  have hbody : ¬x.text.isEmpty = true := by
    rw [List.isEmpty_iff]
    exact text_ne_nil h.nonempty
  have hseconds : (Duration.seconds ('P' :: x.text) : Except DurationFault Exact) = .ok (num x.seconds) := by
    rw [Duration.seconds, if_neg hbody, zero_eq, readFrom_parts x (.inr h.nonempty), zero_add]
  have hmillis : (0 : ℝ) ≤ 1000 * x.seconds := mul_nonneg (by norm_num) x.seconds_nonneg
  rw [ofText, h.text]
  simp only [hseconds, ofNat_eq, num_mul]
  rw [mul_comm, Nat.cast_ofNat, roundInt_of_nonneg hmillis, span_eq]

/-- The same number of seconds is the same length, however it is written. -/
theorem Written.ofText_congr (hx : x.Written s) (hy : y.Written t) (h : x.seconds = y.seconds) :
    (ofText s : Checked Exact Span) = ofText t := by
  rw [hx.ofText_eq, hy.ofText_eq, span_eq, span_eq, h]

end Parts

theorem ofText_eq_ok_iff {s : String} {span : Span} :
    (ofText s : Checked Exact Span) = .ok span ↔ ∃ x : Parts false, x.Written s ∧ span = x.span := by
  constructor
  · intro h
    obtain ⟨total, htotal⟩ : ∃ total : Exact, seconds (Text.trim s.toList) = .ok total := by
      unfold ofText at h
      dsimp only at h
      split at h
      case h_1 total htotal => exact ⟨total, htotal⟩
      case h_2 => cases h
    obtain ⟨x, hx⟩ : ∃ x : Parts false, x.Written s := by
      unfold seconds at htotal
      split at htotal
      case h_1 => cases htotal
      case h_2 body hbody =>
        split_ifs at htotal
        obtain ⟨x, htext, hsome, -⟩ := exists_parts waits_nil htotal
        exact ⟨x, by rw [hbody, htext, List.nil_append], by simpa using hsome⟩
      case h_3 => cases htotal
    exact ⟨x, hx, Except.ok.inj (h.symm.trans hx.ofText_eq)⟩
  · rintro ⟨x, hx, rfl⟩
    exact hx.ofText_eq

/-! ## The same length written differently -/

/-- One component is written as two of the same designator. -/
inductive Splits : List Component → List Component → Prop where
  | intro (front back : List Component) {x y z : Component} (hy : y.designator = x.designator)
      (hz : z.designator = x.designator) (hnumber : y.number + z.number = x.number) :
      Splits (front ++ x :: back) (front ++ y :: z :: back)

theorem Splits.sum_seconds {xs ys : List Component} (h : Splits xs ys) :
    (xs.map Component.seconds).sum = (ys.map Component.seconds).sum := by
  obtain ⟨front, back, hy, hz, hnumber⟩ := h
  simp only [List.map_append, List.map_cons, List.sum_append, List.sum_cons, Component.seconds, hy, hz,
    ← hnumber]
  ring

namespace Parts
variable {x y : Parts false}

theorem seconds_perm (hhere : x.here.Perm y.here) (hlater : (x.later.getD []).Perm (y.later.getD [])) :
    x.seconds = y.seconds :=
  ((hhere.append hlater).map Component.seconds).sum_eq

/-- One part is split somewhere, the other is the same. -/
def Split (x y : Parts false) : Prop :=
  (Splits x.here y.here ∧ x.later.getD [] = y.later.getD []) ∨
    (x.here = y.here ∧ Splits (x.later.getD []) (y.later.getD []))

theorem Split.seconds_eq (h : Split x y) : x.seconds = y.seconds := by
  simp only [seconds, all, List.map_append, List.sum_append]
  rcases h with ⟨hhere, hlater⟩ | ⟨hhere, hlater⟩
  · rw [hhere.sum_seconds, hlater]
  · rw [hhere, hlater.sum_seconds]

end Parts

/-- A text is a duration just when it is `P` and the parts of one, and its length is the sum of the
components. The order inside a part does not matter, and neither does writing a component as two. -/
theorem ofText_components :
    (∀ (s : String) (span : Span), (ofText s : Checked Exact Span) = .ok span ↔
      ∃ x : Parts false, x.Written s ∧ span = x.span) ∧
    (∀ (s t : String) (x y : Parts false), x.Written s → y.Written t → x.here.Perm y.here →
      (x.later.getD []).Perm (y.later.getD []) → (ofText s : Checked Exact Span) = ofText t) ∧
    ∀ (s t : String) (x y : Parts false), x.Written s → y.Written t → x.Split y →
      (ofText s : Checked Exact Span) = ofText t :=
  ⟨fun _ _ => ofText_eq_ok_iff,
    fun _ _ _ _ hx hy hhere hlater => hx.ofText_congr hy (Parts.seconds_perm hhere hlater),
    fun _ _ _ _ hx hy hsplit => hx.ofText_congr hy hsplit.seconds_eq⟩

/-- An hour and a half: as one component, as two, and as these two in the other order. -/
theorem hour_and_a_half :
    (ofText " PT1.5H" : Checked Exact Span) = .ok (Span.ofMillis 5400000) ∧
      (ofText " PT1.5H" : Checked Exact Span) = ofText "PT1H.5H" ∧
      (ofText "PT1H.5H" : Checked Exact Span) = ofText "PT.5H1H" := by
  have hone : Numeral.Digits ['1'] := List.forall_mem_singleton.mpr rfl
  have hfive : Numeral.Digits ['5'] := List.forall_mem_singleton.mpr rfl
  have hdigits : ofDigits 0 ['1'] = 1 ∧ ofDigits 0 ['5'] = 5 ∧ ofDigits 0 ['1', '5'] = 15 := by decide
  obtain ⟨hour, hhour, hvalue⟩ : ∃ x : Component, (x.numeral = ['1'] ∧ x.designator = .hour) ∧
      x.number = 1 :=
    ⟨⟨_, _, _, .hour, .whole hone (List.cons_ne_nil _ _)⟩, ⟨rfl, rfl⟩,
      by norm_num [Component.number, hdigits]⟩
  obtain ⟨half, hhalf, hvalue'⟩ : ∃ x : Component, (x.numeral = ['.', '5'] ∧ x.designator = .hour) ∧
      x.number = 1 / 2 :=
    ⟨⟨_, [], _, .hour, .pointed nofun hfive (List.cons_ne_nil _ _)⟩, ⟨rfl, rfl⟩,
      by norm_num [Component.number, hdigits]⟩
  obtain ⟨both, hboth, hvalue''⟩ : ∃ x : Component, (x.numeral = ['1', '.', '5'] ∧ x.designator = .hour) ∧
      x.number = 3 / 2 :=
    ⟨⟨_, _, _, .hour, .pointed hone hfive (List.cons_ne_nil _ _)⟩, ⟨rfl, rfl⟩,
      by norm_num [Component.number, hdigits]⟩
  have hparts (xs : List Component) (hxs : ∀ x ∈ xs, x.designator = .hour) :
      ∃ x : Parts false, x.here = [] ∧ x.later = some xs :=
    ⟨⟨[], some xs, nofun, fun x hx => by rw [hxs x hx]; rfl, fun _ => rfl⟩, rfl, rfl⟩
  obtain ⟨x, hx⟩ := hparts [both] (by simp [hboth])
  obtain ⟨y, hy⟩ := hparts [hour, half] (by simp [hhour, hhalf])
  obtain ⟨z, hz⟩ := hparts [half, hour] (by simp [hhour, hhalf])
  have hxtext : x.text = "T1.5H".toList := by
    simp [Parts.text, Component.text, hx, hboth, Designator.letter]
  have hytext : y.text = "T1H.5H".toList := by
    simp [Parts.text, Component.text, hy, hhour, hhalf, Designator.letter]
  have hztext : z.text = "T.5H1H".toList := by
    simp [Parts.text, Component.text, hz, hhour, hhalf, Designator.letter]
  have hxs : x.Written " PT1.5H" := ⟨by rw [hxtext]; decide +kernel, by simp [Parts.all, hx]⟩
  have hys : y.Written "PT1H.5H" := ⟨by rw [hytext]; decide +kernel, by simp [Parts.all, hy]⟩
  have hzs : z.Written "PT.5H1H" := ⟨by rw [hztext]; decide +kernel, by simp [Parts.all, hz]⟩
  have hspan : x.span = Span.ofMillis 5400000 := by
    have hseconds : x.seconds = 3 / 2 * 3600 := by
      simp [Parts.seconds, Parts.all, hx, Component.seconds, hboth, hvalue'', Designator.seconds]
    have hfloor : ⌊(1000 * (3 / 2 * 3600) + 1 / 2 : ℝ)⌋ = 5400000 := by
      rw [Int.floor_eq_iff]
      norm_num
    rw [Parts.span_eq, hseconds, hfloor]
    rfl
  have hsplit : x.Split y := .inr ⟨hx.1.trans hy.1.symm, by
    rw [hx.2, hy.2]
    exact .intro [] [] (hhour.2.trans hboth.2.symm) (hhalf.2.trans hboth.2.symm)
      (by rw [hvalue, hvalue', hvalue'']; norm_num)⟩
  refine ⟨(ofText_components.1 _ _).mpr ⟨x, hxs, hspan.symm⟩,
    ofText_components.2.2 _ _ x y hxs hys hsplit, ofText_components.2.1 _ _ y z hys hzs ?_ ?_⟩
  · rw [hy.1, hz.1]
  · rw [hy.2, hz.2]
    exact .swap _ _ _

end Dispatch.Duration

import Mathlib.Data.List.TakeWhile
import Mathlib.Tactic.IntervalCases
import Dispatch.Decimal.Literal
import Dispatch.Text.Blank

/-! # The grammar of numerals

* `Numeral.Signed`: an optional sign.
* `Numeral.Positional`: digits with at most one point among them, at least one digit in all.
* `Numeral.Exponent`: nothing, or an `e` with an optional sign and at least one digit.
* `Numeral.Literal`: the texts of numerals and what they denote.
* `Numeral.read?_eq_some_iff`: exactly these texts are read, each as what it denotes.
* `Numeral.Literal.not_blank`: no blank stands in such a text.
-/

namespace Dispatch.Numeral
set_option autoImplicit false

open Decimal (isDigit ofDigits)

/-! ## The grammar -/

def Digits (cs : List Char) : Prop := ∀ c ∈ cs, isDigit c = true

/-- An optional sign, and whether it makes a number negative. -/
inductive Signed : List Char → Bool → Prop where
  | bare : Signed [] false
  | plus : Signed ['+'] false
  | minus : Signed ['-'] true

/-- A text of digits with at most one point, the digits in front of the point and those behind it. -/
inductive Positional : List Char → List Char → List Char → Prop where
  | whole {front : List Char} (hfront : Digits front) (hne : front ≠ []) : Positional front front []
  | pointed {front back : List Char} (hfront : Digits front) (hback : Digits back)
      (hne : front ++ back ≠ []) : Positional (front ++ '.' :: back) front back

inductive Exponent : List Char → ℤ → Prop where
  | none : Exponent [] 0
  | stated {c : Char} {sign digits : List Char} {negative : Bool} (hc : c = 'e' ∨ c = 'E')
      (hsign : Signed sign negative) (hdigits : Digits digits) (hne : digits ≠ []) :
      Exponent (c :: (sign ++ digits))
        (if negative then -(ofDigits 0 digits : ℤ) else ofDigits 0 digits)

/-- The texts of numerals. Digits behind the point lower the exponent; words are read in any case. -/
inductive Literal : List Char → Numeral → Prop where
  | finite {sign digits exponent front back : List Char} {negative : Bool} {e : ℤ}
      (hsign : Signed sign negative) (hdigits : Positional digits front back)
      (hexponent : Exponent exponent e) :
      Literal (sign ++ (digits ++ exponent))
        (.finite ⟨negative, ofDigits 0 (front ++ back), e - back.length⟩)
  | infinite {sign word : List Char} {negative : Bool} (hsign : Signed sign negative)
      (hword : word.map Char.toLower = "inf".toList ∨ word.map Char.toLower = "infinity".toList) :
      Literal (sign ++ word) (.infinite negative)
  | notANumber {sign word : List Char} {negative : Bool} (hsign : Signed sign negative)
      (hword : word.map Char.toLower = "nan".toList) : Literal (sign ++ word) .notANumber

/-! ## Signs and digits -/

theorem toNat_of_isDigit {c : Char} (h : isDigit c = true) : 48 ≤ c.toNat ∧ c.toNat ≤ 57 := by
  unfold Decimal.isDigit Decimal.digit? at h
  split_ifs at h with hc
  · exact hc
  · cases h

theorem toLower_of_isDigit {c : Char} (h : isDigit c = true) : c.toLower = c := by
  obtain ⟨hlow, hhigh⟩ := toNat_of_isDigit h
  rw [← Char.ofNat_toNat c]
  interval_cases c.toNat <;> rfl

variable {cs rest front back : List Char} {negative : Bool}

theorem signed_spanSign (cs : List Char) :
    ∃ sign, Signed sign (spanSign cs).1 ∧ cs = sign ++ (spanSign cs).2 := by
  unfold spanSign
  split
  · exact ⟨_, .minus, rfl⟩
  · exact ⟨_, .plus, rfl⟩
  · exact ⟨_, .bare, rfl⟩

theorem spanSign_of_signed {sign : List Char} (hsign : Signed sign negative) {c : Char}
    (hc : c ≠ '-' ∧ c ≠ '+') (cs : List Char) :
    spanSign (sign ++ c :: cs) = (negative, c :: cs) := by
  cases hsign with
  | bare => simp [spanSign, hc.1, hc.2]
  | plus => rfl
  | minus => rfl

theorem Signed.chars (h : Signed cs negative) : ∀ c ∈ cs, c = '-' ∨ c = '+' := by
  cases h <;> simp

theorem ne_sign_of_lead {c : Char} (h : isDigit c = true ∨ c = '.') : c ≠ '-' ∧ c ≠ '+' := by
  constructor
  · rintro rfl
    exact absurd h (by decide)
  · rintro rfl
    exact absurd h (by decide)

theorem digits_takeWhile (cs : List Char) : Digits (cs.takeWhile isDigit) :=
  fun _ hc => List.mem_takeWhile_imp hc

/-- No digit comes first. -/
def Breaks (rest : List Char) : Prop := ∀ c ∈ rest.head?, isDigit c = false

theorem spanDigits_append (hfront : Digits front) (hrest : Breaks rest) :
    spanDigits (front ++ rest) = (front, rest) := by
  have hnone : rest.takeWhile isDigit = [] ∧ rest.dropWhile isDigit = rest := by
    cases rest with
    | nil => exact ⟨rfl, rfl⟩
    | cons c rest => simp [hrest c rfl]
  rw [spanDigits, List.takeWhile_append_of_pos hfront, List.dropWhile_append_of_pos hfront, hnone.1,
    hnone.2, List.append_nil]

namespace Positional

theorem chars (h : Positional cs front back) : ∀ c ∈ cs, isDigit c = true ∨ c = '.' := by
  cases h with
  | whole hfront => exact fun c hc => .inl (hfront c hc)
  | pointed hfront hback =>
    exact List.forall_mem_append.mpr ⟨fun c hc => .inl (hfront c hc),
      List.forall_mem_cons.mpr ⟨.inr rfl, fun c hc => .inl (hback c hc)⟩⟩

theorem exists_cons (h : Positional cs front back) :
    ∃ c rest, cs = c :: rest ∧ (isDigit c = true ∨ c = '.') := by
  have hne : cs ≠ [] := by
    cases h with
    | whole hfront hne => exact hne
    | pointed hfront hback hne => exact List.append_ne_nil_of_right_ne_nil _ (List.cons_ne_nil _ _)
  obtain ⟨c, rest, rfl⟩ := List.exists_cons_of_ne_nil hne
  exact ⟨c, rest, rfl, h.chars c List.mem_cons_self⟩

theorem count_point (h : Positional cs front back) : cs.count '.' ≤ 1 := by
  have hnone {cs : List Char} (hcs : Digits cs) : cs.count '.' = 0 :=
    List.count_eq_zero.mpr fun hmem => absurd (hcs '.' hmem) (by decide)
  cases h with
  | whole hfront => rw [hnone hfront]; exact Nat.zero_le 1
  | pointed hfront hback => rw [List.count_append, List.count_cons_self, hnone hfront, hnone hback]

end Positional

/-! ## Exponents -/

theorem Exponent.breaks {e : ℤ} (h : Exponent cs e) : Breaks cs ∧ cs.head? ≠ some '.' := by
  cases h with
  | none => exact ⟨nofun, nofun⟩
  | stated hc =>
    rcases hc with rfl | rfl
    · exact ⟨fun c hc => Option.some.inj hc ▸ rfl, by simp⟩
    · exact ⟨fun c hc => Option.some.inj hc ▸ rfl, by simp⟩

theorem exponent?_eq_some_iff {e : ℤ} : exponent? cs = some e ↔ Exponent cs e := by
  constructor
  · intro h
    cases cs with
    | nil =>
      cases h
      exact .none
    | cons c rest =>
      obtain ⟨sign, hsign, hrest⟩ := signed_spanSign rest
      obtain ⟨hletter, hdigits, he⟩ : (c = 'e' ∨ c = 'E') ∧
          ¬((spanSign rest).2.isEmpty || !(spanSign rest).2.all isDigit) = true ∧
          some (if (spanSign rest).1 then -(ofDigits 0 (spanSign rest).2 : ℤ)
            else ofDigits 0 (spanSign rest).2) = some e := by
        rw [exponent?] at h
        dsimp only at h
        by_cases hletter : c = 'e' ∨ c = 'E'
        · rw [if_pos hletter] at h
          by_cases hdigits : ((spanSign rest).2.isEmpty || !(spanSign rest).2.all isDigit) = true
          · rw [if_pos hdigits] at h
            cases h
          · rw [if_neg hdigits] at h
            exact ⟨hletter, hdigits, h⟩
        · rw [if_neg hletter] at h
          cases h
      obtain rfl := Option.some.inj he
      have hall : (spanSign rest).2 ≠ [] ∧ ∀ c ∈ (spanSign rest).2, isDigit c = true := by
        simpa using hdigits
      conv in c :: rest => rw [hrest]
      exact .stated hletter hsign hall.2 hall.1
  · intro h
    cases h with
    | none => rfl
    | @stated c sign digits negative hc hsign hdigits hne =>
      have hspan : spanSign (sign ++ digits) = (negative, digits) := by
        obtain ⟨d, digits, rfl⟩ := List.exists_cons_of_ne_nil hne
        exact spanSign_of_signed hsign (ne_sign_of_lead (.inl (hdigits d List.mem_cons_self))) digits
      have hall : ¬(digits.isEmpty || !digits.all isDigit) = true := by
        rw [List.isEmpty_eq_false_iff.mpr hne, List.all_eq_true.mpr hdigits]
        exact Bool.false_ne_true
      rw [exponent?, if_pos hc, hspan]
      exact if_neg hall

/-- An exponent that is stated ends with a digit. -/
theorem Exponent.ends {e : ℤ} (h : Exponent cs e) :
    cs = [] ∨ ∃ c ∈ cs.getLast?, isDigit c = true := by
  cases h with
  | none => exact .inl rfl
  | @stated _ _ digits _ _ _ hdigits hne =>
    refine .inr ⟨digits.getLast hne, ?_, hdigits _ (List.getLast_mem hne)⟩
    simp [List.getLast?_append, List.getLast?_cons, List.getLast?_eq_some_getLast hne]

/-! ## Numbers without a sign -/

/-- The digits in front of an exponent, cut at the point. -/
theorem unsigned?_eq_some_iff {d : Decimal} : unsigned? negative cs = some d ↔
    ∃ digits exponent front back e, cs = digits ++ exponent ∧ Positional digits front back ∧
      Exponent exponent e ∧ d = ⟨negative, ofDigits 0 (front ++ back), e - back.length⟩ := by
  constructor
  · intro h
    have hcs : cs = cs.takeWhile isDigit ++ cs.dropWhile isDigit :=
      List.takeWhile_append_dropWhile.symm
    unfold unsigned? spanDigits at h
    dsimp only at h
    split at h
    case h_1 _ rest hpoint =>
      split_ifs at h with hempty
      obtain ⟨e, he, rfl⟩ := Option.map_eq_some_iff.mp h
      have hne : cs.takeWhile isDigit ++ rest.takeWhile isDigit ≠ [] := by
        simpa [-List.takeWhile_eq_nil_iff] using hempty
      refine ⟨_, _, _, _, e, ?_, .pointed (digits_takeWhile cs) (digits_takeWhile rest) hne,
        exponent?_eq_some_iff.mp he, rfl⟩
      rw [List.append_assoc, List.cons_append, List.takeWhile_append_dropWhile, ← hpoint]
      exact hcs
    case h_2 =>
      split_ifs at h with hempty
      obtain ⟨e, he, rfl⟩ := Option.map_eq_some_iff.mp h
      have hne : cs.takeWhile isDigit ≠ [] := by
        simpa [-List.takeWhile_eq_nil_iff] using hempty
      refine ⟨_, _, _, [], e, hcs, .whole (digits_takeWhile cs) hne, exponent?_eq_some_iff.mp he, ?_⟩
      rfl
  · rintro ⟨digits, exponent, front, back, e, rfl, hdigits, hexponent, rfl⟩
    obtain ⟨hbreaks, hpoint⟩ := hexponent.breaks
    have he := exponent?_eq_some_iff.mpr hexponent
    cases hdigits with
    | whole hfront hne =>
      unfold unsigned?
      rw [spanDigits_append hfront hbreaks]
      dsimp only
      split
      case h_1 => exact absurd rfl hpoint
      case h_2 =>
        rw [if_neg (by simpa using hne), he]
        rfl
    | pointed hfront hback hne =>
      have hstops : Breaks ('.' :: (back ++ exponent)) := fun c hc => Option.some.inj hc ▸ rfl
      rw [List.append_assoc, List.cons_append, unsigned?, spanDigits_append hfront hstops]
      simp only [spanDigits_append hback hbreaks]
      rw [if_neg (by simpa using hne), he]
      rfl

/-! ## Numerals -/

/-- The first character of a word is a letter, so it is neither a sign nor the start of a number. -/
theorem spanSign_word {sign word : List Char} (hsign : Signed sign negative) {c : Char}
    {letters : List Char} (hc : c ≠ '-' ∧ c ≠ '+') (hword : word.map Char.toLower = c :: letters) :
    spanSign (sign ++ word) = (negative, word) := by
  obtain ⟨d, ds, rfl, hd, -⟩ := List.map_eq_cons_iff.mp hword
  refine spanSign_of_signed hsign ⟨?_, ?_⟩ ds
  · rintro rfl
    exact hc.1 hd.symm
  · rintro rfl
    exact hc.2 hd.symm

theorem unsigned?_word {word : List Char} {c : Char} {letters : List Char}
    (hc : isDigit c = false ∧ c ≠ '.') (hword : word.map Char.toLower = c :: letters) :
    unsigned? negative word = none := by
  rw [Option.eq_none_iff_forall_ne_some]
  intro d hd
  obtain ⟨digits, exponent, _, _, _, rfl, hdigits, -, -⟩ := unsigned?_eq_some_iff.mp hd
  obtain ⟨first, rest, rfl, hlead⟩ := hdigits.exists_cons
  have hlower : first.toLower = c := (List.cons.inj hword).1
  rcases hlead with hdigit | rfl
  · rw [toLower_of_isDigit hdigit] at hlower
    rw [hlower, hc.1] at hdigit
    cases hdigit
  · exact hc.2 hlower.symm

/-- Exactly the texts of numerals are read, each as what it denotes. -/
theorem read?_eq_some_iff {v : Numeral} : read? cs = some v ↔ Literal cs v := by
  constructor
  · intro h
    obtain ⟨sign, hsign, hcs⟩ := signed_spanSign cs
    have hword {w : String} (hw : String.ofList ((spanSign cs).2.map Char.toLower) = w) :
        (spanSign cs).2.map Char.toLower = w.toList := by
      rw [← hw, String.toList_ofList]
    unfold read? at h
    dsimp only at h
    rw [hcs]
    split at h
    case h_1 d hd =>
      cases h
      obtain ⟨digits, exponent, front, back, e, hbody, hdigits, hexponent, rfl⟩ :=
        unsigned?_eq_some_iff.mp hd
      rw [hbody]
      exact .finite hsign hdigits hexponent
    case h_2 =>
      split_ifs at h with hinf hnan
      · cases h
        exact .infinite hsign (hinf.imp hword hword)
      · cases h
        exact .notANumber hsign (hword hnan)
  · intro h
    cases h with
    | finite hsign hdigits hexponent =>
      obtain ⟨c, cs, hbody, hlead⟩ := hdigits.exists_cons
      rw [read?, hbody, List.cons_append, spanSign_of_signed hsign (ne_sign_of_lead hlead),
        ← List.cons_append, ← hbody]
      dsimp only
      rw [unsigned?_eq_some_iff.mpr ⟨_, _, _, _, _, rfl, hdigits, hexponent, rfl⟩]
    | infinite hsign hword =>
      have hletters : ∃ letters, List.map Char.toLower _ = 'i' :: letters :=
        hword.elim (fun h => ⟨_, h⟩) (fun h => ⟨_, h⟩)
      obtain ⟨letters, hletters⟩ := hletters
      rw [read?, spanSign_word hsign (by decide) hletters]
      dsimp only
      rw [unsigned?_word (by decide) hletters]
      have hspelled {w : String} {cs : List Char} (hw : cs = w.toList) : String.ofList cs = w := by
        rw [hw, String.ofList_toList]
      exact if_pos (hword.imp hspelled hspelled)
    | notANumber hsign hword =>
      rw [read?, spanSign_word hsign (by decide) hword]
      dsimp only
      rw [unsigned?_word (by decide) hword, hword]
      rfl

/-! ## Blanks -/

theorem isBlank_of_isDigit {c : Char} (h : isDigit c = true) : Text.isBlank c = false := by
  obtain ⟨hlow, hhigh⟩ := toNat_of_isDigit h
  simp only [Text.isBlank, Bool.or_eq_false_iff, Bool.and_eq_false_iff, decide_eq_false_iff_not,
    beq_eq_false_iff_ne]
  omega

theorem isDigit_of_isBlank {c : Char} (h : Text.isBlank c = true) : isDigit c = false := by
  by_contra hdigit
  rw [isBlank_of_isDigit (Bool.not_eq_false _ ▸ hdigit)] at h
  cases h

theorem toLower_of_isBlank {c : Char} (h : Text.isBlank c = true) : c.toLower = c := by
  refine dif_neg fun hupper => ?_
  have hlow : 65 ≤ c.toNat := hupper.1
  have hhigh : c.toNat ≤ 90 := hupper.2
  simp only [Text.isBlank, Bool.or_eq_true, Bool.and_eq_true, decide_eq_true_eq, beq_iff_eq] at h
  omega

theorem Signed.not_blank (h : Signed cs negative) : ∀ c ∈ cs, Text.isBlank c = false :=
  fun c hc => by rcases h.chars c hc with rfl | rfl <;> rfl

theorem Positional.not_blank (h : Positional cs front back) : ∀ c ∈ cs, Text.isBlank c = false :=
  fun c hc => (h.chars c hc).elim isBlank_of_isDigit (by rintro rfl; rfl)

theorem Exponent.not_blank {e : ℤ} (h : Exponent cs e) : ∀ c ∈ cs, Text.isBlank c = false := by
  cases h with
  | none => exact nofun
  | stated hc hsign hdigits =>
    exact List.forall_mem_cons.mpr ⟨by rcases hc with rfl | rfl <;> rfl,
      List.forall_mem_append.mpr ⟨hsign.not_blank, fun c hc => isBlank_of_isDigit (hdigits c hc)⟩⟩

theorem not_blank_of_word {word : List Char} {letters : String}
    (hletters : (letters.toList.all fun c => !Text.isBlank c) = true)
    (hword : word.map Char.toLower = letters.toList) : ∀ c ∈ word, Text.isBlank c = false := by
  intro c hc
  by_contra hblank
  rw [Bool.not_eq_false] at hblank
  have hmem : c ∈ letters.toList := by
    rw [← hword]
    exact List.mem_map.mpr ⟨c, hc, toLower_of_isBlank hblank⟩
  have hnot := List.all_eq_true.mp hletters c hmem
  rw [hblank] at hnot
  cases hnot

theorem Literal.not_blank {v : Numeral} (h : Literal cs v) : ∀ c ∈ cs, Text.isBlank c = false := by
  cases h with
  | finite hsign hdigits hexponent =>
    exact List.forall_mem_append.mpr ⟨hsign.not_blank,
      List.forall_mem_append.mpr ⟨hdigits.not_blank, hexponent.not_blank⟩⟩
  | infinite hsign hword =>
    exact List.forall_mem_append.mpr ⟨hsign.not_blank,
      hword.elim (not_blank_of_word (by decide)) (not_blank_of_word (by decide))⟩
  | notANumber hsign hword =>
    exact List.forall_mem_append.mpr ⟨hsign.not_blank, not_blank_of_word (by decide) hword⟩

end Dispatch.Numeral

import Mathlib.Data.List.TakeWhile
import Mathlib.Tactic.IntervalCases
import Dispatch.Json.Parser
import Dispatch.Json.Printer

/-! # Printed JSON reads back

* `Json.ReadsAs`: two values that differ in their numbers only, where one has what the numerals of the
  other read as.
* `Json.parseText_escaped`: a text comes back character for character.
* `Json.parse?_render`: a printed value is read as the value that it reads as.

Each recursive call of the reader has one unit of fuel less and a text at least one character shorter, so
the length of a printed value bounds the fuel it takes.
-/

namespace Dispatch.Json
set_option autoImplicit false

/-! ## Texts -/

theorem unicodeEscape?_hexPad {n : ℕ} (h : n < 0x20) (rest : List Char) :
    unicodeEscape? (hexPad n ++ rest) = some (Char.ofNat n, rest) := by
  interval_cases n <;> rfl

/-- One character of a text, whether it is escaped by a letter, by its number or not at all. -/
theorem parseText_escapeChar (fuel : ℕ) (acc rest : List Char) (c : Char) :
    parseText (fuel + 1) acc (escapeChar c ++ rest) = parseText fuel (c :: acc) rest := by
  unfold escapeChar
  split
  case h_8 =>
    split
    case isTrue hc =>
      simp only [List.cons_append, List.nil_append, parseText, unicodeEscape?_hexPad hc,
        Char.ofNat_toNat]
    case isFalse hc => simp_all [parseText]
  all_goals rfl

theorem parseText_escaped {s : List Char} {fuel : ℕ} (hfuel : s.length < fuel)
    (acc rest : List Char) :
    parseText fuel acc (s.flatMap escapeChar ++ '"' :: rest) =
      some (String.ofList (acc.reverse ++ s), rest) := by
  induction s generalizing fuel acc with
  | nil =>
    obtain ⟨fuel, rfl⟩ := Nat.exists_eq_succ_of_ne_zero (Nat.ne_of_gt hfuel)
    simp [parseText]
  | cons c s ih =>
    obtain ⟨fuel, rfl⟩ := Nat.exists_eq_succ_of_ne_zero (Nat.ne_of_gt (Nat.zero_lt_of_lt hfuel))
    rw [List.flatMap_cons, List.append_assoc, parseText_escapeChar,
      ih (by rw [List.length_cons] at hfuel; omega), List.reverse_cons, List.append_assoc,
      List.singleton_append]

theorem escapeChar_ne_nil (c : Char) : escapeChar c ≠ [] := by
  unfold escapeChar
  split <;> first | exact List.cons_ne_nil _ _ | split <;> simp

theorem length_le_escaped (s : List Char) : s.length ≤ (s.flatMap escapeChar).length := by
  induction s with
  | nil => exact le_rfl
  | cons c s ih =>
    have hc : 0 < (escapeChar c).length := List.length_pos_iff.mpr (escapeChar_ne_nil c)
    rw [List.flatMap_cons, List.length_append, List.length_cons]
    omega

theorem renderText_toList (s : String) :
    (renderText s).toList = '"' :: (s.toList.flatMap escapeChar ++ ['"']) := by
  simp [renderText]

/-- A printed text after its opening quote, whatever follows it. -/
theorem parseText_renderText (s : String) (rest : List Char) :
    parseText ((s.toList.flatMap escapeChar ++ '"' :: rest).length + 1) []
      (s.toList.flatMap escapeChar ++ '"' :: rest) = some (s, rest) := by
  have hfuel := length_le_escaped s.toList
  rw [parseText_escaped (by rw [List.length_append]; omega), List.reverse_nil, List.nil_append,
    String.ofList_toList]

/-! ## Numbers -/

/-- What follows a value does not continue its numeral. -/
def EndsNumber (rest : List Char) : Prop := ∀ c ∈ rest.head?, isNumberChar c = false

/-- A text that is a number as a whole. -/
def numeral? (text : List Char) : Option Json :=
  let (negative, body) := match text with
    | '-' :: body => (true, body)
    | body => (false, body)
  if wellFormed body then
    (Numeral.unsigned? negative body).map fun d => number d (body.all Decimal.isDigit)
  else none

theorem parseNumber_eq (cs : List Char) :
    parseNumber cs =
      (numeral? (cs.takeWhile isNumberChar)).map fun v => (v, cs.dropWhile isNumberChar) := by
  unfold parseNumber numeral?
  simp only [apply_ite (Option.map _), Option.map_map, Option.map_none]
  rfl

theorem parseNumber_whole {text : List Char} {v : Json} (h : parseNumber text = some (v, [])) :
    numeral? text = some v ∧ ∀ c ∈ text, isNumberChar c = true := by
  rw [parseNumber_eq] at h
  obtain ⟨w, hw, hpair⟩ := Option.map_eq_some_iff.mp h
  obtain ⟨rfl, hrest⟩ := Prod.mk.inj hpair
  have hall := List.dropWhile_eq_nil_iff.mp hrest
  rw [List.takeWhile_eq_self_iff.mpr hall] at hw
  exact ⟨hw, hall⟩

theorem numeral_cons {text : List Char} {v : Json} (h : parseNumber text = some (v, [])) :
    ∃ c cs, text = c :: cs ∧ isNumberChar c = true := by
  obtain ⟨hv, hall⟩ := parseNumber_whole h
  cases text with
  | nil => cases hv
  | cons c cs => exact ⟨c, cs, rfl, hall c List.mem_cons_self⟩

/-- A numeral is read to its end, wherever it stands. -/
theorem parseNumber_append {text rest : List Char} {v : Json} (h : parseNumber text = some (v, []))
    (hrest : EndsNumber rest) : parseNumber (text ++ rest) = some (v, rest) := by
  have hstop : rest.takeWhile isNumberChar = [] ∧ rest.dropWhile isNumberChar = rest := by
    cases rest with
    | nil => exact ⟨rfl, rfl⟩
    | cons c rest => simp [hrest c rfl]
  obtain ⟨hv, hall⟩ := parseNumber_whole h
  rw [parseNumber_eq, List.takeWhile_append_of_pos hall, List.dropWhile_append_of_pos hall, hstop.1,
    hstop.2, List.append_nil, hv, Option.map_some]

/-! ## Values -/

mutual

/-- A value, and the value that its printed text is read as: the same but for the numbers. -/
inductive ReadsAs : Json → Json → Prop
  | null : ReadsAs null null
  | bool (b : Bool) : ReadsAs (bool b) (bool b)
  | number {d : Decimal} {whole : Bool} {v : Json}
    (h : parseNumber (renderNumber d whole).toList = some (v, [])) : ReadsAs (number d whole) v
  | string (s : String) : ReadsAs (string s) (string s)
  | array {items vs : List Json} (h : ItemsReadAs items vs) : ReadsAs (array items) (array vs)
  | object {fields vs : List (String × Json)} (h : FieldsReadAs fields vs) :
    ReadsAs (object fields) (object vs)

inductive ItemsReadAs : List Json → List Json → Prop
  | nil : ItemsReadAs [] []
  | cons {j v : Json} {items vs : List Json} (h : ReadsAs j v) (hrest : ItemsReadAs items vs) :
    ItemsReadAs (j :: items) (v :: vs)

inductive FieldsReadAs : List (String × Json) → List (String × Json) → Prop
  | nil : FieldsReadAs [] []
  | cons (key : String) {j v : Json} {fields vs : List (String × Json)} (h : ReadsAs j v)
    (hrest : FieldsReadAs fields vs) : FieldsReadAs ((key, j) :: fields) ((key, v) :: vs)

end

/-- The characters that begin a value; none of them is a blank or closes an array. -/
def opens (c : Char) : Bool := isNumberChar c || ['"', '[', '\x7b', 't', 'f', 'n'].contains c

theorem opens_cases {c : Char} (h : opens c = true) : isSpace c = false ∧ c ≠ ']' := by
  refine ⟨?_, ?_⟩
  · by_contra hspace
    simp only [isSpace, Bool.not_eq_false, Bool.or_eq_true, beq_iff_eq] at hspace
    obtain ((rfl | rfl) | rfl) | rfl := hspace <;> exact absurd h (by decide)
  · rintro rfl
    exact absurd h (by decide)

theorem skipSpace_cons {c : Char} (h : isSpace c = false) (cs : List Char) :
    skipSpace (c :: cs) = c :: cs := by
  rw [skipSpace, List.dropWhile_cons, if_neg (by rw [h]; exact Bool.false_ne_true)]

/-! ## The printed text of a value -/

theorem render_array (items : List Json) :
    (render (array items)).toList = '[' :: ((renderItems items).toList ++ [']']) := by
  simp [render]

theorem render_object (fields : List (String × Json)) :
    (render (object fields)).toList = '\x7b' :: ((renderFields fields).toList ++ ['\x7d']) := by
  simp [render]

theorem renderItems_cons (j : Json) {items : List Json} (hne : items ≠ []) :
    (renderItems (j :: items)).toList = j.render.toList ++ ',' :: (renderItems items).toList := by
  cases items with
  | nil => exact absurd rfl hne
  | cons i items => simp [renderItems]

/-- A field without what separates it from the next one. -/
def fieldText (key : String) (j : Json) : List Char :=
  '"' :: (key.toList.flatMap escapeChar ++ '"' :: ':' :: j.render.toList)

theorem renderFields_singleton (key : String) (j : Json) :
    (renderFields [(key, j)]).toList = fieldText key j := by
  simp [renderFields, fieldText, renderText_toList]

theorem renderFields_cons (key : String) (j : Json) {fields : List (String × Json)}
    (hne : fields ≠ []) :
    (renderFields ((key, j) :: fields)).toList =
      fieldText key j ++ ',' :: (renderFields fields).toList := by
  cases fields with
  | nil => exact absurd rfl hne
  | cons f fields => simp [renderFields, fieldText, renderText_toList]

theorem ReadsAs.opens {j v : Json} (h : ReadsAs j v) :
    ∃ c cs, j.render.toList = c :: cs ∧ opens c = true := by
  cases h with
  | null => exact ⟨_, _, rfl, rfl⟩
  | bool b => cases b <;> exact ⟨_, _, rfl, rfl⟩
  | number h =>
    obtain ⟨c, cs, htext, hc⟩ := numeral_cons h
    exact ⟨c, cs, by rw [render, htext], by rw [Json.opens, hc, Bool.true_or]⟩
  | string s => exact ⟨_, _, renderText_toList s, rfl⟩
  | array h => exact ⟨_, _, render_array _, rfl⟩
  | object h => exact ⟨_, _, render_object _, rfl⟩

theorem ItemsReadAs.opens {items vs : List Json} (h : ItemsReadAs items vs) (hne : items ≠ []) :
    ∃ c cs, (renderItems items).toList = c :: cs ∧ Json.opens c = true := by
  cases h with
  | nil => exact absurd rfl hne
  | @cons j v items vs h hrest =>
    obtain ⟨c, cs, hj, hc⟩ := h.opens
    obtain rfl | hitems := eq_or_ne items []
    · exact ⟨c, cs, by rw [renderItems, hj], hc⟩
    · exact ⟨c, _, by rw [renderItems_cons j hitems, hj]; rfl, hc⟩

theorem renderFields_opens {fields : List (String × Json)} (hne : fields ≠ []) :
    ∃ cs, (renderFields fields).toList = '"' :: cs := by
  match fields with
  | [(key, j)] => exact ⟨_, renderFields_singleton key j⟩
  | (key, j) :: f :: fields => exact ⟨_, renderFields_cons key j (List.cons_ne_nil f fields)⟩

/-! ## Reading it -/

theorem parseValue_number (fuel : ℕ) {c : Char} (hc : isNumberChar c = true) (cs : List Char) :
    parseValue (fuel + 1) (c :: cs) = parseNumber (c :: cs) := by
  have hopens : opens c = true := by rw [opens, hc, Bool.true_or]
  rw [parseValue, skipSpace_cons (opens_cases hopens).1]
  split <;> first | rfl | (rename_i heq; cases heq; exact absurd hc (by decide))

theorem parseValue_array (fuel : ℕ) {c : Char} (hc : opens c = true) (cs : List Char) :
    parseValue (fuel + 1) ('[' :: c :: cs) = parseItems fuel [] (c :: cs) := by
  obtain ⟨hspace, hclose⟩ := opens_cases hc
  rw [parseValue, skipSpace_cons rfl]
  simp only [skipSpace_cons hspace]
  split
  case h_1 heq => exact absurd (List.cons.inj heq).1 hclose
  case h_2 => rfl

theorem parseValue_object (fuel : ℕ) (cs : List Char) :
    parseValue (fuel + 1) ('\x7b' :: '"' :: cs) = parseFields fuel [] ('"' :: cs) := by
  rw [parseValue, skipSpace_cons rfl]
  rfl

theorem parseItems_next {fuel : ℕ} {acc : List Json} {cs rest : List Char} {v : Json}
    (h : parseValue fuel cs = some (v, ',' :: rest)) :
    parseItems (fuel + 1) acc cs = parseItems fuel (v :: acc) rest := by
  rw [parseItems, h]
  rfl

theorem parseItems_last {fuel : ℕ} {acc : List Json} {cs rest : List Char} {v : Json}
    (h : parseValue fuel cs = some (v, ']' :: rest)) :
    parseItems (fuel + 1) acc cs = some (array (acc.reverse ++ [v]), rest) := by
  rw [parseItems, h, ← List.reverse_cons]
  rfl

theorem fieldText_append (key : String) (j : Json) (rest : List Char) :
    fieldText key j ++ rest =
      '"' :: (key.toList.flatMap escapeChar ++ '"' :: ':' :: (j.render.toList ++ rest)) := by
  simp [fieldText]

theorem parseFields_next {fuel : ℕ} {acc : List (String × Json)} {key : String} {j v : Json}
    {rest : List Char} (h : parseValue fuel (j.render.toList ++ ',' :: rest) = some (v, ',' :: rest)) :
    parseFields (fuel + 1) acc (fieldText key j ++ ',' :: rest) =
      parseFields fuel ((key, v) :: acc) rest := by
  rw [fieldText_append, parseFields, skipSpace_cons rfl]
  simp only [parseText_renderText, skipSpace_cons (c := ':') rfl, h]
  rfl

theorem parseFields_last {fuel : ℕ} {acc : List (String × Json)} {key : String} {j v : Json}
    {rest : List Char}
    (h : parseValue fuel (j.render.toList ++ '\x7d' :: rest) = some (v, '\x7d' :: rest)) :
    parseFields (fuel + 1) acc (fieldText key j ++ '\x7d' :: rest) =
      some (object (acc.reverse ++ [(key, v)]), rest) := by
  rw [fieldText_append, parseFields, skipSpace_cons rfl, ← List.reverse_cons]
  simp only [parseText_renderText, skipSpace_cons (c := ':') rfl, h]
  rfl

theorem endsNumber_cons {c : Char} (hc : isNumberChar c = false) (rest : List Char) :
    EndsNumber (c :: rest) := fun _ h => Option.some.inj h ▸ hc

mutual

theorem ReadsAs.parseValue {j v : Json} (h : ReadsAs j v) {fuel : ℕ} {rest : List Char}
    (hfuel : j.render.toList.length < fuel) (hrest : EndsNumber rest) :
    Json.parseValue fuel (j.render.toList ++ rest) = some (v, rest) := by
  obtain ⟨fuel, rfl⟩ := Nat.exists_eq_succ_of_ne_zero (Nat.ne_of_gt (Nat.zero_lt_of_lt hfuel))
  cases h with
  | null => rfl
  | bool b => cases b <;> rfl
  | number hv =>
    obtain ⟨c, cs, htext, hc⟩ := numeral_cons hv
    rw [render, htext, List.cons_append, parseValue_number _ hc, ← List.cons_append, ← htext,
      parseNumber_append hv hrest]
  | string s =>
    rw [render, renderText_toList, List.cons_append, Json.parseValue, skipSpace_cons rfl]
    simp only [List.append_assoc, List.singleton_append, parseText_renderText, Option.map_some]
  | @array items vs hitems =>
    obtain rfl | hne := eq_or_ne items []
    · cases hitems
      rfl
    · obtain ⟨c, cs, htext, hc⟩ := hitems.opens hne
      rw [render_array] at hfuel ⊢
      simp only [List.length_cons, List.length_append] at hfuel
      rw [List.cons_append, List.append_assoc, htext, List.cons_append, parseValue_array _ hc,
        ← List.cons_append, ← htext, List.singleton_append, hitems.parseItems hne (by omega)]
      rfl
  | @object fields vs hfields =>
    obtain rfl | hne := eq_or_ne fields []
    · cases hfields
      rfl
    · obtain ⟨cs, htext⟩ := renderFields_opens hne
      rw [render_object] at hfuel ⊢
      simp only [List.length_cons, List.length_append] at hfuel
      rw [List.cons_append, List.append_assoc, htext, List.cons_append, parseValue_object,
        ← List.cons_append, ← htext, List.singleton_append, hfields.parseFields hne (by omega)]
      rfl

theorem ItemsReadAs.parseItems {items vs : List Json} (h : ItemsReadAs items vs) (hne : items ≠ [])
    {fuel : ℕ} {acc : List Json} {rest : List Char}
    (hfuel : (renderItems items).toList.length + 1 < fuel) :
    Json.parseItems fuel acc ((renderItems items).toList ++ ']' :: rest) =
      some (Json.array (acc.reverse ++ vs), rest) := by
  obtain ⟨fuel, rfl⟩ := Nat.exists_eq_succ_of_ne_zero (Nat.ne_of_gt (Nat.zero_lt_of_lt hfuel))
  cases h with
  | nil => exact absurd rfl hne
  | @cons j v items vs hj hitems =>
    obtain rfl | hmore := eq_or_ne items []
    · cases hitems
      rw [renderItems] at hfuel ⊢
      exact parseItems_last (hj.parseValue (by omega) (endsNumber_cons rfl rest))
    · rw [renderItems_cons j hmore] at hfuel ⊢
      simp only [List.length_cons, List.length_append] at hfuel
      rw [List.append_assoc, List.cons_append,
        parseItems_next (hj.parseValue (by omega) (endsNumber_cons rfl _)),
        hitems.parseItems hmore (by omega), List.reverse_cons, List.append_assoc,
        List.singleton_append]

theorem FieldsReadAs.parseFields {fields vs : List (String × Json)} (h : FieldsReadAs fields vs)
    (hne : fields ≠ []) {fuel : ℕ} {acc : List (String × Json)} {rest : List Char}
    (hfuel : (renderFields fields).toList.length + 1 < fuel) :
    Json.parseFields fuel acc ((renderFields fields).toList ++ '\x7d' :: rest) =
      some (Json.object (acc.reverse ++ vs), rest) := by
  obtain ⟨fuel, rfl⟩ := Nat.exists_eq_succ_of_ne_zero (Nat.ne_of_gt (Nat.zero_lt_of_lt hfuel))
  cases h with
  | nil => exact absurd rfl hne
  | @cons key j v fields vs hj hfields =>
    obtain rfl | hmore := eq_or_ne fields []
    · cases hfields
      rw [renderFields_singleton] at hfuel ⊢
      simp only [fieldText, List.length_cons, List.length_append] at hfuel
      exact parseFields_last (hj.parseValue (by omega) (endsNumber_cons rfl rest))
    · rw [renderFields_cons key j hmore] at hfuel ⊢
      simp only [fieldText, List.length_cons, List.length_append] at hfuel
      rw [List.append_assoc, List.cons_append,
        parseFields_next (hj.parseValue (by omega) (endsNumber_cons rfl _)),
        hfields.parseFields hmore (by omega), List.reverse_cons, List.append_assoc,
        List.singleton_append]

end

/-- A printed value is read back, numbers as their numerals read. -/
theorem ReadsAs.parse?_render {j v : Json} (h : ReadsAs j v) : parse? j.render = some v := by
  have hvalue : Json.parseValue (j.render.toList.length + 1) j.render.toList = some (v, []) := by
    have hend : EndsNumber [] := fun _ hc => nomatch hc
    have hread := h.parseValue (Nat.lt_succ_self _) hend
    rwa [List.append_nil] at hread
  rw [parse?, hvalue]
  rfl

end Dispatch.Json

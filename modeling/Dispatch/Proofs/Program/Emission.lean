import Mathlib.Data.List.Forall2
import Mathlib.Data.List.Perm.Basic
import Dispatch.Program.Build

/-! # What building adds to a program

* `Emits`: from any draft of `n` columns, an action answers `b` and appends given columns and rows,
  keeping count of the binary ones.
* `Adds`: the same seen from outside: how many columns there are afterwards, which of them the answer
  owns, that no row mentions a column yet to come, and what it means for values to fit all that was
  appended.

Actions compose by `Adds.bind` and `Adds.mapM`, so the meaning of a whole program is put together from
the meanings of its smallest parts. Nothing here depends on the arithmetic.
-/

namespace Dispatch
set_option autoImplicit false

variable {α : Type}

/-! ## Draft and answer -/

namespace Build
variable {β γ ι : Type}

/-- The action answers `b` and appends these columns and rows to any draft of `n` columns. -/
def Emits (m : Build α β) (n : ℕ) (b : β) (columns : List (Column α)) (rows : List (Row α)) :
    Prop :=
  ∀ d : Draft α, d.columns.size = n →
    StateT.run m d = (b, ⟨d.columns ++ columns.toArray, d.rows ++ rows.toArray,
      d.binaries + columns.countP Column.integer⟩)

theorem emits_pure (n : ℕ) (b : β) : Emits (pure b : Build α β) n b [] [] := by
  intro d _
  show (b, d) = _
  simp

theorem Emits.bind {m : Build α β} {f : β → Build α γ} {n : ℕ} {b : β} {c : γ}
    {columns columns' : List (Column α)} {rows rows' : List (Row α)}
    (hm : Emits m n b columns rows) (hf : Emits (f b) (n + columns.length) c columns' rows') :
    Emits (m >>= f) n c (columns ++ columns') (rows ++ rows') := by
  intro d hd
  rw [StateT.run_bind, hm d hd]
  have hsize : (d.columns ++ columns.toArray).size = n + columns.length := by simp [hd]
  refine (hf _ hsize).trans ?_
  simp [Array.append_assoc, Nat.add_assoc]

theorem emits_column (n : ℕ) {c : Column α} (h : c.integer = false) :
    Emits (column c) n n [c] [] := by
  intro d hd
  subst hd
  simp [column, StateT.run, modifyGet, MonadStateOf.modifyGet, StateT.modifyGet, pure, h]

theorem emits_binary [Scalar α] (n : ℕ) : Emits (binary : Build α ℕ) n n [.binary] [] := by
  intro d hd
  subst hd
  simp [binary, column, Column.binary, StateT.run, modify, modifyGet, MonadStateOf.modifyGet,
    StateT.modifyGet, bind, StateT.bind, pure]

theorem emits_row (n : ℕ) (r : Row α) : Emits (row r) n () [] [r] := by
  intro d _
  simp [row, StateT.run, modify, modifyGet, MonadStateOf.modifyGet, StateT.modifyGet, pure]

end Build

/-! ## Values that fit -/

section
variable [Scalar α]

/-- The values of the columns `n`, `n + 1`, … lie inside these columns. -/
def HoldFrom (n : ℕ) (columns : List (Column α)) (values : ℕ → α) : Prop :=
  ∀ (i : ℕ) (c : Column α), columns[i]? = some c → c.holds (values (n + i)) = true

def RowsHold (rows : List (Row α)) (values : ℕ → α) : Prop := ∀ r ∈ rows, r.holds values = true

/-- No row mentions a column from `n` on. -/
def MentionBelow (n : ℕ) (rows : List (Row α)) : Prop := ∀ r ∈ rows, ∀ t ∈ r.terms, t.1 < n

theorem holdFrom_nil (n : ℕ) (values : ℕ → α) : HoldFrom n [] values := by
  intro i c h
  simp at h

theorem holdFrom_append (n : ℕ) (xs ys : List (Column α)) (values : ℕ → α) :
    HoldFrom n (xs ++ ys) values ↔ HoldFrom n xs values ∧ HoldFrom (n + xs.length) ys values := by
  constructor
  · intro h
    refine ⟨fun i c hi => ?_, fun i c hi => ?_⟩
    · have hlt : i < xs.length := (List.getElem?_eq_some_iff.mp hi).1
      exact h i c (by rw [List.getElem?_append_left hlt, hi])
    · have := h (xs.length + i) c (by
        rw [List.getElem?_append_right (Nat.le_add_right _ _), Nat.add_sub_cancel_left, hi])
      rwa [Nat.add_assoc]
  · rintro ⟨hx, hy⟩ i c hi
    by_cases hlt : i < xs.length
    · exact hx i c (by rwa [List.getElem?_append_left hlt] at hi)
    · have hle : xs.length ≤ i := Nat.le_of_not_lt hlt
      rw [List.getElem?_append_right hle] at hi
      have := hy (i - xs.length) c hi
      rwa [Nat.add_assoc, Nat.add_sub_cancel' hle] at this

theorem holdFrom_singleton (n : ℕ) (c : Column α) (values : ℕ → α) :
    HoldFrom n [c] values ↔ c.holds (values n) = true := by
  constructor
  · intro h
    exact h 0 c rfl
  · intro h i c' hi
    cases i with
    | zero =>
      obtain rfl : c = c' := by simpa using hi
      exact h
    | succ i => simp at hi

theorem rowsHold_append (xs ys : List (Row α)) (values : ℕ → α) :
    RowsHold (xs ++ ys) values ↔ RowsHold xs values ∧ RowsHold ys values := by
  simp only [RowsHold, List.mem_append, or_imp, forall_and]

omit [Scalar α] in
theorem mentionBelow_append (n : ℕ) (xs ys : List (Row α)) :
    MentionBelow n (xs ++ ys) ↔ MentionBelow n xs ∧ MentionBelow n ys := by
  simp only [MentionBelow, List.mem_append, or_imp, forall_and]

omit [Scalar α] in
theorem MentionBelow.mono {n k : ℕ} {rows : List (Row α)} (h : MentionBelow n rows) (hk : n ≤ k) :
    MentionBelow k rows := fun r hr t ht => Nat.lt_of_lt_of_le (h r hr t ht) hk

/-! ## What an action adds -/

/-- The numbers of columns that start at `n`, each with whether it is binary. -/
def numbered (n : ℕ) (columns : List (Column α)) : List (ℕ × Bool) :=
  (columns.zipIdx n).map fun (c, i) => (i, c.integer)

omit [Scalar α] in
theorem numbered_append (n : ℕ) (xs ys : List (Column α)) :
    numbered n (xs ++ ys) = numbered n xs ++ numbered (n + xs.length) ys := by
  rw [numbered, List.zipIdx_append, List.map_append, Nat.add_comm]
  rfl

/-- Integer columns are binary. -/
def OnlyBinary (columns : List (Column α)) : Prop :=
  ∀ c ∈ columns, c.integer = true → c = .binary

theorem onlyBinary_append {xs ys : List (Column α)} :
    OnlyBinary (xs ++ ys) ↔ OnlyBinary xs ∧ OnlyBinary ys := List.forall_mem_append

omit [Scalar α] in
theorem numbered_fst (n : ℕ) (columns : List (Column α)) :
    (numbered n columns).map Prod.fst = List.range' n columns.length := by
  rw [numbered, List.map_map, ← List.zipIdx_map_snd]
  rfl

namespace Build
variable {β γ ι : Type}

/-- From `n` columns the action leads to `k` columns. Its answer `b` owns the new ones, its rows
mention none after them, integer columns are binary, and values hold in all that was added just when
they fit. -/
structure Adds (m : Build α β) (n k : ℕ) (b : β) (owned : List (ℕ × Bool))
    (fits : (ℕ → α) → Prop) : Prop where
  added : ∃ columns rows, Emits m n b columns rows ∧ k = n + columns.length ∧
    owned.Perm (numbered n columns) ∧ OnlyBinary columns ∧ MentionBelow k rows ∧
    ∀ values, (HoldFrom n columns values ∧ RowsHold rows values) ↔ fits values

theorem Adds.le {m : Build α β} {n k : ℕ} {b : β} {owned : List (ℕ × Bool)}
    {fits : (ℕ → α) → Prop} (h : Adds m n k b owned fits) : n ≤ k := by
  obtain ⟨columns, _, _, hk, _⟩ := h.added
  omega

theorem Adds.perm_range' {m : Build α β} {n k : ℕ} {b : β} {owned : List (ℕ × Bool)}
    {fits : (ℕ → α) → Prop} (h : Adds m n k b owned fits) :
    (owned.map Prod.fst).Perm (List.range' n (k - n)) := by
  obtain ⟨columns, _, _, hk, hperm, _⟩ := h.added
  have hlen : columns.length = k - n := by omega
  rw [← hlen, ← numbered_fst]
  exact hperm.map Prod.fst

theorem Adds.mem_owned {m : Build α β} {n k : ℕ} {b : β} {owned : List (ℕ × Bool)}
    {fits : (ℕ → α) → Prop} (h : Adds m n k b owned fits) {c : ℕ} :
    c ∈ owned.map Prod.fst ↔ n ≤ c ∧ c < k := by
  have hle := h.le
  rw [h.perm_range'.mem_iff, List.mem_range'_1]
  omega

theorem Adds.nodup {m : Build α β} {n k : ℕ} {b : β} {owned : List (ℕ × Bool)}
    {fits : (ℕ → α) → Prop} (h : Adds m n k b owned fits) : (owned.map Prod.fst).Nodup :=
  h.perm_range'.nodup_iff.mpr List.nodup_range'

theorem Adds.congr {m : Build α β} {n k : ℕ} {b : β} {owned owned' : List (ℕ × Bool)}
    {fits fits' : (ℕ → α) → Prop} (h : Adds m n k b owned fits) (ho : owned'.Perm owned)
    (hf : ∀ values, fits values ↔ fits' values) : Adds m n k b owned' fits' := by
  obtain ⟨columns, rows, he, hk, hperm, hbinary, hmention, hfits⟩ := h.added
  exact ⟨columns, rows, he, hk, ho.trans hperm, hbinary, hmention,
    fun values => (hfits values).trans (hf values)⟩

theorem adds_pure (n : ℕ) (b : β) : Adds (pure b : Build α β) n n b [] (fun _ => True) := by
  refine ⟨[], [], emits_pure n b, rfl, List.Perm.refl _, List.forall_mem_nil _, ?_, fun values => ?_⟩
  · intro r hr
    simp at hr
  · refine ⟨fun _ => trivial, fun _ => ⟨holdFrom_nil n values, fun r hr => ?_⟩⟩
    simp at hr

theorem Emits.adds_column {m : Build α ℕ} {n : ℕ} {c : Column α} (he : Emits m n n [c] [])
    (hc : c.integer = true → c = .binary) :
    Adds m n (n + 1) n [(n, c.integer)] (fun values => c.holds (values n) = true) := by
  refine ⟨[c], [], he, rfl, List.Perm.refl _, List.forall_mem_singleton.mpr hc, ?_, fun values => ?_⟩
  · intro r hr
    simp at hr
  · rw [holdFrom_singleton, and_iff_left]
    intro r hr
    simp at hr

theorem adds_column (n : ℕ) (c : Column α) (h : c.integer = false := by rfl) :
    Adds (column c) n (n + 1) n [(n, false)] (fun values => c.holds (values n) = true) :=
  h ▸ (emits_column n h).adds_column fun hc => absurd (h.symm.trans hc) Bool.false_ne_true

theorem adds_binary (n : ℕ) : Adds (binary : Build α ℕ) n (n + 1) n [(n, true)]
    (fun values => Column.binary.holds (values n) = true) :=
  (emits_binary n).adds_column fun _ => rfl

theorem adds_row {n : ℕ} {r : Row α} (h : ∀ t ∈ r.terms, t.1 < n) :
    Adds (row r) n n () [] (fun values => r.holds values = true) := by
  refine ⟨[], [r], emits_row n r, rfl, List.Perm.refl _, List.forall_mem_nil _, ?_, fun values => ?_⟩
  · intro r' hr
    obtain rfl : r' = r := by simpa using hr
    exact h
  · rw [and_iff_right (holdFrom_nil n values)]
    simp [RowsHold]

theorem adds_rowWhen {n : ℕ} {r : Row α} (b : Bool) (h : ∀ t ∈ r.terms, t.1 < n) :
    Adds (rowWhen b r) n n () [] (fun values => b = true → r.holds values = true) := by
  cases b with
  | true => exact (adds_row h).congr (List.Perm.refl _) fun values => by simp
  | false => exact (adds_pure n ()).congr (List.Perm.refl _) fun values => by simp

theorem Adds.bind {m : Build α β} {f : β → Build α γ} {n k l : ℕ} {b : β} {c : γ}
    {owned owned' : List (ℕ × Bool)} {fits fits' : (ℕ → α) → Prop}
    (hm : Adds m n k b owned fits) (hf : Adds (f b) k l c owned' fits') :
    Adds (m >>= f) n l c (owned ++ owned') (fun values => fits values ∧ fits' values) := by
  obtain ⟨columns, rows, he, rfl, hperm, hbinary, hmention, hfits⟩ := hm.added
  obtain ⟨columns', rows', he', rfl, hperm', hbinary', hmention', hfits'⟩ := hf.added
  refine ⟨columns ++ columns', rows ++ rows', he.bind he', ?_, ?_,
    onlyBinary_append.mpr ⟨hbinary, hbinary'⟩, ?_, fun values => ?_⟩
  · rw [List.length_append, Nat.add_assoc]
  · rw [numbered_append]
    exact hperm.append hperm'
  · rw [mentionBelow_append]
    exact ⟨hmention.mono (Nat.le_add_right _ _), hmention'⟩
  · rw [holdFrom_append, rowsHold_append, and_and_and_comm, hfits, hfits']

theorem Adds.map {m : Build α β} {n k : ℕ} {b : β} {owned : List (ℕ × Bool)} {fits : (ℕ → α) → Prop}
    (h : Adds m n k b owned fits) (g : β → γ) :
    Adds (m >>= fun b => pure (g b)) n k (g b) owned fits :=
  (h.bind (adds_pure k (g b))).congr (by rw [List.append_nil]) fun values => by
    rw [and_iff_left trivial]

/-- An action for each element of a list. What holds of every single one, wherever it starts from
`start` on, holds along the list. -/
theorem Adds.mapM {f : ι → Build α β} {s : ℕ} {shape : ι → β → Prop} {owns : β → List (ℕ × Bool)}
    {fits : ι → β → (ℕ → α) → Prop} (xs : List ι)
    (h : ∀ x ∈ xs, ∀ n, s ≤ n → ∃ k b, shape x b ∧ Adds (f x) n k b (owns b) (fits x b)) :
    ∀ n, s ≤ n → ∃ k bs, List.Forall₂ shape xs bs ∧
      Adds (xs.mapM f) n k bs (bs.flatMap owns)
        (fun values => List.Forall₂ (fun x b => fits x b values) xs bs) := by
  induction xs with
  | nil =>
    intro n _
    exact ⟨n, [], .nil, (adds_pure n []).congr (List.Perm.refl _) fun values => by simp⟩
  | cons x xs ih =>
    intro n hn
    obtain ⟨k, b, hshape, hx⟩ := h x List.mem_cons_self n hn
    have hrest := ih fun y hy => h y (List.mem_cons_of_mem x hy)
    obtain ⟨l, bs, hshapes, hxs⟩ := hrest k (Nat.le_trans hn hx.le)
    refine ⟨l, b :: bs, .cons hshape hshapes, ?_⟩
    rw [List.mapM_cons]
    refine (hx.bind (hxs.map (b :: ·))).congr ?_ fun values => ?_
    · rw [List.flatMap_cons]
    · rw [List.forall₂_cons]

theorem Adds.forM {f : ι → Build α Unit} {fits : ι → (ℕ → α) → Prop} {n : ℕ} (xs : List ι)
    (h : ∀ x ∈ xs, Adds (f x) n n () [] (fits x)) :
    Adds (xs.forM f) n n () [] (fun values => ∀ x ∈ xs, fits x values) := by
  induction xs with
  | nil => exact (adds_pure n ()).congr (List.Perm.refl _) fun values => by simp
  | cons x xs ih =>
    have hx := h x List.mem_cons_self
    have hxs := ih fun y hy => h y (List.mem_cons_of_mem x hy)
    show Adds (f x >>= fun _ => xs.forM f) n n () [] _
    exact (hx.bind hxs).congr (List.Perm.refl _) fun values => by
      rw [List.forall_mem_cons]

end Build

end

end Dispatch

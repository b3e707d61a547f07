import Mathlib.Data.List.Nodup
import Dispatch.Json.Record
import Dispatch.Proofs.Json.Printed

/-! # Values that come back from JSON

* `Json.Returns`: a value comes back when it is written, printed and read.
* `Json.nullOr`: reading a field that holds `null` where there is nothing.
* `Json.FieldsReadAs.need`, `Json.FieldsReadAs.maybe`, `Json.FieldsReadAs.orElse`: the fields of a printed
  object, each found under its own key.
-/

namespace Dispatch
set_option autoImplicit false

variable {β : Type}

/-- One field after the other: what is read first is `b`, and the rest goes on from there. -/
theorem bind_of_eq_some {γ : Type} {x : Option β} {f : β → Option γ} {b : β} {c : Option γ}
    (hx : x = some b) (hf : f b = c) : x >>= f = c := by
  rw [hx]
  exact hf

theorem Record.raw?_of_mem {r : Record} (hkeys : (r.map Prod.fst).Nodup) {key : String} {j : Json}
    (hmem : (key, j) ∈ r) : r.raw? key = some j := by
  have hfind : (r.reverse.find? fun f => f.1 == key) = some (key, j) := by
    cases h : r.reverse.find? fun f => f.1 == key with
    | none => exact absurd (List.find?_eq_none.mp h _ (List.mem_reverse.mpr hmem)) (by simp)
    | some f =>
      have hf : f ∈ r := List.mem_reverse.mp (List.mem_of_find?_eq_some h)
      have hsame : f.1 = key := by simpa using List.find?_some h
      rw [List.inj_on_of_nodup_map hkeys hf hmem hsame]
  rw [raw?, hfind, Option.map_some]

theorem Record.raw?_of_notMem {r : Record} {key : String} (h : key ∉ r.map Prod.fst) :
    r.raw? key = none := by
  have hfind : (r.reverse.find? fun f => f.1 == key) = none := by
    refine List.find?_eq_none.mpr fun f hf hkey => h ?_
    exact List.mem_map.mpr ⟨f, List.mem_reverse.mp hf, beq_iff_eq.mp hkey⟩
  rw [raw?, hfind, Option.map_none]

namespace Json

/-! ## Single values -/

/-- Printed, `b` can be read, and what is read is `b` again. -/
structure Returns (write : β → Json) (read : Json → Option β) (b : β) : Prop where
  readable : ∃ v, ReadsAs (write b) v
  read_eq : ∀ v, ReadsAs (write b) v → read v = some b

theorem Returns.parse {write : β → Json} {read : Json → Option β} {b : β} (h : Returns write read b) :
    (parse? (write b).render).bind read = some b := by
  obtain ⟨v, hv⟩ := h.readable
  rw [hv.parse?_render, Option.bind_some, h.read_eq v hv]

theorem returns_string (s : String) : Returns .string string? s where
  readable := ⟨_, .string s⟩
  read_eq := by rintro _ ⟨⟩; rfl

theorem returns_bool (b : Bool) : Returns .bool bool? b where
  readable := ⟨_, .bool b⟩
  read_eq := by rintro _ ⟨⟩; rfl

/-- What is read where `null` stands for nothing. -/
def nullOr (read : Json → Option β) : Json → Option (Option β)
  | null => some none
  | j => (read j).map some

theorem Returns.nullOr_eq {write : β → Json} {read : Json → Option β} {b : β}
    (h : Returns write read b) (hnull : read null = none) {v : Json} (hv : ReadsAs (write b) v) :
    nullOr read v = some (some b) := by
  have hread := h.read_eq v hv
  cases v with
  | null => rw [hnull] at hread; cases hread
  | _ => rw [nullOr, hread, Option.map_some]; exact nofun

theorem returns_optional {write : β → Json} {read : Json → Option β} {o : Option β}
    (hnull : read null = none) (h : ∀ b ∈ o, Returns write read b) :
    Returns (optional write) (nullOr read) o := by
  cases o with
  | none => exact ⟨⟨_, .null⟩, by rintro _ ⟨⟩; rfl⟩
  | some b => exact ⟨(h b rfl).readable, fun v hv => (h b rfl).nullOr_eq hnull hv⟩

theorem exists_itemsReadAs {items : List Json} (h : ∀ j ∈ items, ∃ v, ReadsAs j v) :
    ∃ vs, ItemsReadAs items vs := by
  induction items with
  | nil => exact ⟨[], .nil⟩
  | cons j items ih =>
    obtain ⟨⟨v, hv⟩, hitems⟩ := List.forall_mem_cons.mp h
    obtain ⟨vs, hvs⟩ := ih hitems
    exact ⟨v :: vs, .cons hv hvs⟩

theorem ItemsReadAs.mapM {write : β → Json} {read : Json → Option β} {bs : List β} {vs : List Json}
    (hvs : ItemsReadAs (bs.map write) vs) (h : ∀ b ∈ bs, Returns write read b) :
    vs.mapM read = some bs := by
  induction bs generalizing vs with
  | nil => cases hvs; rfl
  | cons b bs ih =>
    obtain ⟨hb, hbs⟩ := List.forall_mem_cons.mp h
    cases hvs with
    | cons hv hrest => simp [List.mapM_cons, hb.read_eq _ hv, ih hrest hbs]

theorem returns_list {write : β → Json} {read : Json → Option β} {bs : List β}
    (h : ∀ b ∈ bs, Returns write read b) :
    Returns (fun bs => .array (bs.map write)) (listOf? read) bs where
  readable := by
    obtain ⟨vs, hvs⟩ := exists_itemsReadAs (List.forall_mem_map.mpr fun b hb => (h b hb).readable)
    exact ⟨_, .array hvs⟩
  read_eq := by
    rintro _ ⟨⟩
    case array vs hvs => exact hvs.mapM h

/-! ## Objects -/

theorem FieldsReadAs.keys {fields vs : List (String × Json)} (h : FieldsReadAs fields vs) :
    vs.map Prod.fst = fields.map Prod.fst := by
  induction fields generalizing vs with
  | nil => cases h; rfl
  | cons f fields ih =>
    cases h with
    | cons key hj hfields => rw [List.map_cons, List.map_cons, ih hfields]

theorem FieldsReadAs.hasKey {fields vs : List (String × Json)} (h : FieldsReadAs fields vs)
    (key : String) : (object vs).hasKey key = (object fields).hasKey key := by
  have hany (r : List (String × Json)) :
      (object r).hasKey key = (r.map Prod.fst).any (· == key) := by
    rw [List.any_map]
    rfl
  rw [hany, hany, h.keys]

theorem FieldsReadAs.exists_mem {fields vs : List (String × Json)} (h : FieldsReadAs fields vs)
    {key : String} {j : Json} (hmem : (key, j) ∈ fields) : ∃ v, (key, v) ∈ vs ∧ ReadsAs j v := by
  induction fields generalizing vs with
  | nil => cases hmem
  | cons f fields ih =>
    cases h with
    | cons key' hj hfields =>
      rcases List.mem_cons.mp hmem with heq | hmem
      · obtain ⟨rfl, rfl⟩ := Prod.mk.inj heq
        exact ⟨_, List.mem_cons_self, hj⟩
      · obtain ⟨v, hv, hreads⟩ := ih hfields hmem
        exact ⟨v, List.mem_cons_of_mem _ hv, hreads⟩

theorem exists_fieldsReadAs {fields : List (String × Json)}
    (h : ∀ f ∈ fields, ∃ v, ReadsAs f.2 v) : ∃ vs, FieldsReadAs fields vs := by
  induction fields with
  | nil => exact ⟨[], .nil⟩
  | cons f fields ih =>
    obtain ⟨⟨v, hv⟩, hfields⟩ := List.forall_mem_cons.mp h
    obtain ⟨vs, hvs⟩ := ih hfields
    exact ⟨(f.1, v) :: vs, .cons f.1 hv hvs⟩

theorem returns_object {write : β → Json} {read : Json → Option β} {b : β}
    {fields : List (String × Json)} (hwrite : write b = .object fields)
    (hreadable : ∀ f ∈ fields, ∃ v, ReadsAs f.2 v)
    (hread : ∀ vs, FieldsReadAs fields vs → read (.object vs) = some b) : Returns write read b where
  readable := by
    obtain ⟨vs, hvs⟩ := exists_fieldsReadAs hreadable
    exact ⟨_, hwrite ▸ ReadsAs.object hvs⟩
  read_eq := by
    intro v hv
    rw [hwrite] at hv
    cases hv with
    | object hvs => exact hread _ hvs

section
variable {fields vs : List (String × Json)} {key : String} {write : β → Json}
  {read : Json → Option β} {b : β}

theorem FieldsReadAs.raw? (h : FieldsReadAs fields vs) (hkeys : (fields.map Prod.fst).Nodup) {j : Json}
    (hmem : (key, j) ∈ fields) : ∃ v, Record.raw? vs key = some v ∧ ReadsAs j v := by
  obtain ⟨v, hv, hreads⟩ := h.exists_mem hmem
  exact ⟨v, Record.raw?_of_mem (h.keys ▸ hkeys) hv, hreads⟩

theorem FieldsReadAs.need (h : FieldsReadAs fields vs) (hkeys : (fields.map Prod.fst).Nodup) (i : ℕ)
    (hb : Returns write read b) (hi : fields[i]? = some (key, write b)) :
    Record.need vs key read = some b := by
  obtain ⟨v, hv, hreads⟩ := h.raw? hkeys (List.mem_of_getElem? hi)
  rw [Record.need, hv, Option.bind_some, hb.read_eq v hreads]

theorem FieldsReadAs.orElse (h : FieldsReadAs fields vs) (hkeys : (fields.map Prod.fst).Nodup) (i : ℕ)
    {default : β} (hb : Returns write read b) (hi : fields[i]? = some (key, write b)) :
    Record.orElse vs key default read = some b := by
  obtain ⟨v, hv, hreads⟩ := h.raw? hkeys (List.mem_of_getElem? hi)
  rw [Record.orElse, hv]
  exact hb.read_eq v hreads

theorem maybe_of_raw? {r : Record} {v : Json} (h : r.raw? key = some v) :
    Record.maybe r key read = nullOr read v := by
  rw [Record.maybe, h]
  cases v <;> rfl

theorem FieldsReadAs.maybe (h : FieldsReadAs fields vs) (hkeys : (fields.map Prod.fst).Nodup) (i : ℕ)
    {o : Option β} (ho : Returns (optional write) (nullOr read) o)
    (hi : fields[i]? = some (key, optional write o)) : Record.maybe vs key read = some o := by
  obtain ⟨v, hv, hreads⟩ := h.raw? hkeys (List.mem_of_getElem? hi)
  rw [maybe_of_raw? hv, ho.read_eq v hreads]

/-- A field that is left out where there is nothing. -/
theorem FieldsReadAs.maybe_present (h : FieldsReadAs fields vs) (hkeys : (fields.map Prod.fst).Nodup)
    (hnull : read null = none) {o : Option β} (hb : ∀ b ∈ o, Returns write read b)
    (hsome : ∀ b ∈ o, (key, write b) ∈ fields) (hnone : o = none → key ∉ fields.map Prod.fst) :
    Record.maybe vs key read = some o := by
  cases o with
  | none => rw [Record.maybe, Record.raw?_of_notMem (h.keys ▸ hnone rfl)]
  | some b =>
    obtain ⟨v, hv, hreads⟩ := h.raw? hkeys (hsome b rfl)
    rw [maybe_of_raw? hv, (hb b rfl).nullOr_eq hnull hreads]

end

end Json

/-- A record may be read from an object that has no other keys. -/
theorem RecordShape.read?_object (shape : RecordShape) {fields : List (String × Json)}
    (h : ∀ key ∈ fields.map Prod.fst, key ∈ shape.keys.map Prod.fst) :
    shape.read? (.object fields) = some fields := by
  have hknown : (fields.any fun f => !shape.keys.any fun k => k.1 == f.1) = false := by
    refine List.any_eq_false.mpr fun f hf => ?_
    obtain ⟨k, hk, hkey⟩ := List.mem_map.mp (h f.1 (List.mem_map_of_mem hf))
    have hany : (shape.keys.any fun k => k.1 == f.1) = true :=
      List.any_eq_true.mpr ⟨k, hk, beq_iff_eq.mpr hkey⟩
    simp [hany]
  rw [read?, hknown, Bool.and_false, if_neg Bool.false_ne_true]

end Dispatch

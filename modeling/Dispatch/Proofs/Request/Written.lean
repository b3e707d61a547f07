import Dispatch.Request.Reader
import Dispatch.Request.Writer
import Dispatch.Proofs.Exact.Basic
import Dispatch.Proofs.Json.Record
import Dispatch.Proofs.Request.Fields

/-! # Requests come back from JSON

* `ReadsBack`: a number whose numeral reads as the number.
* `Request.numbers`, `Request.zones`: the bare numbers and the samples of a request, and its zones.
* `Zone.Known`: the zone that a table finds by its name.
* `Request.read_written`: a request that is written, printed and read is the same request, whatever the
  table that its zones are known to.
-/

namespace Dispatch
set_option autoImplicit false

open Json

variable {α : Type}

/-! ## Numbers -/

def Amount.numbers : Amount α → List α
  | number v => [v]
  | text _ => []

def Series.numbers : Series α → List α
  | constant a => a.numbers
  | segments items => items.flatMap fun s => s.value.numbers
  | aligned s => s.values

def Request.numbers (r : Request α) : List α := r.fields.flatMap fun f => f.series.numbers

section
variable [Scalar α] [NumJson α]

/-- The numeral that `v` is written as is read to its end, and as `v`. -/
def ReadsBack (v : α) : Prop :=
  ∃ d whole d' whole', finiteJson v = .number d whole ∧
    parseNumber (renderNumber d whole).toList = some (.number d' whole', []) ∧
    Scalar.ofDecimal d' = v

theorem ReadsBack.isFinite {v : α} (h : ReadsBack v) : Scalar.isFinite v = true := by
  obtain ⟨_, _, _, _, hwrite, -⟩ := h
  by_contra hfinite
  rw [finiteJson, if_neg hfinite] at hwrite
  cases hwrite

theorem ReadsBack.readable {v : α} (h : ReadsBack v) : ∃ j, ReadsAs (finiteJson v) j := by
  obtain ⟨d, whole, d', whole', hwrite, hread, -⟩ := h
  exact ⟨_, hwrite ▸ ReadsAs.number hread⟩

theorem ReadsBack.read_eq {v : α} (h : ReadsBack v) {j : Json} (hj : ReadsAs (finiteJson v) j) :
    (∃ d whole, j = .number d whole) ∧ scalar? j = some v := by
  have hfinite := h.isFinite
  obtain ⟨d, whole, d', whole', hwrite, hread, rfl⟩ := h
  rw [hwrite] at hj
  cases hj with
  | number hj =>
    obtain rfl := (Prod.mk.inj (Option.some.inj (hj.symm.trans hread))).1
    exact ⟨⟨d', whole', rfl⟩, if_pos hfinite⟩

theorem ReadsBack.returns {v : α} (h : ReadsBack v) : Returns finiteJson scalar? v :=
  ⟨h.readable, fun _ hj => (h.read_eq hj).2⟩

theorem Amount.returns {a : Amount α} (h : ∀ v ∈ a.numbers, ReadsBack v) :
    Returns Amount.toJson Amount.ofJson? a := by
  cases a with
  | text s => exact ⟨⟨_, .string s⟩, by rintro _ ⟨⟩; rfl⟩
  | number v =>
    have hv := h v List.mem_cons_self
    refine ⟨hv.readable, fun j hj => ?_⟩
    obtain ⟨⟨d, whole, rfl⟩, hread⟩ := hv.read_eq hj
    rw [Amount.ofJson?, hread, Option.map_some]
    nofun

end

/-! ## Names -/

theorem returns_choice {β : Type} [Named β] (hnames : ∀ b : β, Named.ofName? (Named.name b) = some b)
    (b : β) : Returns choiceJson choice? b where
  readable := ⟨_, .string _⟩
  read_eq := by
    rintro _ ⟨⟩
    exact hnames b

/-- The table finds the zone by its name. -/
def Zone.Known [ZoneTable] (z : Zone) : Prop := ZoneTable.ofName? z.name = some z

def Series.zones : Series α → List Zone
  | aligned s => s.zone.toList
  | _ => []

def Request.zones (r : Request α) : List Zone :=
  r.zone.toList ++ r.fields.flatMap fun f => f.series.zones

theorem returns_zone [ZoneTable] {z : Zone} (h : z.Known) : Returns zoneJson zone? z where
  readable := ⟨_, .string _⟩
  read_eq := by
    rintro _ ⟨⟩
    exact h

theorem returns_zones [ZoneTable] {o : Option Zone} (h : ∀ z ∈ o, z.Known) :
    Returns (optional zoneJson) (nullOr zone?) o :=
  returns_optional rfl fun z hz => returns_zone (h z hz)

/-! ## Series -/

@[simp] theorem mem_present {key : String} {o : Option String} {f : String × Json} :
    f ∈ present key o ↔ ∃ s ∈ o, f = (key, .string s) := by
  cases o <;> simp [present]

theorem present_keys (key : String) (o : Option String) :
    List.Sublist ((present key o).map Prod.fst) [key] := by
  cases o <;> simp [present]

section
variable [Scalar α] [NumJson α]

/-- Every number in a series reads back, and the table knows its zone. -/
def Series.Legible [ZoneTable] (s : Series α) : Prop :=
  (∀ v ∈ s.numbers, ReadsBack v) ∧ ∀ z ∈ s.zones, z.Known

def StatedField.Legible [ZoneTable] (f : StatedField α) : Prop := f.series.Legible

theorem Segment.returns {s : Segment α} (h : ∀ v ∈ s.value.numbers, ReadsBack v) :
    Returns Segment.toJson Segment.ofJson? s := by
  have hvalue := Amount.returns h
  refine returns_object rfl ?_ fun fields hfields => ?_
  · intro f hf
    simp only [List.mem_append, mem_present, List.mem_singleton] at hf
    obtain (((⟨t, -, rfl⟩ | ⟨t, -, rfl⟩) | ⟨t, -, rfl⟩) | ⟨t, -, rfl⟩) | rfl := hf
    all_goals first | exact (returns_string t).readable | exact hvalue.readable
  · have hsub : List.Sublist ((present "datetime" s.datetime ++ present "start" s.start ++
        present "end" s.stop ++ present "duration" s.duration ++
        [("value", s.value.toJson)]).map Prod.fst) (shape.keys.map Prod.fst) := by
      simp only [List.map_append]
      exact ((((present_keys _ _).append (present_keys _ _)).append (present_keys _ _)).append
        (present_keys _ _)).append (.refl _)
    have hkeys := hsub.nodup (by decide)
    have hdatetime : Record.maybe fields "datetime" string? = some s.datetime :=
      hfields.maybe_present hkeys rfl (fun t _ => returns_string t) (fun t ht => by simpa using ht)
        (fun hnone => by simp [hnone])
    have hstart : Record.maybe fields "start" string? = some s.start :=
      hfields.maybe_present hkeys rfl (fun t _ => returns_string t) (fun t ht => by simpa using ht)
        (fun hnone => by simp [hnone])
    have hstop : Record.maybe fields "end" string? = some s.stop :=
      hfields.maybe_present hkeys rfl (fun t _ => returns_string t) (fun t ht => by simpa using ht)
        (fun hnone => by simp [hnone])
    have hduration : Record.maybe fields "duration" string? = some s.duration :=
      hfields.maybe_present hkeys rfl (fun t _ => returns_string t) (fun t ht => by simpa using ht)
        (fun hnone => by simp [hnone])
    have hvalue := hfields.need hkeys _ hvalue List.getElem?_concat_length
    refine bind_of_eq_some (shape.read?_object fun _ hk => hsub.subset (hfields.keys ▸ hk)) ?_
    exact bind_of_eq_some hdatetime <| bind_of_eq_some hstart <| bind_of_eq_some hstop <|
      bind_of_eq_some hduration <| bind_of_eq_some hvalue <| rfl

theorem AlignedSeries.returns [ZoneTable] {s : AlignedSeries α} (h : ∀ v ∈ s.values, ReadsBack v)
    (hzone : ∀ z ∈ s.zone, z.Known) : Returns AlignedSeries.toJson AlignedSeries.ofJson? s := by
  have hvalues := returns_list fun v hv => (h v hv).returns
  have hunit : Returns (optional .string) (nullOr string?) s.unit :=
    returns_optional rfl fun s _ => returns_string s
  have hzone := returns_zones hzone
  refine returns_object rfl ?_ fun fields hfields => ?_
  · simp only [List.forall_mem_cons]
    exact ⟨(returns_string _).readable, (returns_string _).readable, hvalues.readable,
      hunit.readable, hzone.readable, nofun⟩
  · have hkeys : (AlignedSeries.shape.keys.map Prod.fst).Nodup := by decide
    refine bind_of_eq_some (shape.read?_object fun _ hk => hfields.keys ▸ hk) ?_
    exact bind_of_eq_some (hfields.need hkeys 0 (returns_string _) rfl) <|
      bind_of_eq_some (hfields.need hkeys 1 (returns_string _) rfl) <|
      bind_of_eq_some (hfields.need hkeys 2 hvalues rfl) <|
      bind_of_eq_some (hfields.maybe hkeys 3 hunit rfl) <|
      bind_of_eq_some (hfields.maybe hkeys 4 hzone rfl) <|
      rfl

theorem Series.returns [ZoneTable] {s : Series α} (h : s.Legible) :
    Returns Series.toJson Series.ofJson? s := by
  obtain ⟨h, hzones⟩ := h
  cases s with
  | constant a =>
    have ha := Amount.returns h
    refine ⟨ha.readable, fun j hj => ?_⟩
    rw [ofJson?, ha.read_eq j hj]
  | segments items =>
    have hitems := returns_list fun s hs =>
      Segment.returns fun v hv => h v (List.mem_flatMap.mpr ⟨s, hs, hv⟩)
    refine ⟨hitems.readable, fun j hj => ?_⟩
    rw [ofJson?, hitems.read_eq j hj]
    cases hj
    rfl
  | aligned s =>
    have hs := AlignedSeries.returns h fun z hz => hzones z (Option.mem_toList.mpr hz)
    refine ⟨hs.readable, fun j hj => ?_⟩
    rw [ofJson?, hs.read_eq j hj]
    cases hj
    rfl

/-! ## Devices -/

omit [Scalar α] [NumJson α] in
theorem returns_texts (o : Option String) : Returns (optional .string) (nullOr string?) o :=
  returns_optional rfl fun s _ => returns_string s

theorem TimeWindow.returns (w : TimeWindow) : Returns TimeWindow.toJson TimeWindow.ofJson? w := by
  refine returns_object rfl ?_ fun fields hfields => ?_
  · simp only [List.forall_mem_cons]
    exact ⟨(returns_string _).readable, (returns_texts _).readable, (returns_texts _).readable, nofun⟩
  · have hkeys : (TimeWindow.shape.keys.map Prod.fst).Nodup := by decide
    refine bind_of_eq_some (shape.read?_object fun _ hk => hfields.keys ▸ hk) ?_
    exact bind_of_eq_some (hfields.need hkeys 0 (returns_string _) rfl) <|
      bind_of_eq_some (hfields.maybe hkeys 1 (returns_texts _) rfl) <|
      bind_of_eq_some (hfields.maybe hkeys 2 (returns_texts _) rfl) <|
      rfl

theorem returns_windows (ws : List TimeWindow) :
    Returns (fun ws => .array (ws.map TimeWindow.toJson)) (listOf? TimeWindow.ofJson?) ws :=
  returns_list fun w _ => w.returns

theorem ProcessModel.returns {m : ProcessModel α} (h : ∀ v ∈ m.power.numbers, ReadsBack v) :
    Returns ProcessModel.toJson ProcessModel.ofJson? m := by
  have hkind := returns_choice (fun b : ProcessKind => by cases b <;> rfl) m.kind
  have hpower := Amount.returns h
  have hdirection := returns_choice (fun b : Direction => by cases b <;> rfl) m.direction
  have hwindows := returns_windows m.timeRestrictions
  refine returns_object rfl ?_ fun fields hfields => ?_
  · simp only [List.forall_mem_cons]
    exact ⟨hkind.readable, hpower.readable, (returns_string _).readable, hdirection.readable,
      hwindows.readable, nofun⟩
  · have hkeys : (ProcessModel.shape.keys.map Prod.fst).Nodup := by decide
    refine bind_of_eq_some (shape.read?_object fun _ hk => hfields.keys ▸ hk) ?_
    exact bind_of_eq_some (hfields.need hkeys 0 hkind rfl) <|
      bind_of_eq_some (hfields.need hkeys 1 hpower rfl) <|
      bind_of_eq_some (hfields.need hkeys 2 (returns_string _) rfl) <|
      bind_of_eq_some (hfields.orElse hkeys 3 hdirection rfl) <|
      bind_of_eq_some (hfields.orElse hkeys 4 hwindows rfl) <|
      rfl

theorem returns_amounts [ZoneTable] {name : String} {a : Option (Amount α)} {admits : List Dimension}
    (h : ∀ f ∈ amountField name a admits, f.Legible) :
    Returns (optional Amount.toJson) (nullOr Amount.ofJson?) a :=
  returns_optional rfl fun _ ha =>
    Amount.returns (h _ (List.mem_map_of_mem (Option.mem_toList.mpr ha))).1

theorem returns_seriesField [ZoneTable] {name : String} {s : Option (Series α)} {admits : List Dimension}
    {reading : Reading} (h : ∀ f ∈ seriesField name s admits reading, f.Legible) :
    Returns (optional Series.toJson) (nullOr Series.ofJson?) s :=
  returns_optional rfl fun _ hs =>
    Series.returns (h _ (List.mem_map_of_mem (Option.mem_toList.mpr hs)))

theorem StorageModel.returns [ZoneTable] {m : StorageModel α} {name : String}
    (h : ∀ f ∈ m.fields name, f.Legible) :
    Returns StorageModel.toJson StorageModel.ofJson? m := by
  simp only [fields, List.forall_mem_append] at h
  obtain ⟨⟨⟨hlevels, hprices⟩, hband⟩, hdynamics⟩ := h
  simp only [levelFields, List.forall_mem_append] at hlevels
  obtain ⟨⟨⟨⟨⟨⟨hcapacity, hstart⟩, hmin⟩, hmax⟩, hminima⟩, hmaxima⟩, htargets⟩ := hlevels
  simp only [priceFields, List.forall_mem_append] at hprices
  obtain ⟨⟨hminimaPrice, hmaximaPrice⟩, hstored⟩ := hprices
  simp only [bandFields, List.forall_mem_append] at hband
  obtain ⟨⟨hpower, hconsumption⟩, hproduction⟩ := hband
  simp only [dynamicsFields, List.forall_mem_append] at hdynamics
  obtain ⟨⟨⟨⟨⟨hroundtrip, hgain⟩, husage⟩, hcharging⟩, hdischarging⟩, hretention⟩ := hdynamics
  have hmode : Returns (optional choiceJson) (nullOr choice?) m.efficiencyMode :=
    returns_optional rfl fun b _ => returns_choice (fun b : Decay => by cases b <;> rfl) b
  have hsooner : Returns (optional .bool) (nullOr bool?) m.preferChargingSooner :=
    returns_optional rfl fun b _ => returns_bool b
  have hwindows := returns_windows m.timeRestrictions
  refine returns_object rfl ?_ fun fields hfields => ?_
  · simp only [List.forall_mem_cons]
    exact ⟨(returns_amounts hstart).readable, (returns_amounts hmin).readable,
      (returns_amounts hmax).readable, (returns_amounts hcapacity).readable,
      (returns_seriesField hminima).readable, (returns_seriesField hmaxima).readable,
      (returns_seriesField htargets).readable, (returns_amounts hminimaPrice).readable,
      (returns_amounts hmaximaPrice).readable, (returns_amounts hstored).readable,
      (returns_seriesField hpower).readable, (returns_seriesField hconsumption).readable,
      (returns_seriesField hproduction).readable, (returns_seriesField hcharging).readable,
      (returns_seriesField hdischarging).readable, (returns_amounts hroundtrip).readable,
      (returns_seriesField hretention).readable, hmode.readable, (returns_seriesField hgain).readable,
      (returns_seriesField husage).readable, hsooner.readable, hwindows.readable, nofun⟩
  · have hkeys : (StorageModel.shape.keys.map Prod.fst).Nodup := by decide
    refine bind_of_eq_some (shape.read?_object fun _ hk => hfields.keys ▸ hk) ?_
    exact bind_of_eq_some (hfields.maybe hkeys 0 (returns_amounts hstart) rfl) <|
      bind_of_eq_some (hfields.maybe hkeys 1 (returns_amounts hmin) rfl) <|
      bind_of_eq_some (hfields.maybe hkeys 2 (returns_amounts hmax) rfl) <|
      bind_of_eq_some (hfields.maybe hkeys 3 (returns_amounts hcapacity) rfl) <|
      bind_of_eq_some (hfields.maybe hkeys 4 (returns_seriesField hminima) rfl) <|
      bind_of_eq_some (hfields.maybe hkeys 5 (returns_seriesField hmaxima) rfl) <|
      bind_of_eq_some (hfields.maybe hkeys 6 (returns_seriesField htargets) rfl) <|
      bind_of_eq_some (hfields.maybe hkeys 7 (returns_amounts hminimaPrice) rfl) <|
      bind_of_eq_some (hfields.maybe hkeys 8 (returns_amounts hmaximaPrice) rfl) <|
      bind_of_eq_some (hfields.maybe hkeys 9 (returns_amounts hstored) rfl) <|
      bind_of_eq_some (hfields.maybe hkeys 10 (returns_seriesField hpower) rfl) <|
      bind_of_eq_some (hfields.maybe hkeys 11 (returns_seriesField hconsumption) rfl) <|
      bind_of_eq_some (hfields.maybe hkeys 12 (returns_seriesField hproduction) rfl) <|
      bind_of_eq_some (hfields.maybe hkeys 13 (returns_seriesField hcharging) rfl) <|
      bind_of_eq_some (hfields.maybe hkeys 14 (returns_seriesField hdischarging) rfl) <|
      bind_of_eq_some (hfields.maybe hkeys 15 (returns_amounts hroundtrip) rfl) <|
      bind_of_eq_some (hfields.maybe hkeys 16 (returns_seriesField hretention) rfl) <|
      bind_of_eq_some (hfields.maybe hkeys 17 hmode rfl) <|
      bind_of_eq_some (hfields.maybe hkeys 18 (returns_seriesField hgain) rfl) <|
      bind_of_eq_some (hfields.maybe hkeys 19 (returns_seriesField husage) rfl) <|
      bind_of_eq_some (hfields.maybe hkeys 20 hsooner rfl) <|
      bind_of_eq_some (hfields.orElse hkeys 21 hwindows rfl) <|
      rfl

/-- The key that tells a process from a storage is written for processes only. -/
theorem FlexModel.returns [ZoneTable] {m : FlexModel α} {name : String}
    (h : ∀ f ∈ DeviceRequest.fields ⟨name, m⟩, f.Legible) :
    Returns FlexModel.toJson FlexModel.ofJson? m := by
  cases m with
  | storage m =>
    have hm : Returns StorageModel.toJson StorageModel.ofJson? m := StorageModel.returns h
    refine ⟨hm.readable, fun j hj => ?_⟩
    have hother : j.hasKey "process-type" = false := by
      cases hj with
      | object hfields => exact (hfields.hasKey _).trans rfl
    rw [ofJson?, hother, if_neg Bool.false_ne_true, hm.read_eq j hj, Option.map_some]
  | process m =>
    have hm : Returns ProcessModel.toJson ProcessModel.ofJson? m :=
      ProcessModel.returns (h _ List.mem_cons_self).1
    refine ⟨hm.readable, fun j hj => ?_⟩
    have hkey : j.hasKey "process-type" = true := by
      cases hj with
      | object hfields => exact (hfields.hasKey _).trans rfl
    rw [ofJson?, hkey, if_pos rfl, hm.read_eq j hj, Option.map_some]

theorem DeviceRequest.returns [ZoneTable] {d : DeviceRequest α} (h : ∀ f ∈ d.fields, f.Legible) :
    Returns DeviceRequest.toJson DeviceRequest.ofJson? d := by
  have hmodel := FlexModel.returns h
  refine returns_object rfl ?_ fun fields hfields => ?_
  · simp only [List.forall_mem_cons]
    exact ⟨(returns_string _).readable, hmodel.readable, nofun⟩
  · have hkeys : (DeviceRequest.shape.keys.map Prod.fst).Nodup := by decide
    refine bind_of_eq_some (shape.read?_object fun _ hk => hfields.keys ▸ hk) ?_
    exact bind_of_eq_some (hfields.need hkeys 0 (returns_string _) rfl) <|
      bind_of_eq_some (hfields.need hkeys 1 hmodel rfl) <|
      rfl

/-! ## The site -/

theorem FixedDevice.returns [ZoneTable] {d : FixedDevice α} (h : ∀ f ∈ d.fields, f.Legible) :
    Returns FixedDevice.toJson FixedDevice.ofJson? d := by
  have hpower := Series.returns (h _ List.mem_cons_self)
  refine returns_object rfl ?_ fun fields hfields => ?_
  · simp only [List.forall_mem_cons]
    exact ⟨(returns_string _).readable, hpower.readable, nofun⟩
  · have hkeys : (FixedDevice.shape.keys.map Prod.fst).Nodup := by decide
    refine bind_of_eq_some (shape.read?_object fun _ hk => hfields.keys ▸ hk) ?_
    exact bind_of_eq_some (hfields.need hkeys 0 (returns_string _) rfl) <|
      bind_of_eq_some (hfields.need hkeys 1 hpower rfl) <|
      rfl

theorem StatedCommitment.returns [ZoneTable] {c : StatedCommitment α} (h : ∀ f ∈ c.fields, f.Legible) :
    Returns StatedCommitment.toJson StatedCommitment.ofJson? c := by
  simp only [fields, List.forall_mem_append] at h
  obtain ⟨⟨hbase, hup⟩, hdown⟩ := h
  have hbaseline : Returns Series.toJson Series.ofJson? c.baseline := by
    cases hkind : c.kind <;> rw [hkind] at hbase <;>
      exact Series.returns (hbase _ List.mem_cons_self)
  have hup := Series.returns (hup _ List.mem_cons_self)
  have hdown := Series.returns (hdown _ List.mem_cons_self)
  have hgrouping := returns_choice (fun b : Grouping => by cases b <;> rfl) c.grouping
  have hkind := returns_choice (fun b : CommitmentKind => by cases b <;> rfl) c.kind
  refine returns_object rfl ?_ fun fields hfields => ?_
  · simp only [List.forall_mem_cons]
    exact ⟨(returns_string _).readable, hbaseline.readable, hup.readable, hdown.readable,
      hgrouping.readable, (returns_texts _).readable, hkind.readable, nofun⟩
  · have hkeys : (StatedCommitment.shape.keys.map Prod.fst).Nodup := by decide
    refine bind_of_eq_some (shape.read?_object fun _ hk => hfields.keys ▸ hk) ?_
    exact bind_of_eq_some (hfields.need hkeys 0 (returns_string _) rfl) <|
      bind_of_eq_some (hfields.need hkeys 1 hbaseline rfl) <|
      bind_of_eq_some (hfields.orElse hkeys 2 hup rfl) <|
      bind_of_eq_some (hfields.orElse hkeys 3 hdown rfl) <|
      bind_of_eq_some (hfields.orElse hkeys 4 hgrouping rfl) <|
      bind_of_eq_some (hfields.maybe hkeys 5 (returns_texts _) rfl) <|
      bind_of_eq_some (hfields.orElse hkeys 6 hkind rfl) <|
      rfl

theorem SiteContext.returns [ZoneTable] {c : SiteContext α} (htariffs : ∀ f ∈ c.tariffFields, f.Legible)
    (hlimits : ∀ f ∈ c.limitFields, f.Legible)
    (hfixed : ∀ d ∈ c.fixedDevices, ∀ f ∈ d.fields, f.Legible)
    (hstated : ∀ t ∈ c.commitments, ∀ f ∈ t.fields, f.Legible) :
    Returns SiteContext.toJson SiteContext.ofJson? c := by
  simp only [tariffFields, List.forall_mem_append] at htariffs
  obtain ⟨hconsumption, hproduction⟩ := htariffs
  simp only [limitFields, List.forall_mem_append] at hlimits
  obtain ⟨⟨⟨⟨⟨⟨⟨⟨hpower, hin⟩, hout⟩, hinPrice⟩, houtPrice⟩, hpeakIn⟩, hpeakInPrice⟩, hpeakOut⟩,
    hpeakOutPrice⟩ := hlimits
  have hfixed := returns_list fun d hd => FixedDevice.returns (hfixed d hd)
  have hstated := returns_list fun t ht => StatedCommitment.returns (hstated t ht)
  refine returns_object rfl ?_ fun fields hfields => ?_
  · simp only [List.forall_mem_cons]
    exact ⟨(returns_seriesField hconsumption).readable, (returns_seriesField hproduction).readable,
      (returns_seriesField hpower).readable, (returns_seriesField hin).readable,
      (returns_seriesField hout).readable, (returns_seriesField hinPrice).readable,
      (returns_seriesField houtPrice).readable, (returns_seriesField hpeakIn).readable,
      (returns_seriesField hpeakInPrice).readable, (returns_seriesField hpeakOut).readable,
      (returns_seriesField hpeakOutPrice).readable, hfixed.readable, hstated.readable, nofun⟩
  · have hkeys : (SiteContext.shape.keys.map Prod.fst).Nodup := by decide
    refine bind_of_eq_some (shape.read?_object fun _ hk => hfields.keys ▸ hk) ?_
    exact bind_of_eq_some (hfields.maybe hkeys 0 (returns_seriesField hconsumption) rfl) <|
      bind_of_eq_some (hfields.maybe hkeys 1 (returns_seriesField hproduction) rfl) <|
      bind_of_eq_some (hfields.maybe hkeys 2 (returns_seriesField hpower) rfl) <|
      bind_of_eq_some (hfields.maybe hkeys 3 (returns_seriesField hin) rfl) <|
      bind_of_eq_some (hfields.maybe hkeys 4 (returns_seriesField hout) rfl) <|
      bind_of_eq_some (hfields.maybe hkeys 5 (returns_seriesField hinPrice) rfl) <|
      bind_of_eq_some (hfields.maybe hkeys 6 (returns_seriesField houtPrice) rfl) <|
      bind_of_eq_some (hfields.maybe hkeys 7 (returns_seriesField hpeakIn) rfl) <|
      bind_of_eq_some (hfields.maybe hkeys 8 (returns_seriesField hpeakInPrice) rfl) <|
      bind_of_eq_some (hfields.maybe hkeys 9 (returns_seriesField hpeakOut) rfl) <|
      bind_of_eq_some (hfields.maybe hkeys 10 (returns_seriesField hpeakOutPrice) rfl) <|
      bind_of_eq_some (hfields.orElse hkeys 11 hfixed rfl) <|
      bind_of_eq_some (hfields.orElse hkeys 12 hstated rfl) <|
      rfl

/-! ## The request -/

theorem Request.returns [ZoneTable] {r : Request α} (h : ∀ f ∈ r.fields, f.Legible)
    (hzone : ∀ z ∈ r.zone, z.Known) : Returns Request.toJson Request.ofJson? r := by
  simp only [fields, List.forall_mem_append, List.forall_mem_flatMap] at h
  obtain ⟨⟨⟨⟨htariffs, hlimits⟩, hdevices⟩, hfixed⟩, hstated⟩ := h
  have hcontext := SiteContext.returns htariffs hlimits hfixed hstated
  have hdevices := returns_list fun d hd => DeviceRequest.returns (hdevices d hd)
  have hzone := returns_zones hzone
  refine returns_object rfl ?_ fun fields hfields => ?_
  · simp only [List.forall_mem_cons]
    exact ⟨(returns_string _).readable, (returns_texts _).readable, (returns_texts _).readable,
      (returns_string _).readable, hzone.readable, hdevices.readable, hcontext.readable, nofun⟩
  · have hkeys : (Request.shape.keys.map Prod.fst).Nodup := by decide
    refine bind_of_eq_some (shape.read?_object fun _ hk => hfields.keys ▸ hk) ?_
    exact bind_of_eq_some (hfields.need hkeys 0 (returns_string _) rfl) <|
      bind_of_eq_some (hfields.maybe hkeys 1 (returns_texts _) rfl) <|
      bind_of_eq_some (hfields.maybe hkeys 2 (returns_texts _) rfl) <|
      bind_of_eq_some (hfields.need hkeys 3 (returns_string _) rfl) <|
      bind_of_eq_some (hfields.maybe hkeys 4 hzone rfl) <|
      bind_of_eq_some (hfields.need hkeys 5 hdevices rfl) <|
      bind_of_eq_some (hfields.orElse hkeys 6 hcontext rfl) <|
      rfl

/-- A request whose numbers read back, and whose zones are found by their names, comes back from its own
printed text, every variant, default and left out field with it. -/
theorem Request.read_written [ZoneTable] {r : Request α} (hnumbers : ∀ v ∈ r.numbers, ReadsBack v)
    (hzones : ∀ z ∈ r.zones, z.Known) : (parse? r.toJson.render).bind Request.ofJson? = some r := by
  have hlegible : ∀ f ∈ r.fields, f.Legible := fun f hf =>
    ⟨fun v hv => hnumbers v (List.mem_flatMap.mpr ⟨f, hf, hv⟩),
      fun z hz => hzones z (List.mem_append_right _ (List.mem_flatMap.mpr ⟨f, hf, hz⟩))⟩
  exact (Request.returns hlegible fun z hz =>
    hzones z (List.mem_append_left _ (Option.mem_toList.mpr hz))).parse

end

/-- Numbers written to two places. -/
@[reducible]
noncomputable def hundredths : NumJson Exact where
  numJson
    | .num x => .number ⟨decide (x < 0), ⌊|x| * 100⌋₊, -2⟩ false
    | _ => .null

theorem readsBack_quarter : @ReadsBack Exact _ hundredths (.num 0.25) := by
  refine ⟨⟨false, 25, -2⟩, false, ⟨false, 25, -2⟩, false, ?_, by rfl, ?_⟩
  · have hfloor : ⌊|(0.25 : ℝ)| * 100⌋₊ = 25 := by norm_num [Nat.floor_eq_iff]
    have hsign : decide ((0.25 : ℝ) < 0) = false := by norm_num
    show Json.number _ _ = _
    rw [hfloor, hsign]
  · show Exact.ofDecimal _ = _
    simp [Exact.ofDecimal]
    norm_num

/-- A storage with a list of segments, a process that runs once, samples as a tariff. -/
noncomputable def mixedRequest : Request Exact where
  start := "1970-01-01T00:00:00Z"
  stop := none
  duration := some "PT4H"
  resolution := "PT1H"
  zone := some .utc
  devices := [
    ⟨"battery", .storage {
      socAtStart := some (.text "2 kWh"), socMin := none, socMax := some (.number (.num 0.25))
      storageCapacity := none, socMinima := some (.segments [⟨none, none, none, none, .text "50 %"⟩])
      socMaxima := none, socTargets := none, socMinimaBreachPrice := none
      socMaximaBreachPrice := none, storedEnergyPrice := none
      powerCapacity := some (.constant (.text "5 kW")), consumptionCapacity := none
      productionCapacity := none, chargingEfficiency := none, dischargingEfficiency := none
      roundtripEfficiency := none, storageEfficiency := none, efficiencyMode := some .linear
      socGain := none, socUsage := none, preferChargingSooner := some false
      timeRestrictions := [⟨"1970-01-01T01:00:00Z", none, some "PT1H"⟩] }⟩,
    ⟨"washer", .process ⟨.shiftable, .number (.num 0.25), "PT2H", .max, []⟩⟩]
  context := { SiteContext.empty with
    consumptionPrice := some (.aligned ⟨"1970-01-01T00:00:00Z", "PT2H",
      [.num 0.25, .num 0.25], some "EUR/kWh", none⟩)
    commitments := [⟨"fee", .constant (.number (.num 0.25)), .constant (.text "1 EUR/kW"),
      .constant (.number (.num 0.25)), .any, none, .flow⟩] }

theorem mixedRequest_numbers : mixedRequest.numbers = List.replicate 6 (.num 0.25) := rfl

theorem mixedRequest_zones : mixedRequest.zones = [.utc] := rfl

theorem mixedRequest_read :
    (parse? (@Request.toJson Exact _ hundredths mixedRequest).render).bind Request.ofJson? =
      some mixedRequest := by
  let _ := hundredths
  refine Request.read_written (fun v hv => ?_) fun z hz => ?_
  · rw [mixedRequest_numbers] at hv
    obtain rfl := List.eq_of_mem_replicate hv
    exact readsBack_quarter
  · rw [mixedRequest_zones] at hz
    obtain rfl := List.mem_singleton.mp hz
    rfl

end Dispatch

import Dispatch.Proofs.Request.Answers
import Dispatch.Proofs.Request.LeastBill
import Dispatch.Proofs.Request.Placement
import Dispatch.Proofs.Time.Components

/-! # Requests that are not answered

* `Request.Adds`: all sums of an instant and a span that are made for a request.
* `Request.toProblem_told`: a request comes to a problem or to a failure that can be told if the calendar
  has its sums.
* `Request.toProblem_of_lasts`: no request is answered whose horizon ends beyond the calendar.
* `RunOnce.InRange`: every slot that a process is held against has a price and a mark.
* `Request.answered_within_calendar`: the three together.
* `manyDays_crash`: a horizon that no calendar reaches the end of.
-/

namespace Dispatch
set_option autoImplicit false

open Exact

variable {α β : Type} [Scalar α]

/-! ## The sums of a request -/

def FlexModel.windows : FlexModel α → List TimeWindow
  | storage m => m.timeRestrictions
  | process m => m.timeRestrictions

namespace Request

/-- An instant and a span that are added up for the request. -/
inductive Adds (r : Request α) : Instant → Span → Prop where
  | horizon {t : Instant} {d : Span} (h : Lasts α (r.zone.getD .utc) r.start r.stop r.duration t d) :
      r.Adds t d
  | slot {g : Grid} {t : Instant} {d : Span} (hg : r.grid = .ok g) (h : g.Adds t d) : r.Adds t d
  | segment {g : Grid} {f : StatedField α} {s : Segment α} {t : Instant} {d : Span}
      (hg : r.grid = .ok g) (hf : f ∈ r.fields) (hs : s ∈ f.series.pieces) (h : s.Adds g.zone t d) :
      r.Adds t d
  | shifted {g : Grid} {f : StatedField α} {t : Instant} {d : Span} (hg : r.grid = .ok g)
      (hf : f ∈ r.fields) (hlevels : f.reading = .slotEnds) (haligned : ∃ a, f.series = .aligned a)
      (h : g.ShiftAdds α t d) : r.Adds t d
  | window {g : Grid} {x : DeviceRequest α} {w : TimeWindow} {t : Instant} {d : Span}
      (hg : r.grid = .ok g) (hx : x ∈ r.devices) (hw : w ∈ x.flexModel.windows)
      (h : w.Adds α g.zone t d) : r.Adds t d

variable {r : Request α} {g : Grid}

theorem inCalendar_of_adds (h : CalendarHas r.Adds) (hg : r.grid = .ok g) : InCalendar g r.fields :=
  fun _ hf => ⟨fun _ hs t d hadds => h t d (.segment hg hf hs hadds),
    fun hlevels haligned t d hadds => h t d (.shifted hg hf hlevels haligned hadds)⟩

theorem grid_answers (h : CalendarHas r.Adds) : Checked.Answers r.grid := by
  refine (readInstant_answers _ r.start).bind_of_ok fun t ht => ?_
  have hmissing : (.field "end" .horizonWithoutEnd : Fault α) ≠ .unrepresentable := nofun
  refine (intervalEnd_answers ht hmissing fun u d hd => h u d (.horizon hd)).bind fun stop => ?_
  exact (Duration.ofText_answers r.resolution).bind fun resolution => Grid.make_answers _ _ _ _

theorem device_told {x : DeviceRequest α} (hg : g.Representable) (h : InCalendar g x.fields)
    (hwindows : ∀ w ∈ x.flexModel.windows, CalendarHas (w.Adds α g.zone)) (tariffs : Tariffs α)
    (sooner : Bool) : Warned.FailsWith Failure.Told (x.device g tariffs sooner) := by
  obtain ⟨name, model⟩ := x
  cases model with
  | storage m =>
    exact (m.device_answers hg h hwindows tariffs sooner).adapt fun _ he heq =>
      he (Failure.invalid.inj heq)
  | process m =>
    exact (Warned.failsWith_lift (m.device_told hg hwindows name tariffs.consumption)).bind fun _ =>
      Warned.failsWith_pure _

/-- Every step of a translation is answered if the calendar has the sums of the request. -/
theorem assemble_told (h : CalendarHas r.Adds) (sooner : Bool) :
    Warned.FailsWith Failure.Told (r.assemble sooner) := by
  have hvalid {β : Type} {x : Checked α β} (hx : Checked.Answers x) :
      Warned.FailsWith Failure.Told (Warned.lift (x.mapError Failure.invalid)) :=
    Warned.failsWith_lift hx.told
  refine Warned.failsWith_lift_bind (grid_answers h).told fun g hgrid => ?_
  replace hgrid := Checked.mapError_eq_ok.mp hgrid
  have hg : g.Representable := Grid.calendarHas_adds_iff.mp fun t d hd => h t d (.slot hgrid hd)
  have hfields := inCalendar_of_adds h hgrid
  simp only [fields, inCalendar_append, and_assoc] at hfields
  obtain ⟨htariffs, hlimits, hdevices, hfixed, hcommitments⟩ := hfields
  refine (hvalid (SiteContext.tariffs_answers hg htariffs)).bind fun tariffs => ?_
  refine (Warned.FailsWith.mapM_of_mem fun x hx => ?_).bind fun planned => ?_
  · exact device_told hg (hdevices.flatMap x hx) (fun w hw t d hd => h t d (.window hgrid hx hw hd)) _ _
  refine (hvalid (Checked.FailsWith.mapM_of_mem fun x hx => ?_)).bind fun fixed => ?_
  · exact FixedDevice.device_answers hg (hfixed.flatMap x hx)
  refine ((SiteContext.limits_answers hg hlimits).adapt fun _ he heq =>
    he (Failure.invalid.inj heq)).bind fun limits => ?_
  refine (hvalid (Checked.FailsWith.mapM_of_mem fun x hx => ?_)).bind fun stated => ?_
  · exact StatedCommitment.commitment_answers hg (hcommitments.flatMap x hx)
  exact (hvalid (Problem.check_answers _)).bind fun _ => Warned.failsWith_pure _

/-- The request comes to a problem, or to a failure that can be told. -/
theorem toProblem_told (h : CalendarHas r.Adds) (sooner : Bool) :
    Checked.FailsWith Failure.Told (r.toProblem sooner).1 :=
  fun e he => assemble_told h sooner [] e _ (Prod.ext he rfl)

/-- Whatever else a request states, it is not answered if its horizon ends beyond the calendar. -/
theorem toProblem_of_lasts {t : Instant} {d : Span}
    (h : Lasts α (r.zone.getD .utc) r.start r.stop r.duration t d) (hbeyond : t.add? d = none)
    (sooner : Bool) : (r.toProblem sooner).1 = .error (.invalid .unrepresentable) := by
  have hgrid : r.grid = .error .unrepresentable := by
    simp only [grid, h.1, bind, Except.bind, intervalEnd_of_lasts h hbeyond]
  have hrun : r.toProblem sooner = StateT.run (ExceptT.run (r.assemble sooner)) [] := rfl
  rw [hrun, assemble, hgrid, Warned.run_bind]
  rfl

end Request

/-! ## Slots of processes -/

namespace RunOnce

/-- Every slot that the process is held against has a mark and a price. -/
structure InRange (p : RunOnce α) (prices : List α) : Prop where
  marks : p.len = prices.length
  starts : ∀ s ∈ p.blockStarts, ∀ j ∈ p.block s, j < prices.length
  chosen : ∀ slots, p.chosen prices = .ok slots → ∀ j ∈ slots, j < prices.length

theorem leastBy_mem {key : β → α} {xs : List β} {b : β} (h : leastBy key xs = some b) : b ∈ xs := by
  induction xs generalizing b with
  | nil => cases h
  | cons x xs ih =>
    rw [leastBy] at h
    split at h
    · cases h
      exact List.mem_cons_self
    · rename_i c hc
      split_ifs at h
      · cases h
        exact List.mem_cons_self
      · cases h
        exact List.mem_cons_of_mem x (ih hc)

omit [Scalar α] in
theorem lt_len_of_block {p : RunOnce α} {s j : ℕ} (hs : s ∈ p.blockStarts) (hj : j ∈ p.block s) :
    j < p.len := by
  rw [block_eq, List.mem_range'_1] at hj
  exact hj.2.trans_le (mem_blockStarts.mp hs).1

theorem lt_len_of_chosen {p : RunOnce α} {prices : List α} {slots : List ℕ}
    (h : p.chosen prices = .ok slots) : ∀ j ∈ slots, j < p.len := by
  have hblock {s : ℕ} (hs : s ∈ p.blockStarts) : ∀ j ∈ p.block s, j < p.len :=
    fun j => lt_len_of_block hs
  unfold chosen at h
  cases hkind : p.kind with
  | inflexible =>
    simp only [hkind] at h
    cases hstarts : p.blockStarts with
    | nil =>
      rw [hstarts] at h
      cases h
    | cons s rest =>
      rw [hstarts] at h
      cases h
      exact hblock (hstarts ▸ List.mem_cons_self)
  | shiftable =>
    simp only [hkind] at h
    cases hbest : leastBy (p.blockCost prices) p.blockStarts with
    | none =>
      rw [hbest] at h
      cases h
    | some s =>
      rw [hbest] at h
      cases h
      exact hblock (leastBy_mem hbest)
  | breakable =>
    simp only [hkind] at h
    split_ifs at h
    cases h
    intro j hj
    have hfree := List.mem_mergeSort.mp (List.mem_of_mem_take hj)
    exact List.mem_range.mp (List.mem_filter.mp hfree).1

theorem inRange {p : RunOnce α} {prices : List α} (h : p.len = prices.length) : p.InRange prices where
  marks := h
  starts _ hs _ hj := h ▸ lt_len_of_block hs hj
  chosen _ hslots j hj := h ▸ lt_len_of_chosen hslots j hj

end RunOnce

theorem TimeWindow.mask_length {g : Grid} {windows : List TimeWindow} {marks : List Bool}
    (h : (mask g windows : Checked α (List Bool)) = .ok marks) : marks.length = g.len := by
  have hmark : ∀ marked, (markFrom g marked windows : Checked α (List Bool)) = .ok marks →
      marks.length = marked.length := by
    clear h
    induction windows with
    | nil =>
      rintro marked ⟨⟩
      rfl
    | cons w rest ih =>
      intro marked h
      obtain ⟨b, -, h⟩ := Checked.bind_eq_ok.mp h
      obtain ⟨hit, -, h⟩ := Checked.bind_eq_ok.mp h
      rw [ih _ h, List.length_map, List.length_zipIdx]
  rw [hmark _ h, List.length_replicate]

/-! ## All requests -/

/-- A request is answered as long as no sum of an instant and a span leads beyond the calendar; one whose
horizon does is not, whatever else it states. Slots have a length to divide by, and those that a process
is held against are within its marks and its prices. -/
theorem Request.answered_within_calendar (r : Request α) (sooner : Bool) :
    (CalendarHas r.Adds → (r.toProblem sooner).1 ≠ .error (.invalid .unrepresentable)) ∧
    (∀ t d, Lasts α (r.zone.getD .utc) r.start r.stop r.duration t d → t.add? d = none →
      (r.toProblem sooner).1 = .error (.invalid .unrepresentable)) ∧
    ∀ g, r.grid = .ok g → 0 < g.resolution.wholeSeconds ∧
      ∀ tariffs, r.context.tariffs g = .ok tariffs → ∀ (p : RunOnce α) (windows : List TimeWindow),
        (TimeWindow.mask g windows : Checked α (List Bool)) = .ok p.restricted →
          p.InRange tariffs.consumption := by
  refine ⟨fun h hcrash => toProblem_told h sooner _ hcrash rfl,
    fun t d hlasts hbeyond => toProblem_of_lasts hlasts hbeyond sooner,
    fun g hg => ⟨(made_of_grid hg).wholeSeconds_pos, fun tariffs htariffs p windows hmarks => ?_⟩⟩
  obtain ⟨bought, -, hbought, -⟩ := SiteContext.tariffs_eq_ok.mp htariffs
  exact RunOnce.inRange ((TimeWindow.mask_length hmarks).trans (Series.required_length hbought).symm)

/-! ## Horizons of an hour and of a hundred million days less one -/

/-- A horizon that starts with the year 1970 and lasts so long. -/
noncomputable def lastingStorage (duration : String) : Request Exact :=
  { oneStorage with stop := none, duration := some duration }

theorem lastingStorage_lasts {duration : String} {d : Span}
    (h : (Duration.ofText duration : Checked Exact Span) = .ok d) :
    Lasts Exact ((lastingStorage duration).zone.getD .utc) (lastingStorage duration).start
      (lastingStorage duration).stop (lastingStorage duration).duration ⟨0, 0⟩ d :=
  ⟨readInstant_midnight, rfl, duration, rfl, h⟩

theorem lastingStorage_grid : (lastingStorage "PT1H").grid = .ok Problem.oneHour := by
  have hstop : (intervalEnd .utc ⟨0, 0⟩ none (some "PT1H") (.field "end" .horizonWithoutEnd) :
      Checked Exact Instant) = .ok ⟨3600, 0⟩ := Checked.bind_eq_ok.mpr ⟨_, ofText_oneHour, rfl⟩
  refine Checked.bind_eq_ok.mpr ⟨⟨0, 0⟩, readInstant_midnight, ?_⟩
  refine Checked.bind_eq_ok.mpr ⟨⟨3600, 0⟩, hstop, ?_⟩
  exact Checked.bind_eq_ok.mpr ⟨_, ofText_oneHour, rfl⟩

theorem lastingStorage_constants (duration : String) :
    ∀ f ∈ (lastingStorage duration).fields, ∃ a, f.series = .constant a := by
  simp [Request.fields, lastingStorage, oneStorage, SiteContext.tariffFields, SiteContext.limitFields,
    SiteContext.empty, seriesField, amountField, DeviceRequest.fields, batteryModel,
    StorageModel.fields, StorageModel.levelFields, StorageModel.priceFields, StorageModel.bandFields,
    StorageModel.dynamicsFields]

theorem lastingStorage_calendar : CalendarHas (lastingStorage "PT1H").Adds := by
  have hgrid {g : Grid} (hg : (lastingStorage "PT1H").grid = .ok g) : g = Problem.oneHour :=
    Except.ok.inj (hg.symm.trans lastingStorage_grid)
  rintro t d (⟨hstart, -, text, htext, hspan⟩ | ⟨hg, hadds⟩ | ⟨hg, hf, hs, -⟩ | ⟨hg, hf, -, ⟨a, ha⟩, -⟩ |
    ⟨hg, hx, hw, -⟩)
  · obtain rfl : t = ⟨0, 0⟩ := Except.ok.inj (hstart.symm.trans readInstant_midnight)
    obtain rfl : text = "PT1H" := (Option.some.inj htext).symm
    rw [Except.ok.inj (hspan.symm.trans ofText_oneHour)]
    decide
  · obtain rfl := hgrid hg
    exact Grid.calendarHas_adds_iff.mpr (by decide) t d hadds
  · obtain ⟨a, ha⟩ := lastingStorage_constants _ _ hf
    rw [ha] at hs
    exact absurd hs List.not_mem_nil
  · obtain ⟨b, hb⟩ := lastingStorage_constants _ _ hf
    cases hb.symm.trans ha
  · rw [List.mem_singleton.mp hx] at hw
    exact absurd hw List.not_mem_nil

theorem ofText_manyDays :
    (Duration.ofText "P99999999D" : Checked Exact Span) = .ok (Span.ofMillis 8639999913600000) := by
  have hdigits : Numeral.Digits (List.replicate 8 '9') :=
    fun c hc => by rw [List.eq_of_mem_replicate hc]; rfl
  have hvalue : Decimal.ofDigits 0 (List.replicate 8 '9' ++ []) = 99999999 := by decide
  obtain ⟨days, ⟨hnumeral, hday⟩, hnumber⟩ : ∃ x : Duration.Component,
      (x.numeral = List.replicate 8 '9' ∧ x.designator = .day) ∧ x.number = 99999999 :=
    ⟨⟨_, _, _, .day, .whole hdigits (by decide)⟩, ⟨rfl, rfl⟩,
      by rw [Duration.Component.number, hvalue]; norm_num⟩
  obtain ⟨x, hhere, hlater⟩ : ∃ x : Duration.Parts false, x.here = [days] ∧ x.later = none :=
    ⟨⟨[days], none, List.forall_mem_singleton.mpr (hday ▸ rfl), List.forall_mem_nil _, by simp⟩, rfl, rfl⟩
  have hall : x.all = [days] := by rw [Duration.Parts.all, hhere, hlater]; rfl
  have htext : x.text = "99999999D".toList := by
    simp only [Duration.Parts.text, hhere, hlater, List.flatMap_singleton, Duration.Component.text,
      hnumeral, hday]
    rfl
  have hwritten : x.Written "P99999999D" :=
    ⟨by rw [htext]; decide +kernel, hall ▸ List.cons_ne_nil _ _⟩
  have hseconds : x.seconds = 99999999 * 86400 := by
    simp [Duration.Parts.seconds, hall, Duration.Component.seconds, hnumber, hday,
      Duration.Designator.seconds]
  have hfloor : ⌊(1000 * (99999999 * 86400) + 1 / 2 : ℝ)⌋ = 8639999913600000 := by
    rw [Int.floor_eq_iff]
    norm_num
  rw [hwritten.ofText_eq, Duration.Parts.span_eq, hseconds, hfloor]
  rfl

theorem manyDays_beyond :
    (⟨0, 0⟩ : Instant).add? (Span.ofMillis 8639999913600000) = none := by decide

/-- A request of which every text can be read, and that is not answered. -/
theorem manyDays_crash :
    ((lastingStorage "P99999999D").toProblem true).1 = .error (.invalid .unrepresentable) :=
  Request.toProblem_of_lasts (lastingStorage_lasts ofText_manyDays) manyDays_beyond true

/-- An hour is answered, the many days are not; a process of one slot finds its price. -/
theorem hour_answered_days_crash :
    (CalendarHas (lastingStorage "PT1H").Adds ∧
      ((lastingStorage "PT1H").toProblem true).1 ≠ .error (.invalid .unrepresentable)) ∧
    (Lasts Exact .utc "1970-01-01T00:00:00Z" none (some "P99999999D") ⟨0, 0⟩
        (Span.ofMillis 8639999913600000) ∧
      (⟨0, 0⟩ : Instant).add? (Span.ofMillis 8639999913600000) = none ∧
      ((lastingStorage "P99999999D").toProblem true).1 = .error (.invalid .unrepresentable)) ∧
    0 < Problem.oneHour.resolution.wholeSeconds ∧
      (⟨"washer", .shiftable, num 1, 1, [false], .min⟩ : RunOnce Exact).InRange [num 0] := by
  obtain ⟨hanswered, -, hslots⟩ := Request.answered_within_calendar (lastingStorage "PT1H") true
  obtain ⟨-, hcrash, -⟩ := Request.answered_within_calendar (lastingStorage "P99999999D") true
  have hlasts := lastingStorage_lasts ofText_manyDays
  obtain ⟨hpositive, hprocesses⟩ := hslots _ lastingStorage_grid
  exact ⟨⟨lastingStorage_calendar, hanswered lastingStorage_calendar⟩,
    ⟨hlasts, manyDays_beyond, hcrash _ _ hlasts manyDays_beyond⟩, hpositive,
    hprocesses _ oneStorage_tariffs _ [] rfl⟩

end Dispatch

import Dispatch.Proofs.Request.HardLimits
import Dispatch.Proofs.Series.Segments

/-! # Listed levels

* `Demand`: what an entry of the minima, the maxima or the targets of a storage asks of a level.
* `Stock.Honours`: the bounds of a stock keep every entry of a list, up to the entries after it.
* `Request.listed_levels_kept`: so do the bounds of every translated storage.
* `twoMinima_first_lost`: where two intervals touch, the weaker of two minima is what is left.

An interval of levels holds at both of its ends, and whichever entry comes last in the list is the one
that counts. What comes earlier is kept as far as the later entries ask for no less.
-/

namespace Dispatch
set_option autoImplicit false

open Exact Scalar

/-! ## Demands -/

inductive Demand where
  | atLeast
  | atMost
  | exactly

namespace Demand

/-- What is asked of a level. A minimum or a maximum that is no number asks nothing. -/
def Holds : Demand → Exact → ℝ → Prop
  | atLeast, v, level => ¬num level < v
  | atMost, v, level => ¬v < num level
  | exactly, v, level => num level = v

@[simp] theorem atLeast_num (v level : ℝ) : atLeast.Holds (num v) level ↔ v ≤ level := by
  rw [Holds, num_lt_num, not_lt]

@[simp] theorem atMost_num (v level : ℝ) : atMost.Holds (num v) level ↔ level ≤ v := by
  rw [Holds, num_lt_num, not_lt]

def field : Demand → String
  | atLeast => "soc-minima"
  | atMost => "soc-maxima"
  | exactly => "soc-targets"

/-- Where a storage lists its demands. -/
def listed (m : StorageModel Exact) : Demand → Option (Series Exact)
  | atLeast => m.socMinima
  | atMost => m.socMaxima
  | exactly => m.socTargets

/-- Whether a level may miss the demand at a price. -/
def priced (m : StorageModel Exact) : Demand → Bool
  | atLeast => m.socMinimaBreachPrice.isSome
  | atMost => m.socMaximaBreachPrice.isSome
  | exactly => false

def levels (x : StorageReading) : Demand → List (Option Exact)
  | atLeast => x.minima
  | atMost => x.maxima
  | exactly => x.targets

end Demand

/-! ## Lists -/

/-- Whether a slot ends in the interval of an entry. -/
def Entry.Reaches (e : Entry Exact) (g : Grid) (j : ℕ) : Prop :=
  ∃ t, g.slotEnd j = (.ok t : Checked Exact Instant) ∧ Segment.reaches e.bounds t = true

/-- Every entry of a list is kept at the end of every slot that it reaches, unless an entry after it
asks for less there. -/
def Stock.Honours (s : Stock Exact) (g : Grid) (k : Demand) (entries : List (Entry Exact)) : Prop :=
  ∀ (before : List (Entry Exact)) (e : Entry Exact) (after : List (Entry Exact)),
    entries = before ++ e :: after → ∀ j < g.len, e.Reaches g j →
      (∀ later ∈ after, later.Reaches g j →
        ∀ level, k.Holds later.value level → k.Holds e.value level) →
      ∀ level, s.Keeps j (num level) → k.Holds e.value level

namespace StorageModel.States
variable {m : StorageModel Exact} {g : Grid} {name : String} {x : StorageReading}
  (hx : m.States g name x) {k : Demand}
include hx

theorem levels_eq (k : Demand) :
    StorageModel.levels g (k.listed m) (fieldOf name k.field) x.capacity = .ok (k.levels x) := by
  cases k with
  | atLeast => exact hx.minima
  | atMost => exact hx.maxima
  | exactly => exact hx.targets

/-- A level that is allowed meets what the lists say, where it is not for sale. -/
theorem holds_of_allowed (hfree : k.priced m = false) {j : ℕ} {level : ℝ} (h : x.AllowsLevel j level)
    {v : Exact} (hv : givenAt (k.levels x) j = some v) : k.Holds v level := by
  cases k with
  | atLeast =>
    have hlow := h.low
    have hvalue : givenAt x.minima j = some v := hv
    have hpriced : x.minimaPriced = false := hx.minimaPriced.trans hfree
    simp only [StorageReading.floorAt, hpriced, if_neg Bool.false_ne_true, hvalue,
      Option.getD_some] at hlow
    exact not_lt_of_maxNum_le hlow
  | atMost =>
    have hhigh := h.high
    have hvalue : givenAt x.maxima j = some v := hv
    have hpriced : x.maximaPriced = false := hx.maximaPriced.trans hfree
    simp only [StorageReading.ceilingAt, hpriced, if_neg Bool.false_ne_true, hvalue,
      Option.getD_some] at hhigh
    exact not_lt_of_le_minNum hhigh
  | exactly => exact h.target v hv

/-- The entry in force is kept, and with it every entry that it asks for. -/
theorem honours (h : (x.stock g).Sound g.len) {items : List (Segment Exact)}
    (hlisted : k.listed m = some (.segments items)) (hfree : k.priced m = false) :
    ∃ entries, List.Forall₂
        (fun item e => item.Reads g (fieldOf name k.field) .energy x.capacity e) items entries ∧
      (x.stock g).Honours g k entries := by
  have hread := hx.levels_eq k
  rw [hlisted] at hread
  obtain ⟨entries, hentries, -, hvalues⟩ := Series.overlay_eq_ok hread
  refine ⟨entries, hentries, ?_⟩
  rintro before e after rfl j hj ⟨t, ht, hreaches⟩ hlater level hkeeps
  obtain ⟨v, hv, hsource⟩ := Entry.inForce_of_chosen (q := fun b => Segment.reaches b t) hreaches
    (givenAt (List.replicate g.len (none : Option Exact)) j) before after
  have hgiven : givenAt (k.levels x) j = some v :=
    (hvalues j (by rwa [List.length_replicate]) t ht).trans hv
  have hholds := hx.holds_of_allowed hfree ((x.keeps_iff h hj level).mp hkeeps) hgiven
  rcases hsource with rfl | ⟨later, hmem, hlaterReaches, rfl⟩
  · exact hholds
  · exact hlater later hmem ⟨t, ht, hlaterReaches⟩ level hholds

end StorageModel.States

/-! ## Requests -/

/-- Every listed level is kept by the bounds of the translated storage as far as the entries after it
in the same list ask for no less. -/
theorem Request.listed_levels_kept {r : Request Exact} {sooner : Bool} {p : Problem Exact}
    (h : (r.toProblem sooner).1 = .ok p) {i : ℕ} {d : DeviceRequest Exact} {m : StorageModel Exact}
    (hd : r.devices[i]? = some d) (hm : d.flexModel = .storage m) :
    ∃ e s capacity, p.devices[i]? = some e ∧ e.id = d.name ∧ e.stock = some s ∧
      m.capacity d.name = .ok capacity ∧
      ∀ (k : Demand) (items : List (Segment Exact)), k.listed m = some (.segments items) →
        k.priced m = false → ∃ entries, List.Forall₂
            (fun item e => item.Reads p.grid (fieldOf d.name k.field) .energy capacity e) items entries ∧
          s.Honours p.grid k entries := by
  obtain ⟨x, hx⟩ := assembled h
  obtain ⟨y, hstates, hget⟩ := hx.device_of_get hd
  rw [DeviceRequest.States, hm] at hstates
  obtain ⟨s, rfl, hs⟩ := hstates
  have hsound := ((Problem.sound_of_check hx.check).device_of_get hget).stock _ rfl
  exact ⟨_, s.stock p.grid, s.capacity, hget, DeviceReading.device_id _ _ _ _, rfl, hs.capacity,
    fun _ _ hlisted hfree => hs.honours hsound hlisted hfree⟩

/-! ## Two minima -/

/-- At least 2 kWh for the first hour and half of one for the second; the hours share an instant. -/
noncomputable def touchingMinima : List (Segment Exact) :=
  [⟨none, some "1970-01-01T00:00:00Z", some "1970-01-01T01:00:00Z", none, .number (num (2 : ℕ))⟩,
    ⟨none, some "1970-01-01T01:00:00Z", some "1970-01-01T02:00:00Z", none,
      .number (num (1 / (2 : ℕ)))⟩]

noncomputable def twoMinima : Request Exact :=
  { oneStorage with
    devices := [⟨"battery", .storage { batteryModel with
      socMinima := some (.segments touchingMinima) }⟩] }

noncomputable def firstMinimum : Entry Exact := ⟨(⟨0, 0⟩, ⟨3600, 0⟩), num (2 : ℕ)⟩

noncomputable def secondMinimum : Entry Exact := ⟨(⟨3600, 0⟩, ⟨7200, 0⟩), num (1 / (2 : ℕ))⟩

theorem touchingMinima_reads (field : String) (capacity : Option Exact) :
    List.Forall₂ (fun item e => item.Reads Problem.oneHour field .energy capacity e) touchingMinima
      [firstMinimum, secondMinimum] := by
  have hmidnight : Instant.ofText .utc "1970-01-01T00:00:00Z" = .ok ⟨0, 0⟩ := by decide +kernel
  have hone : Instant.ofText .utc "1970-01-01T01:00:00Z" = .ok ⟨3600, 0⟩ := by decide +kernel
  have htwo : Instant.ofText .utc "1970-01-01T02:00:00Z" = .ok ⟨7200, 0⟩ := by decide +kernel
  exact .cons (Segment.reads_between hmidnight hone (by decide) _ _ _ _)
    (.cons (Segment.reads_between hone htwo (by decide) _ _ _ _) .nil)

/-- The second minimum overrules the first at the end of the hour, which both reach. -/
theorem touchingMinima_levels :
    StorageModel.levels Problem.oneHour (some (.segments touchingMinima))
      (fieldOf "battery" "soc-minima") none = .ok [some (num (1 / (2 : ℕ)))] := by
  have hends : Problem.oneHour.HasEnds := by decide
  exact (Series.stateValues_segments (touchingMinima_reads _ none)).trans (if_pos (.inr hends))

/-- What is left of the two minima is half a kWh less than the battery has. -/
noncomputable def loweredBattery : Problem Exact :=
  { pricedBattery with devices := [Problem.limitedBattery (-1 / (2 : ℕ)) none false] }

theorem loweredBattery_check : loweredBattery.check = .ok () :=
  Problem.oneHour_check (Problem.limitedBattery_check (-1 / (2 : ℕ)) none false)
    (oneHour_commitments_check rfl rfl)

theorem twoMinima_toProblem : (twoMinima.toProblem false).1 = .ok loweredBattery := by
  have hlow : maxNum 0 ((some (num (1 / (2 : ℕ)))).getD negInf) - num 1 = num (-1 / (2 : ℕ)) := by
    rw [Option.getD_some, zero_eq, num_maxNum, num_sub]
    norm_num
  exact toProblem_of_parts oneStorage_tariffs (batteryModel_device touchingMinima_levels hlow _ false)
    rfl oneStorage_limits rfl loweredBattery_check

theorem touchingMinima_reach :
    firstMinimum.Reaches Problem.oneHour 0 ∧ secondMinimum.Reaches Problem.oneHour 0 :=
  ⟨⟨⟨3600, 0⟩, rfl, by decide⟩, ⟨⟨3600, 0⟩, rfl, by decide⟩⟩

/-- The last minimum of the list is kept. -/
theorem twoMinima_last_kept :
    ∃ p e s, (twoMinima.toProblem false).1 = .ok p ∧ p.devices[0]? = some e ∧ e.stock = some s ∧
      ∀ level, s.Keeps 0 (num level) → 1 / 2 ≤ level := by
  obtain ⟨e, s, capacity, he, -, hs, -, hlists⟩ :=
    Request.listed_levels_kept twoMinima_toProblem (i := 0) rfl rfl
  refine ⟨_, e, s, twoMinima_toProblem, he, hs, fun level hkeeps => ?_⟩
  obtain ⟨entries, hreads, hkept⟩ := hlists .atLeast touchingMinima rfl rfl
  have hentries : entries = [firstMinimum, secondMinimum] :=
    List.right_unique_forall₂' (fun _ _ _ h h' => h.unique h') hreads (touchingMinima_reads _ _)
  have hholds := hkept [firstMinimum] secondMinimum [] hentries 0 one_pos touchingMinima_reach.2
    (fun _ h => absurd h List.not_mem_nil) level hkeeps
  exact (Demand.atLeast_num (1 / (2 : ℕ)) level).mp hholds

/-- The idle battery meets every bound with 1 kWh where the first minimum asks for 2. -/
theorem twoMinima_first_lost :
    ∃ p item e, (twoMinima.toProblem false).1 = .ok p ∧ item ∈ touchingMinima ∧
      item.Reads p.grid (fieldOf "battery" "soc-minima") .energy none e ∧ e.Reaches p.grid 0 ∧
      p.Admits (fun _ _ => 0) ∧ p.Leads (fun _ _ => 0) (fun _ _ => 1) ∧
      ¬Demand.atLeast.Holds e.value 1 := by
  obtain _ | ⟨hfirst, -⟩ := touchingMinima_reads (fieldOf "battery" "soc-minima") none
  refine ⟨loweredBattery, _, firstMinimum, twoMinima_toProblem, List.mem_cons_self, hfirst,
    touchingMinima_reach.1, Problem.limitedBattery_admits_idle loweredBattery_check (by norm_num),
    limitedBattery_leads_idle loweredBattery_check, ?_⟩
  rw [firstMinimum, Demand.atLeast_num]
  norm_num

end Dispatch

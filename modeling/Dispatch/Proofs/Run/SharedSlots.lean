import Mathlib.Data.List.Basic
import Mathlib.Logic.Function.Iterate
import Dispatch.Run.Callers

/-! # What the slots bound

* `Callers.Accounted`: the busy slots are those that calls hold, and the log has every call's slot
  taken and given back.
* `slots_bound_solvers`: however many calls share the slots and whatever the order of what happens to
  them, the solvers at work never outnumber the slots, and every slot taken is given back once.
-/

namespace Dispatch
set_option autoImplicit false

theorem countP_set_add {α : Type} {l : List α} {i : ℕ} {a : α} (h : l[i]? = some a) (b : α)
    (p : α → Bool) : (l.set i b).countP p + (p a).toNat = l.countP p + (p b).toNat := by
  obtain ⟨hi, rfl⟩ := List.getElem?_eq_some_iff.mp h
  rw [List.countP_set hi]
  cases hold : p l[i] with
  | false => cases p b <;> simp
  | true =>
    have hpos : 0 < l.countP p := List.countP_pos_iff.mpr ⟨l[i], List.getElem_mem hi, hold⟩
    cases p b <;> simp <;> omega

/-! ## One event -/

namespace SlotUse

def taken (u : SlotUse) : ℕ := (u == take).toNat

def given (u : SlotUse) : ℕ := (u == giveBack).toNat

theorem after?_busy {u : SlotUse} {s t : Slots} (h : u.after? s = some t) :
    t.busy + u.given = s.busy + u.taken := by
  cases u with
  | keep => cases h; rfl
  | lack =>
    simp only [after?, Option.ite_none_left_eq_some] at h
    obtain ⟨-, h⟩ := h
    cases h
    rfl
  | take =>
    simp only [after?, Slots.acquire?, Option.ite_none_right_eq_some] at h
    obtain ⟨-, h⟩ := h
    cases h
    rfl
  | giveBack =>
    simp only [after?, Slots.release?, Option.ite_none_left_eq_some] at h
    obtain ⟨hpos, h⟩ := h
    cases h
    exact Nat.sub_add_cancel (Nat.pos_of_ne_zero hpos)

theorem after?_capacity {u : SlotUse} {s t : Slots} (h : u.after? s = some t) :
    t.capacity = s.capacity := by
  cases u <;>
    simp only [after?, Slots.acquire?, Slots.release?, Option.ite_none_left_eq_some,
      Option.ite_none_right_eq_some, Option.some.injEq] at h
  · rw [h]
  all_goals rw [← h.2]

theorem after?_within {u : SlotUse} {s t : Slots} (hs : s.Within) (h : u.after? s = some t) :
    t.Within := by
  by_cases htake : u = take
  · subst htake
    exact Slots.acquire?_within h
  · intro n hn
    have hbusy := after?_busy h
    have htaken : u.taken = 0 := by simp [taken, htake]
    have := hs n (after?_capacity h ▸ hn)
    omega

/-- A slot that is held can be given back. -/
theorem after?_giveBack {s : Slots} (h : 0 < s.busy) :
    giveBack.after? s = some { s with busy := s.busy - 1 } := by
  rw [after?, Slots.release?, if_neg (Nat.pos_iff_ne_zero.mp h)]

end SlotUse

namespace CallStage

/-- The events take a slot for a call that has had none, and give back the slot that it holds. -/
theorem after?_uses {stage next : CallStage} {event : CallEvent} {slotUse : SlotUse}
    (h : stage.after? event = some (next, slotUse)) :
    next.hadSlot.toNat = stage.hadSlot.toNat + slotUse.taken ∧
      next.holdsSlot.toNat + slotUse.given = stage.holdsSlot.toNat + slotUse.taken := by
  unfold after? at h
  split at h
  all_goals cases h
  all_goals exact ⟨rfl, rfl⟩

end CallStage

namespace Callers
variable {slots : Slots} {c d : Callers} {log : List (ℕ × SlotUse)} {i : ℕ} {event : CallEvent}
  {slotUse : SlotUse}

/-! ## Every run -/

structure Accounted (c : Callers) (log : List (ℕ × SlotUse)) : Prop where
  busy : c.slots.busy = c.holders
  within : c.slots.Within
  taken : ∀ i stage, c.stages[i]? = some stage → log.count (i, .take) = stage.hadSlot.toNat
  given : ∀ i stage, c.stages[i]? = some stage →
    log.count (i, .giveBack) + stage.holdsSlot.toNat = stage.hadSlot.toNat
  /-- Nothing is logged of a call that has not come yet. -/
  fresh : ∀ i, c.stages.length ≤ i → ∀ slotUse, log.count (i, slotUse) = 0

theorem count_append_use (log : List (ℕ × SlotUse)) (i j : ℕ) (u v : SlotUse) :
    (log ++ [(i, u)]).count (j, v) = log.count (j, v) + if i = j then (u == v).toNat else 0 := by
  rw [List.count_append, List.count_singleton]
  by_cases hij : i = j <;> by_cases huv : u = v <;> simp [hij, huv]

namespace Accounted

theorem ofSlots (h : slots.busy = 0) : (ofSlots slots).Accounted [] where
  busy := h
  within n _ := h ▸ n.zero_le
  taken _ _ h := by cases h
  given _ _ h := by cases h
  fresh _ _ _ := rfl

theorem call (h : c.Accounted log) : c.call.Accounted log := by
  have hstage : ∀ {i stage}, c.call.stages[i]? = some stage →
      c.stages[i]? = some stage ∨ (c.stages.length ≤ i ∧ stage = .waiting) := by
    intro i stage hi
    rw [Callers.call, List.getElem?_append] at hi
    split at hi
    case isTrue => exact .inl hi
    case isFalse hlen =>
      exact .inr ⟨Nat.le_of_not_lt hlen, List.mem_singleton.mp (List.mem_of_getElem? hi)⟩
  refine ⟨?_, h.within, fun i stage hi => ?_, fun i stage hi => ?_, fun i hi => h.fresh i ?_⟩
  · rw [Callers.call, holders, List.countP_append]
    exact h.busy
  · rcases hstage hi with hold | ⟨hnew, rfl⟩
    · exact h.taken i stage hold
    · exact h.fresh i hnew _
  · rcases hstage hi with hold | ⟨hnew, rfl⟩
    · exact h.given i stage hold
    · rw [h.fresh i hnew]
      rfl
  · rw [Callers.call, List.length_append] at hi
    exact Nat.le_of_add_right_le hi

theorem step (h : c.Accounted log) (hs : c.after? i event = some (slotUse, d)) :
    d.Accounted (log ++ [(i, slotUse)]) := by
  obtain ⟨stage, next, slots, hstage, hnext, hslots, rfl⟩ := after?_eq_some_iff.mp hs
  obtain ⟨hhad, hholds⟩ := CallStage.after?_uses hnext
  have hi : i < c.stages.length := (List.getElem?_eq_some_iff.mp hstage).1
  have hget : ∀ {j old}, (c.stages.set i next)[j]? = some old →
      (i = j ∧ old = next) ∨ (i ≠ j ∧ c.stages[j]? = some old) := by
    intro j old hj
    rw [List.getElem?_set] at hj
    grind
  refine ⟨?_, SlotUse.after?_within h.within hslots, fun j old hj => ?_, fun j old hj => ?_,
    fun j hj use => ?_⟩
  · have hcount := countP_set_add hstage next CallStage.holdsSlot
    have hbusy := SlotUse.after?_busy hslots
    have := h.busy
    simp only [holders] at this ⊢
    omega
  · rw [count_append_use]
    rcases hget hj with ⟨rfl, rfl⟩ | ⟨hne, hj⟩
    · rw [h.taken i stage hstage, if_pos rfl, hhad]
      rfl
    · rw [h.taken j old hj, if_neg hne, Nat.add_zero]
  · rw [count_append_use]
    rcases hget hj with ⟨rfl, rfl⟩ | ⟨hne, hj⟩
    · have hgiven := h.given i stage hstage
      rw [if_pos rfl]
      change _ + slotUse.given + _ = _
      omega
    · rw [if_neg hne, Nat.add_zero]
      exact h.given j old hj
  · rw [List.length_set] at hj
    rw [count_append_use, h.fresh j hj, if_neg (by omega)]

end Accounted

theorem Reaches.accounted (hslots : slots.busy = 0) (h : (ofSlots slots).Reaches log c) :
    c.Accounted log := by
  induction h with
  | refl => exact .ofSlots hslots
  | call _ ih => exact ih.call
  | step _ _ _ hs ih => exact ih.step hs

theorem Reaches.capacity (h : (ofSlots slots).Reaches log c) : c.slots.capacity = slots.capacity := by
  induction h with
  | refl => rfl
  | call _ ih => exact ih
  | step _ _ _ hs ih =>
    obtain ⟨_, _, _, _, _, hslots, rfl⟩ := after?_eq_some_iff.mp hs
    exact (SlotUse.after?_capacity hslots).trans ih

namespace Accounted

theorem holder (h : c.Accounted log) {stage : CallStage} (hi : c.stages[i]? = some stage)
    (hholds : stage.holdsSlot = true) : log.count (i, .take) = 1 ∧ log.count (i, .giveBack) = 0 := by
  have htaken := h.taken i stage hi
  have hgiven := h.given i stage hi
  have hhad := CallStage.hadSlot_of_holdsSlot hholds
  rw [hhad] at htaken hgiven
  rw [hholds] at hgiven
  exact ⟨htaken, by simpa using hgiven⟩

theorem other (h : c.Accounted log) {stage : CallStage} (hi : c.stages[i]? = some stage)
    (hholds : stage.holdsSlot = false) :
    log.count (i, .take) = stage.hadSlot.toNat ∧ log.count (i, .giveBack) = stage.hadSlot.toNat := by
  have hgiven := h.given i stage hi
  rw [hholds] at hgiven
  exact ⟨h.taken i stage hi, hgiven⟩

/-- No call gives back a slot that is not busy. -/
theorem after?_giveBack (h : c.Accounted log) {stage next : CallStage}
    (hi : c.stages[i]? = some stage) (hnext : stage.after? event = some (next, .giveBack)) :
    ∃ d, c.after? i event = some (.giveBack, d) ∧ d.slots.busy + 1 = c.slots.busy := by
  obtain ⟨-, hholds⟩ := CallStage.after?_uses hnext
  have hheld : stage.holdsSlot = true := by
    cases hstage : stage.holdsSlot with
    | true => rfl
    | false =>
      rw [hstage] at hholds
      exact absurd hholds (Nat.succ_ne_zero _)
  have hpos : 0 < c.slots.busy :=
    h.busy ▸ List.countP_pos_iff.mpr ⟨stage, List.mem_of_getElem? hi, hheld⟩
  refine ⟨_, after?_eq_some_iff.mpr
    ⟨stage, next, _, hi, hnext, SlotUse.after?_giveBack hpos, rfl⟩, ?_⟩
  exact Nat.sub_add_cancel hpos

end Accounted

end Callers

/-- However many calls share the slots and whatever the order of what happens to them, the busy slots
are those that calls hold, a solver at work holds one whether it is waited for or not, a slot taken is
given back once and none is given back that was not taken, and in the end none is busy. -/
theorem slots_bound_solvers {capacity : ℕ} {log : List (ℕ × SlotUse)} {c : Callers}
    (h : (Callers.ofSlots (.ofCapacity capacity)).Reaches log c) :
    c.slots.busy = c.holders ∧ c.live ≤ c.holders ∧ c.holders ≤ max capacity 1 ∧
      (∀ i stage, c.stages[i]? = some stage →
        (stage.isLive = true → stage.holdsSlot = true) ∧
        (stage.holdsSlot = true → log.count (i, .take) = 1 ∧ log.count (i, .giveBack) = 0) ∧
        (stage.holdsSlot = false → log.count (i, .take) = stage.hadSlot.toNat ∧
          log.count (i, .giveBack) = stage.hadSlot.toNat)) ∧
      (∀ i stage event next, c.stages[i]? = some stage →
        stage.after? event = some (next, .giveBack) →
        ∃ d, c.after? i event = some (.giveBack, d) ∧ d.slots.busy + 1 = c.slots.busy) ∧
      ((∀ stage ∈ c.stages, stage.isLive = false ∧ stage.isPending = false) → c.slots.busy = 0) := by
  have hc := h.accounted rfl
  refine ⟨hc.busy, c.live_le_holders, hc.busy ▸ hc.within _ h.capacity, fun i stage hi => ?_,
    fun i stage event next hi => hc.after?_giveBack hi, fun hover => ?_⟩
  · exact ⟨CallStage.holdsSlot_of_isLive, hc.holder hi, hc.other hi⟩
  · rw [hc.busy]
    refine List.countP_eq_zero.mpr fun stage hmem hholds => ?_
    obtain ⟨hlive, hpending⟩ := hover stage hmem
    rcases CallStage.isLive_or_isPending hholds with h | h
    · rw [hlive] at h
      cases h
    · rw [hpending] at h
      cases h

/-- No slots count as one. While a solver is at work that nobody waits for, another call has to give
up; once the solver has died, the slot is free. -/
theorem abandoned_solver_keeps_slot : ∃ (log log' : List (ℕ × SlotUse)) (c d : Callers),
    (Callers.ofSlots (.ofCapacity 0)).Reaches log c ∧
    c.stages = [.started false .working, .refused] ∧ c.slots.busy = 1 ∧ c.live ≤ 1 ∧
    log.count (0, .take) = 1 ∧ log.count (0, .giveBack) = 0 ∧ log.count (1, .take) = 0 ∧
    (Callers.ofSlots (.ofCapacity 0)).Reaches log' d ∧
    d.stages = [.started false .ended, .refused] ∧ d.slots.busy = 0 ∧
    log'.count (0, .giveBack) = 1 := by
  let start := Callers.ofSlots (.ofCapacity 0)
  have hworking : start.Reaches [(0, .take), (0, .keep), (0, .keep), (1, .lack)]
      ⟨⟨some 1, 1⟩, [.started false .working, .refused]⟩ :=
    ((((Callers.Reaches.refl.call.step 0 .takeSlot rfl).step 0 .start rfl).step
      0 .abandon rfl).call).step 1 .giveUp rfl
  have hdead : start.Reaches
      ([(0, .take), (0, .keep), (0, .keep), (1, .lack)] ++ [(0, .keep), (0, .giveBack)])
      ⟨⟨some 1, 0⟩, [.started false .ended, .refused]⟩ :=
    (hworking.step 0 .die rfl).step 0 .finish rfl
  obtain ⟨hbusy, hlive, hmost, hcalls, -, -⟩ := slots_bound_solvers hworking
  obtain ⟨-, hholds, -⟩ := hcalls 0 _ rfl
  obtain ⟨-, -, hrefused⟩ := hcalls 1 _ rfl
  obtain ⟨-, -, -, hended, -, hover⟩ := slots_bound_solvers hdead
  obtain ⟨-, -, hgiven⟩ := hended 0 _ rfl
  exact ⟨_, _, _, _, hworking, rfl, hbusy, Nat.le_trans hlive hmost, (hholds rfl).1, (hholds rfl).2,
    (hrefused rfl).1, hdead, rfl, hover (by decide), (hgiven rfl).2⟩

end Dispatch

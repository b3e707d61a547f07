import Dispatch.Proofs.Run.SharedSlots
import Dispatch.Proofs.Run.Retries

/-! # Watched solves are calls

* `Watch.Shows`: a watch shows some calls, none of which anybody waits for any more.
* `Watch.Arises`: the watch shows what so many calls have come to.
* `scheduleProblem_arises`: every attempt is one more call that shares the slots.

So what holds of calls in any order holds of the watch, in which one call is made after another and
only the solvers that were given up are at work in the meantime.
-/

namespace Dispatch
set_option autoImplicit false

/-- Nobody waits for it, and if it has a solver that has not ended, that one is at work. -/
def CallStage.Unattended (s : CallStage) : Prop :=
  s = .started false .working ∨ (s.isLive = false ∧ s.isPending = false)

namespace Callers
variable {slots : Slots} {c : Callers} {log : List (ℕ × SlotUse)}

def Unattended (c : Callers) : Prop := ∀ stage ∈ c.stages, stage.Unattended

/-! ## Solvers that end -/

/-- A solver that was given up ends some time, and gives its slot back. -/
theorem Reaches.end_one (hslots : slots.busy = 0) (h : (ofSlots slots).Reaches log c)
    (hc : c.Unattended) (hlive : 0 < c.live) :
    ∃ log' d, (ofSlots slots).Reaches log' d ∧ d.Unattended ∧
      d.stages.length = c.stages.length ∧ d.live + 1 = c.live ∧ d.slots = c.slots.release := by
  obtain ⟨stage, hmem, hstage⟩ := List.countP_pos_iff.mp hlive
  obtain rfl : stage = .started false .working := by
    rcases hc stage hmem with rfl | ⟨hover, -⟩
    · rfl
    · rw [hstage] at hover
      cases hover
  obtain ⟨i, hi⟩ := List.mem_iff_getElem?.mp hmem
  have hlen : i < c.stages.length := (List.getElem?_eq_some_iff.mp hi).1
  have hbusy : 0 < c.slots.busy := (h.accounted hslots).busy ▸ hlive.trans_le c.live_le_holders
  have hreplied := h.step i .reply (after?_eq_some_iff.mpr ⟨_, _, _, hi, rfl, rfl, rfl⟩)
  have hended := hreplied.step i .finish (after?_eq_some_iff.mpr
    ⟨_, _, _, List.getElem?_set_self hlen, rfl, SlotUse.after?_giveBack hbusy, rfl⟩)
  rw [List.set_set] at hended
  have hcount := countP_set_add hi (.started false .ended) CallStage.isLive
  refine ⟨_, _, hended, fun stage hmem => ?_, List.length_set, hcount, rfl⟩
  rcases List.mem_or_eq_of_mem_set hmem with hmem | rfl
  · exact hc stage hmem
  · exact .inr ⟨rfl, rfl⟩

theorem Reaches.end_many (hslots : slots.busy = 0) (h : (ofSlots slots).Reaches log c)
    (hc : c.Unattended) (k : ℕ) (hk : k ≤ c.live) :
    ∃ log' d, (ofSlots slots).Reaches log' d ∧ d.Unattended ∧
      d.stages.length = c.stages.length ∧ d.live + k = c.live ∧
      d.slots = Slots.release^[k] c.slots := by
  induction k with
  | zero => exact ⟨log, c, h, hc, rfl, rfl, rfl⟩
  | succ k ih =>
    obtain ⟨_, d, hd, hunattended, hlen, hlive, hgiven⟩ := ih (by omega)
    obtain ⟨log', e, he, hunattended', hlen', hlive', hgiven'⟩ :=
      hd.end_one hslots hunattended (by omega)
    refine ⟨log', e, he, hunattended', hlen'.trans hlen, by omega, ?_⟩
    rw [hgiven', hgiven, Function.iterate_succ_apply']

/-! ## The call that came last -/

theorem Reaches.step_last {stages : List CallStage} {stage next : CallStage} {slotUse : SlotUse}
    {before after : Slots} (event : CallEvent)
    (h : (ofSlots slots).Reaches log ⟨before, stages ++ [stage]⟩)
    (hnext : stage.after? event = some (next, slotUse)) (hslots : slotUse.after? before = some after) :
    (ofSlots slots).Reaches (log ++ [(stages.length, slotUse)]) ⟨after, stages ++ [next]⟩ := by
  refine h.step stages.length event
    (after?_eq_some_iff.mpr ⟨stage, next, after, ?_, hnext, hslots, ?_⟩)
  · exact List.getElem?_concat_length
  · rw [List.set_append_right _ _ le_rfl, Nat.sub_self]
    rfl

theorem Unattended.append (hc : c.Unattended) {stage : CallStage} (h : stage.Unattended) (s : Slots) :
    (⟨s, c.stages ++ [stage]⟩ : Callers).Unattended := by
  intro other hmem
  rcases List.mem_append.mp hmem with hmem | hmem
  · exact hc other hmem
  · exact List.mem_singleton.mp hmem ▸ h

end Callers

/-! ## Watches -/

theorem Slots.release_of_acquire? {s t : Slots} (h : s.acquire? = some t) : t.release = s := by
  rw [acquire?, Option.ite_none_right_eq_some] at h
  obtain ⟨-, h⟩ := h
  cases h
  rfl

namespace Watch

/-- Slots may be given back before or after time has passed. -/
theorem advance_release (w : Watch) (t : Span) :
    advance { w with slots := w.slots.release } t =
      { w.advance t with slots := (w.advance t).slots.release } := by
  simp only [advance, List.foldl_const]
  rw [← Function.iterate_succ_apply Slots.release, Function.iterate_succ_apply']

structure Shows (w : Watch) (c : Callers) : Prop where
  slots : w.slots = c.slots
  live : w.abandoned.length = c.live
  unattended : c.Unattended

def Arises (slots : Slots) (calls : ℕ) (w : Watch) : Prop :=
  ∃ log c, (Callers.ofSlots slots).Reaches log c ∧ c.stages.length = calls ∧ w.Shows c

variable {slots taken : Slots} {calls : ℕ} {w : Watch}

theorem ofSlots_arises (slots : Slots) : (ofSlots slots).Arises slots 0 :=
  ⟨_, _, .refl, rfl, rfl, rfl, nofun⟩

namespace Arises

/-- The busy slots are those of the solvers that were given up. -/
theorem busy_eq (hslots : slots.busy = 0) (h : w.Arises slots calls) :
    w.slots.busy = w.abandoned.length ∧ ∀ n, slots.capacity = some n → w.abandoned.length ≤ n := by
  obtain ⟨log, c, hc, -, hshows⟩ := h
  have haccounted := hc.accounted hslots
  have hholders : c.holders = c.live := by
    refine List.countP_congr fun stage hmem => ⟨fun hholds => ?_, CallStage.holdsSlot_of_isLive⟩
    rcases hshows.unattended stage hmem with rfl | ⟨-, hpending⟩
    · rfl
    · refine (CallStage.isLive_or_isPending hholds).resolve_right ?_
      rw [hpending]
      exact Bool.false_ne_true
  rw [hshows.slots, hshows.live, haccounted.busy, hholders]
  refine ⟨rfl, fun n hn => ?_⟩
  rw [← hholders, ← haccounted.busy]
  exact haccounted.within n (hc.capacity.trans hn)

theorem advance (hslots : slots.busy = 0) (h : w.Arises slots calls) (t : Span) :
    (w.advance t).Arises slots calls := by
  obtain ⟨log, c, hc, hlen, hshows⟩ := h
  have hsplit := w.abandoned.length_eq_length_filter_add (· ≤ t)
  obtain ⟨log', d, hd, hunattended, hlen', hlive, hgiven⟩ := hc.end_many hslots hshows.unattended
    (w.abandoned.filter (· ≤ t)).length (by rw [← hshows.live]; omega)
  refine ⟨log', d, hd, hlen'.trans hlen, ?_, ?_, hunattended⟩
  · rw [hgiven, Watch.advance, List.foldl_const, hshows.slots]
  · have := hshows.live
    show (w.abandoned.filter fun e => !(decide (e ≤ t))).length = _
    omega

/-- A call that finds no slot leaves the watch as it is. -/
theorem refuse (h : w.Arises slots calls) (hnone : w.slots.acquire? = none) :
    w.Arises slots (calls + 1) := by
  obtain ⟨log, c, hc, rfl, hshows⟩ := h
  have hfull : SlotUse.lack.after? c.slots = some c.slots := by
    rw [← hshows.slots, SlotUse.after?, if_neg]
    intro hfree
    rw [Slots.acquire?, if_pos hfree] at hnone
    cases hnone
  refine ⟨_, _, hc.call.step_last .giveUp rfl hfull, List.length_append, hshows.slots, ?_,
    hshows.unattended.append (.inr ⟨rfl, rfl⟩) _⟩
  rw [hshows.live, Callers.live, Callers.live, List.countP_append]
  rfl

/-- A solver that is given up goes on with its slot. -/
theorem give_up (h : w.Arises slots calls) (hfree : w.slots.acquire? = some taken) (e : Span) :
    Watch.Arises slots (calls + 1) ⟨taken, w.now, w.abandoned ++ [e]⟩ := by
  obtain ⟨log, c, hc, rfl, hshows⟩ := h
  have hstarted := (hc.call.step_last .takeSlot rfl (hshows.slots ▸ hfree)).step_last .start rfl rfl
  refine ⟨_, _, hstarted.step_last .abandon rfl rfl, List.length_append, rfl, ?_,
    hshows.unattended.append (.inl rfl) _⟩
  rw [List.length_append, hshows.live, Callers.live, Callers.live, List.countP_append]
  rfl

/-- A solver that replies in time has given back its slot by then. -/
theorem answer (hslots : slots.busy = 0) (h : w.Arises slots calls)
    (hfree : w.slots.acquire? = some taken) : w.Arises slots (calls + 1) := by
  obtain ⟨log, c, hc, rfl, hshows⟩ := h
  have hstarted := (hc.call.step_last .takeSlot rfl (hshows.slots ▸ hfree)).step_last .start rfl rfl
  have hbusy : 0 < taken.busy := by
    have hheld := (hstarted.accounted hslots).busy
    rw [Callers.holders, List.countP_append] at hheld
    exact hheld ▸ Nat.succ_pos _
  have hended := ((hstarted.step_last .reply rfl rfl).step_last .finish rfl
    (SlotUse.after?_giveBack hbusy)).step_last .read rfl rfl
  refine ⟨_, _, hended, List.length_append, ?_, ?_, hshows.unattended.append (.inr ⟨rfl, rfl⟩) _⟩
  · exact (Slots.release_of_acquire? hfree).symm
  · rw [hshows.live, Callers.live, Callers.live, List.countP_append]
    rfl

/-- Whatever the solver does with a slot, it is what some call may come to. -/
theorem afterSolve (hslots : slots.busy = 0) (h : w.Arises slots calls)
    (hfree : w.slots.acquire? = some taken) (patience takes : Span) :
    (Watch.afterSolve { w with slots := taken } patience takes).Arises slots (calls + 1) := by
  rw [Watch.afterSolve]
  split
  case isTrue hlate =>
    -- The solver that was given up is not among those that end in the meantime.
    have hlater : ¬w.now + takes ≤ w.now + patience := by
      have hover := (isLate_iff.mp hlate).2
      rw [Span.le_iff, Span.nanos_add, Span.nanos_add]
      rw [Span.lt_iff] at hover
      omega
    have hadvance := (h.give_up hfree (w.now + takes)).advance hslots (w.now + patience)
    simpa only [Watch.advance, List.filter_append, List.filter_singleton, hlater, decide_false,
      Bool.not_false, cond_false, cond_true, List.append_nil] using hadvance
  case isFalse =>
    have hadvance := (h.answer hslots hfree).advance hslots (w.now + takes)
    have hgiven := advance_release { w with slots := taken } (w.now + takes)
    rw [Slots.release_of_acquire? hfree] at hgiven
    exact hgiven ▸ hadvance

/-- What comes of waiting for a slot. -/
theorem acquire (hslots : slots.busy = 0) (h : w.Arises slots calls) (deadline : Span) :
    ∃ later, later.Arises slots calls ∧
      w.acquire deadline = (later.slots.acquire?.map fun s => { later with slots := s }, later) := by
  rw [Watch.acquire]
  cases hfree : w.slots.acquire? with
  | some s => exact ⟨w, h, by rw [hfree]; rfl⟩
  | none =>
    refine ⟨_, ?_, rfl⟩
    split
    · split
      · exact h.advance hslots _
      · exact h.advance hslots _
    · exact h.advance hslots _

theorem awaitSlot (hslots : slots.busy = 0) (h : w.Arises slots calls) {budget grace : Span}
    {waited : Option Watch × Watch} (hwait : w.awaitSlot budget grace = some waited) :
    ∃ later, later.Arises slots calls ∧
      waited = (later.slots.acquire?.map fun s => { later with slots := s }, later) := by
  rw [Watch.awaitSlot] at hwait
  split at hwait
  · cases hwait
  · obtain ⟨deadline, -, rfl⟩ := Option.map_eq_some_iff.mp hwait
    exact h.acquire hslots deadline

end Arises

end Watch

/-! ## Attempts are calls -/

section
variable {α σ : Type} [Scalar α] {settings : SchedulerSettings α} {solver : Solver α σ}
  {p : Problem α} {slots : Slots} {calls : ℕ} {world : World σ}

theorem solveProblem_arises (hslots : slots.busy = 0) (h : world.watch.Arises slots calls)
    (budget : Span) : ∃ made ≤ 1,
      ((solveProblem settings solver p budget).run world).2.watch.Arises slots (calls + made) := by
  cases hm : p.model settings.solve.margin with
  | error fault =>
    rw [solveProblem_of_error hm]
    exact ⟨0, Nat.zero_le 1, h⟩
  | ok m =>
    obtain ⟨ws, hleft⟩ := solveProblem_snd solver world hm budget
    rw [hleft]
    cases hwait : world.watch.awaitSlot budget settings.solve.grace with
    | none => exact ⟨0, Nat.zero_le 1, h⟩
    | some waited =>
      refine ⟨1, le_rfl, ?_⟩
      obtain ⟨later, hlater, rfl⟩ := h.awaitSlot hslots hwait
      cases hfree : later.slots.acquire? with
      | none => exact hlater.refuse hfree
      | some taken => exact hlater.afterSolve hslots hfree _ _

theorem attemptsFrom_arises (hslots : slots.busy = 0) (h : world.watch.Arises slots calls)
    (retries : ℕ) (budget : Span) : ∃ made ≤ retries + 1,
      ((attemptsFrom settings solver p retries budget).run world).2.watch.Arises slots
        (calls + made) := by
  induction retries generalizing budget world calls with
  | zero => exact solveProblem_arises hslots h budget
  | succ retries ih =>
    obtain ⟨made, hmade, hleft⟩ : ∃ made ≤ 1, ((solveProblem settings solver p budget).run
      world).2.watch.Arises slots (calls + made) := solveProblem_arises hslots h budget
    rw [attemptsFrom, run_bind_world]
    generalize (solveProblem settings solver p budget).run world = tried at hleft ⊢
    obtain ⟨failure | schedule, left⟩ := tried
    · dsimp only at hleft ⊢
      split
      · cases budget.grown? settings.retry.growth with
        | none => exact ⟨made, by omega, hleft⟩
        | some next =>
          let warned : World σ := { left with warnings := left.warnings ++ [.retrying] }
          have hwarned : warned.watch.Arises slots (calls + made) := hleft
          obtain ⟨more, hmore, hend⟩ := ih hwarned next
          exact ⟨made + more, by omega, Nat.add_assoc _ _ _ ▸ hend⟩
      · exact ⟨made, by omega, hleft⟩
    · exact ⟨made, by omega, hleft⟩

/-- Every attempt is at most one more call that shares the slots. So at any time the busy slots are
those of the solvers that were given up, and these never outnumber the slots. -/
theorem scheduleProblem_arises (hslots : slots.busy = 0) (h : world.watch.Arises slots calls) :
    (∃ made ≤ max 1 settings.retry.maxAttempts,
      ((scheduleProblem settings solver p).run world).2.watch.Arises slots (calls + made)) ∧
    ((scheduleProblem settings solver p).run world).2.watch.slots.busy =
      ((scheduleProblem settings solver p).run world).2.watch.abandoned.length ∧
    ∀ n, slots.capacity = some n →
      ((scheduleProblem settings solver p).run world).2.watch.abandoned.length ≤ n := by
  obtain ⟨made, hmade, hend⟩ : ∃ made ≤ settings.retry.maxAttempts - 1 + 1,
    ((scheduleProblem settings solver p).run world).2.watch.Arises slots (calls + made) :=
      attemptsFrom_arises hslots h _ _
  exact ⟨⟨made, by omega, hend⟩, hend.busy_eq hslots⟩

end

end Dispatch

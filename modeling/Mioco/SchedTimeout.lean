import Mathlib.Tactic.Common
import Mioco.Step
/-!
# The scheduler's timeout (src/thread.rs, src/mod.rs)

A `Handler::tick` that leaves coroutines in `delayed` asks mio for a timeout with the special token.  `Clocked` is an
instance with the default scheduler, the clock and these timeouts; mio keeps them in the slots of the user's timers,
`capacity` of them for each event loop, and gives a free one to whoever asks.
-/
namespace Mioco

open Lib (System)

/-- `FifoSchedulerThread::timeout`, in milliseconds. -/
def FifoThread.timeout (delayed : List Handle) : Option Nat := if delayed.isEmpty then none else some 1000

structure Clocked (w : Nat) (α : Type) where
  inst : Instance fifo w α
  /-- in milliseconds -/
  now : Nat
  /-- the thread is in `Handler::tick` -/
  inTick : Nat → Bool
  /-- timeouts of the scheduler pending, by thread and slot, each with the time it is due -/
  special : Nat → Nat → Option Nat
  /-- the `unwrap` of `timeout_ms` in `Handler::tick` panicked -/
  failed : Nat → Bool

inductive ClockAct (α : Type)
  | inst (a : Action α)
  /-- the end of `Handler::tick`; `slot` is the one mio takes if it is asked -/
  | endTick (t slot : Nat)
  /-- the end of `Handler::tick`, when mio has no slot left -/
  | overflow (t : Nat)
  /-- mio calls `Handler::timeout` with the special token -/
  | fire (t slot : Nat)
  | elapse (ms : Nat)
deriving DecidableEq, Repr

namespace Clocked
variable {w : Nat} {α : Type}

def start (w : Nat) {α : Type} (bound : Nat → Option Nat) : Clocked w α :=
  ⟨.start fifo w bound, 0, fun _ => false, fun _ _ => none, fun _ => false⟩

def free (s : Clocked w α) (capacity t slot : Nat) : Bool :=
  decide (slot < capacity) && ((s.inst.threads t).wheel slot).isNone && (s.special t slot).isNone

/-- The callback is over and the thread in mio, or in what is left of `Handler::tick`. -/
def idle (s : Clocked w α) (t : Nat) : Bool := (s.inst.threads t).pc.isPoll && !s.failed t

/-- `scheduler.tick` and `deliver_to_scheduler` have returned. -/
def ticked (s : Clocked w α) (t : Nat) : Bool := s.idle t && s.inTick t

def delayed (s : Clocked w α) (t : Nat) : List Handle := (s.inst.threads t).held

/-- The instance can take the step: its thread has not panicked and is not at the end of a tick, and mio does not give
a slot of the scheduler's to a timer of the user. -/
def allows (s : Clocked w α) (capacity : Nat) : Action α → Bool
  | .thread t a => !s.failed t && !s.ticked t &&
    match a with
    | .register due slot _ => due || s.free capacity t slot
    | _ => true
  | _ => true

/-- `Handler::tick` begins; `thread_loop` calls it once before mio does. -/
def begins (s : Clocked w α) : Action α → Nat → Bool
  | .thread t .start | .thread t .tick => Function.update s.inTick t true
  | _ => s.inTick

def step (cfg : Config) (capacity : Nat) (s : Clocked w α) : ClockAct α → Option (Clocked w α)
  | .inst a =>
    if s.allows capacity a then
      (s.inst.step cfg a).map fun inst => { s with inst := inst, inTick := s.begins a }
    else none
  | .endTick t slot =>
    if s.ticked t then
      match FifoThread.timeout (s.delayed t) with
      | none => some { s with inTick := Function.update s.inTick t false }
      | some ms =>
        if s.free capacity t slot then
          some { s with
            inTick := Function.update s.inTick t false
            special := Function.update s.special t (Function.update (s.special t) slot (some (s.now + ms))) }
        else none
    else none
  | .overflow t =>
    if s.ticked t && (FifoThread.timeout (s.delayed t)).isSome &&
        (List.range capacity).all (fun slot => !s.free capacity t slot) then
      some { s with failed := Function.update s.failed t true }
    else none
  | .fire t slot =>
    match s.special t slot with
    | some due =>
      if s.idle t && !s.inTick t && decide (due ≤ s.now) then
        some { s with special := Function.update s.special t (Function.update (s.special t) slot none) }
      else none
    | none => none
  | .elapse ms => some { s with now := s.now + ms }

end Clocked

/-- The runs of an instance with the default scheduler, its clock and its timeouts. -/
def clocked (w : Nat) (α : Type) (cfg : Config) (bound : Nat → Option Nat) (capacity : Nat) :
    System (Clocked w α) (ClockAct α) where
  Init s := s = Clocked.start w bound
  step := Clocked.step cfg capacity

namespace Clocked
variable {w : Nat} {α : Type} {cfg : Config} {bound : Nat → Option Nat} {capacity : Nat} {s s' : Clocked w α}

/-- Pending timeouts of the scheduler in event loop `t`. -/
def pending (s : Clocked w α) (capacity t : Nat) : Nat := (List.range capacity).countP fun slot => (s.special t slot).isSome

/-- A tick that leaves delayed coroutines ends when no timeout of an earlier one is pending. -/
def alone (capacity : Nat) (s : Clocked w α) : ClockAct α → Prop
  | .endTick t _ | .overflow t => s.delayed t = [] ∨ s.pending capacity t = 0
  | _ => True

instance (capacity : Nat) (s : Clocked w α) (a : ClockAct α) : Decidable (alone capacity s a) :=
  match a with
  | .endTick t _ | .overflow t => inferInstanceAs (Decidable (s.delayed t = [] ∨ s.pending capacity t = 0))
  | .inst _ | .fire _ _ | .elapse _ => inferInstanceAs (Decidable True)

theorem timeout_eq_none {delayed : List Handle} : FifoThread.timeout delayed = none ↔ delayed = [] := by
  cases delayed with
  | nil => exact iff_of_true rfl rfl
  | cons h l => exact iff_of_false (fun hn => by cases hn) (List.cons_ne_nil h l)

/-! ## One more timeout, or one less -/

theorem countP_update (p : Nat → Option Nat) {slot : Nat} (v : Option Nat) : ∀ l : List Nat, l.Nodup → slot ∈ l →
    l.countP (fun i => (Function.update p slot v i).isSome) + (if (p slot).isSome then 1 else 0) =
      l.countP (fun i => (p i).isSome) + (if v.isSome then 1 else 0)
  | [], _, h => by cases h
  | a :: l, hnd, hmem => by
    obtain ⟨hnot, hnd'⟩ := List.nodup_cons.1 hnd
    rw [List.countP_cons, List.countP_cons]
    rcases eq_or_ne a slot with rfl | hne
    · have hrest : l.countP (fun i => (Function.update p a v i).isSome) = l.countP (fun i => (p i).isSome) := by
        refine List.countP_congr fun i hi => ?_
        rw [Function.update_of_ne (ne_of_mem_of_not_mem hi hnot)]
      rw [hrest, Function.update_self]
      omega
    · have ih := countP_update p v l hnd' ((List.mem_cons.1 hmem).resolve_left hne.symm)
      rw [Function.update_of_ne hne]
      omega

theorem countP_clear (p : Nat → Option Nat) (slot : Nat) (l : List Nat) :
    l.countP (fun i => (Function.update p slot none i).isSome) ≤ l.countP (fun i => (p i).isSome) := by
  refine List.countP_mono_left fun i _ h => ?_
  rw [Function.update_apply] at h
  split at h
  · cases h
  · exact h

/-- **A tick that leaves delayed coroutines adds a timeout**, whatever is pending. -/
theorem pending_endTick {t slot : Nat} (hd : s.delayed t ≠ []) (h : s.step cfg capacity (.endTick t slot) = some s') :
    s'.pending capacity t = s.pending capacity t + 1 := by
  simp only [step] at h
  split at h
  · split at h
    · rename_i hnone
      exact absurd (timeout_eq_none.1 hnone) hd
    · split at h
      · rename_i ms _ hfree
        cases h
        obtain ⟨hand, hspecial⟩ := Bool.and_eq_true_iff.1 hfree
        have hslot : slot < capacity := of_decide_eq_true (Bool.and_eq_true_iff.1 hand).1
        have hcount := countP_update (s.special t) (some (s.now + ms)) (List.range capacity) List.nodup_range
          (List.mem_range.2 hslot)
        simp only [pending, Function.update_self]
        rw [Option.isNone_iff_eq_none.1 hspecial] at hcount
        simpa using hcount
      · cases h
  · cases h

/-- A step leaves the timeouts of a thread alone, unless it ends a tick of it. -/
theorem pending_le {a : ClockAct α} {t : Nat} (ha : ∀ slot, a ≠ .endTick t slot)
    (h : s.step cfg capacity a = some s') : s'.pending capacity t ≤ s.pending capacity t := by
  cases a with
  | inst a =>
    simp only [step] at h
    split at h
    · obtain ⟨inst, -, rfl⟩ := Option.map_eq_some_iff.1 h
      exact Nat.le_refl _
    · cases h
  | endTick t' slot =>
    have hne : t ≠ t' := fun ht => ha slot (by rw [ht])
    simp only [step] at h
    split at h
    · split at h
      · cases h
        exact Nat.le_refl _
      · split at h <;> cases h
        simp only [pending, Function.update_of_ne hne]
        exact Nat.le_refl _
    · cases h
  | overflow t' =>
    simp only [step] at h
    split at h <;> cases h
    exact Nat.le_refl _
  | fire t' slot =>
    simp only [step] at h
    split at h
    · split at h <;> cases h
      simp only [pending]
      rcases eq_or_ne t t' with rfl | hne
      · rw [Function.update_self]
        exact countP_clear _ _ _
      · rw [Function.update_of_ne hne]
    · cases h
  | elapse ms =>
    cases h
    exact Nat.le_refl _

/-- An end of a tick with nobody delayed asks for nothing. -/
theorem pending_endTick_nil {t slot : Nat} (hd : s.delayed t = [])
    (h : s.step cfg capacity (.endTick t slot) = some s') : s'.pending capacity t = s.pending capacity t := by
  simp only [step, hd] at h
  split at h
  · cases h
    rfl
  · cases h

/-! ## Whole runs -/

/-- At most one timeout is pending, in a slot that exists, and none once a tick has panicked. -/
structure Lone (capacity : Nat) (s : Clocked w α) : Prop where
  one : ∀ t, s.pending capacity t ≤ 1
  slot_lt : ∀ t slot, s.special t slot ≠ none → slot < capacity
  failed : ∀ t, s.failed t = true → s.pending capacity t = 0

theorem slot_cases {p : Nat → Nat → Option Nat} {t t' slot slot' : Nat} {v : Option Nat}
    (h : Function.update p t' (Function.update (p t') slot' v) t slot ≠ none) :
    p t slot ≠ none ∨ t = t' ∧ slot = slot' ∧ v ≠ none := by
  rcases eq_or_ne t t' with rfl | ht
  · rw [Function.update_self] at h
    rcases eq_or_ne slot slot' with rfl | hslot
    · rw [Function.update_self] at h
      exact .inr ⟨rfl, rfl, h⟩
    · rw [Function.update_of_ne hslot] at h
      exact .inl h
  · rw [Function.update_of_ne ht] at h
    exact .inl h

theorem step_slot_lt {a : ClockAct α} (h : s.step cfg capacity a = some s') {t slot : Nat}
    (hs : s'.special t slot ≠ none) : s.special t slot ≠ none ∨ slot < capacity := by
  cases a with
  | inst a =>
    simp only [step] at h
    split at h
    · obtain ⟨inst, -, rfl⟩ := Option.map_eq_some_iff.1 h
      exact .inl hs
    · cases h
  | endTick t' slot' =>
    simp only [step] at h
    split at h
    · split at h
      · cases h
        exact .inl hs
      · split at h
        · rename_i hfree
          cases h
          obtain hold | ⟨-, rfl, -⟩ := slot_cases hs
          · exact .inl hold
          · exact .inr (of_decide_eq_true (Bool.and_eq_true_iff.1 (Bool.and_eq_true_iff.1 hfree).1).1)
        · cases h
    · cases h
  | overflow t' =>
    simp only [step] at h
    split at h <;> cases h
    exact .inl hs
  | fire t' slot' =>
    simp only [step] at h
    split at h
    · split at h <;> cases h
      obtain hold | ⟨-, -, hnone⟩ := slot_cases hs
      · exact .inl hold
      · exact absurd rfl hnone
    · cases h
  | elapse ms =>
    cases h
    exact .inl hs

/-- The thread whose tick panics stays with what was pending then. -/
theorem step_failed {a : ClockAct α} {t : Nat} (h : s.step cfg capacity a = some s') (hf : s'.failed t = true) :
    s.failed t = true ∨ a = .overflow t ∧ s.delayed t ≠ [] ∧ ∀ slot < capacity, s.free capacity t slot = false := by
  cases a with
  | inst a =>
    simp only [step] at h
    split at h
    · obtain ⟨inst, -, rfl⟩ := Option.map_eq_some_iff.1 h
      exact .inl hf
    · cases h
  | endTick t' slot =>
    simp only [step] at h
    split at h
    · split at h
      · cases h
        exact .inl hf
      · split at h <;> cases h
        exact .inl hf
    · cases h
  | overflow t' =>
    simp only [step] at h
    split at h
    · rename_i hand
      cases h
      rcases eq_or_ne t t' with rfl | ht
      · obtain ⟨hand, hall⟩ := Bool.and_eq_true_iff.1 hand
        refine .inr ⟨rfl, fun hnil => ?_, fun slot hslot => ?_⟩
        · rw [timeout_eq_none.2 hnil] at hand
          exact absurd (Bool.and_eq_true_iff.1 hand).2 Bool.false_ne_true
        · simpa using List.all_eq_true.1 hall slot (List.mem_range.2 hslot)
      · simp only [Function.update_of_ne ht] at hf
        exact .inl hf
    · cases h
  | fire t' slot =>
    simp only [step] at h
    split at h
    · split at h <;> cases h
      exact .inl hf
    · cases h
  | elapse ms =>
    cases h
    exact .inl hf

/-- A tick does not end once one has panicked. -/
theorem not_failed_endTick {t slot : Nat} (h : s.step cfg capacity (.endTick t slot) = some s') : s.failed t = false := by
  simp only [step] at h
  split at h
  · rename_i hticked
    have hidle := (Bool.and_eq_true_iff.1 hticked).1
    simpa using (Bool.and_eq_true_iff.1 hidle).2
  · cases h

theorem Lone.step (h : Lone capacity s) {a : ClockAct α} (hok : alone capacity s a)
    (hst : s.step cfg capacity a = some s') : Lone capacity s' := by
  have hpending : ∀ t, s'.pending capacity t ≤ 1 ∧ (s.failed t = true → s'.pending capacity t = 0) := by
    intro t
    by_cases ha : ∃ slot, a = .endTick t slot
    · obtain ⟨slot, rfl⟩ := ha
      have hlive := not_failed_endTick hst
      refine ⟨?_, fun hf => by rw [hlive] at hf; cases hf⟩
      by_cases hd : s.delayed t = []
      · rw [pending_endTick_nil hd hst]
        exact h.one t
      · rw [pending_endTick hd hst, hok.resolve_left hd]
    · have hle := pending_le (fun slot heq => ha ⟨slot, heq⟩) hst
      refine ⟨Nat.le_trans hle (h.one t), fun hf => ?_⟩
      rw [h.failed t hf] at hle
      exact Nat.le_zero.1 hle
  refine ⟨fun t => (hpending t).1, fun t slot hs => ?_, fun t hf => ?_⟩
  · exact (step_slot_lt hst hs).elim (h.slot_lt t slot) id
  · rcases step_failed hst hf with hold | ⟨rfl, hd, -⟩
    · exact (hpending t).2 hold
    · have hzero : s.pending capacity t = 0 := hok.resolve_left hd
      have hle := pending_le (fun slot heq => by cases heq) hst (t := t)
      rw [hzero] at hle
      exact Nat.le_zero.1 hle

theorem lone (hs : (clocked w α cfg bound capacity).Reach (alone capacity) s) : Lone capacity s := by
  refine hs.invariant (Lone capacity) ?_ (fun _ _ _ h hok hst => h.step hok hst)
  rintro s rfl
  refine ⟨fun t => ?_, fun t slot h => absurd rfl h, fun t hf => by cases hf⟩
  rw [pending, List.countP_eq_zero.2 fun slot _ h => by cases h]
  exact Nat.zero_le 1

/-- **The scheduler's timeouts do not accumulate** in a run whose ticks find none of an earlier one pending: there is
at most one, and `timeout_ms` only fails where the timers of the user take every slot. -/
theorem timeout_alone (hs : (clocked w α cfg bound capacity).Reach (alone capacity) s) {a : ClockAct α}
    (hok : alone capacity s a) (hst : s.step cfg capacity a = some s') (t : Nat) :
    (∀ slot slot', s'.special t slot ≠ none → s'.special t slot' ≠ none → slot = slot') ∧
      (s'.failed t = true → s.failed t = false →
        ∀ slot < capacity, ((s.inst.threads t).wheel slot).isSome = true) := by
  have h := lone hs
  have h' := h.step hok hst
  constructor
  · intro slot slot' hslot hslot'
    by_contra hne
    have hsub : [slot, slot'].Subperm (List.range capacity) := by
      refine (List.nodup_cons.2 ⟨fun hmem => hne (List.mem_singleton.1 hmem), List.nodup_singleton _⟩).subperm ?_
      intro i hi
      rcases List.mem_pair.1 hi with rfl | rfl
      · exact List.mem_range.2 (h'.slot_lt t _ hslot)
      · exact List.mem_range.2 (h'.slot_lt t _ hslot')
    have htwo := hsub.countP_le fun i => (s'.special t i).isSome
    rw [List.countP_cons, List.countP_singleton, if_pos (Option.isSome_iff_ne_none.2 hslot),
      if_pos (Option.isSome_iff_ne_none.2 hslot')] at htwo
    exact absurd (Nat.le_trans htwo (h'.one t)) (by decide)
  · intro hf hnot slot hslot
    rcases step_failed hst hf with hold | ⟨rfl, hd, hfull⟩
    · rw [hnot] at hold
      cases hold
    · have hzero : s.pending capacity t = 0 := hok.resolve_left hd
      have hnone : (s.special t slot).isNone = true := by
        have hcount := List.countP_eq_zero.1 hzero slot (List.mem_range.2 hslot)
        simpa using hcount
      have hnot := hfull slot hslot
      rw [free, decide_eq_true hslot, hnone, Bool.and_true, Bool.true_and] at hnot
      simpa using hnot

/-- One thread; coroutine 0 is started and yields. -/
def firstYield : List (Action Unit) :=
  [.thread 0 .start, .thread 0 (.sched 0), .thread 0 .next, .thread 0 (.sched 0), .thread 0 (.user .yieldNow),
   .thread 0 .next, .thread 0 .next, .thread 0 (.sched 0), .thread 0 .next, .thread 0 (.sched 0), .thread 0 .next,
   .thread 0 .next]

/-- A tick in which it yields again. -/
def yieldAgain : List (Action Unit) :=
  [.thread 0 .tick, .thread 0 (.sched 0), .thread 0 (.user .yieldNow), .thread 0 .next, .thread 0 .next,
   .thread 0 (.sched 0), .thread 0 .next, .thread 0 .next, .thread 0 (.sched 0), .thread 0 .next, .thread 0 .next]

/-- Its timeout has fired when the second tick ends. -/
theorem timeout_alone_slow : ∃ s s' : Clocked 64 Unit,
    s.step ⟨1, true⟩ 2 (.endTick 0 1) = some s' ∧ s'.special 0 1 = some 2000 ∧
      ∀ slot slot', s'.special 0 slot ≠ none → s'.special 0 slot' ≠ none → slot = slot' := by
  have hsome : ((clocked 64 Unit ⟨1, true⟩ (fun _ => none) 2).exec (firstYield.map ClockAct.inst ++
      [.endTick 0 0, .elapse 1000, .fire 0 0] ++ yieldAgain.map ClockAct.inst) (.start 64 (fun _ => none))).any
        (fun s => decide (alone 2 s (.endTick 0 1)) &&
          (s.step ⟨1, true⟩ 2 (.endTick 0 1)).any (fun s' => decide (s'.special 0 1 = some 2000))) = true := by
    decide +kernel
  obtain ⟨s, hs, hand⟩ := (Option.any_eq_true _ _).1 hsome
  obtain ⟨hok, hafter⟩ := Bool.and_eq_true_iff.1 hand
  obtain ⟨s', hst, hdue⟩ := (Option.any_eq_true _ _).1 hafter
  have hr : (clocked 64 Unit ⟨1, true⟩ (fun _ => none) 2).Reach (alone 2) s :=
    System.reach_exec _ _ s (.init rfl) (by decide +kernel) hs
  exact ⟨s, s', hst, of_decide_eq_true hdue, (timeout_alone hr (of_decide_eq_true hok) hst 0).1⟩

/-- Three ticks within a second. -/
def busyYields : List (ClockAct Unit) :=
  firstYield.map ClockAct.inst ++ [.endTick 0 0] ++ yieldAgain.map ClockAct.inst ++ [.endTick 0 1] ++
    yieldAgain.map ClockAct.inst

/-- **Two timeouts of the scheduler are pending at a time**; where mio has two slots, the third tick panics, and no
timer of the user takes one. -/
theorem timeout_accumulates : ∃ s s' : Clocked 64 Unit,
    (clocked 64 Unit ⟨1, true⟩ (fun _ => none) 2).Reach System.anyStep s ∧ s.special 0 0 ≠ none ∧ s.special 0 1 ≠ none ∧
      s.step ⟨1, true⟩ 2 (.overflow 0) = some s' ∧ s'.failed 0 = true ∧ s.failed 0 = false ∧
        ∀ slot < 2, (s.inst.threads 0).wheel slot = none := by
  have hsome : ((clocked 64 Unit ⟨1, true⟩ (fun _ => none) 2).exec busyYields (.start 64 (fun _ => none))).any
      (fun s => decide (s.special 0 0 ≠ none ∧ s.special 0 1 ≠ none ∧ s.failed 0 = false) &&
        ((List.range 2).all (fun slot => ((s.inst.threads 0).wheel slot).isNone) &&
          (s.step ⟨1, true⟩ 2 (.overflow 0)).any (fun s' => s'.failed 0))) = true := by
    decide +kernel
  obtain ⟨s, hs, hand⟩ := (Option.any_eq_true _ _).1 hsome
  obtain ⟨hbefore, hand⟩ := Bool.and_eq_true_iff.1 hand
  obtain ⟨hwheel, hafter⟩ := Bool.and_eq_true_iff.1 hand
  obtain ⟨s', hst, hf⟩ := (Option.any_eq_true _ _).1 hafter
  obtain ⟨h0, h1, hlive⟩ := of_decide_eq_true hbefore
  have hr : (clocked 64 Unit ⟨1, true⟩ (fun _ => none) 2).Reach System.anyStep s :=
    System.reach_exec_of_forall _ _ s (.init rfl) (fun _ _ _ => trivial) hs
  exact ⟨s, s', hr, h0, h1, hst, hf, hlive, fun slot hslot =>
    Option.isNone_iff_eq_none.1 (List.all_eq_true.1 hwheel slot (List.mem_range.2 hslot))⟩

end Clocked
end Mioco

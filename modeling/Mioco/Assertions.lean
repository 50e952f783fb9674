import Mioco.CatchPanics
import Mioco.Completes
import Mioco.Handles
/-!
# What the source asserts (src/mod.rs, src/thread.rs, src/coroutine.rs)

The `unwrap`s and the debug assertions of the handles, the slabs and the live count hold in every run, under any
scheduler and with shutdowns, in which a coroutine that is being killed does not switch out and handles are migrated to
open event loops.  An event loop ends only when every coroutine has.  Both are for runs in which the destructors of exit
statuses that nobody hears do not use mioco.
-/
namespace Mioco

open Lib (System Slab)
open Pooling

namespace Instance
variable {S : Sched} {w : Nat} {α : Type} {s : Instance S w α} {t : Nat} {cfg : Config} {bound : Nat → Option Nat}

/-- In any run no thread is told to terminate, and none terminates, before every coroutine has ended. -/
theorem late_reach {ok : Instance S w α → Action α → Prop} (h : (mioco S w α cfg bound).Reach ok s) :
    Peaceful false (decide (0 < s.broadcasts)) s := by
  refine h.invariant (fun s => Peaceful false (decide (0 < s.broadcasts)) s) (fun s hs => ?_) (fun s a s' hp _ hst => ?_)
  · cases (show s = Instance.start S w bound from hs)
    exact .start S w α bound
  · have hno : ∀ {P : Prop}, false = true → P := fun hf => by cases hf
    by_cases hb : 0 < s'.broadcasts
    · rw [decide_eq_true hb]
      exact hp.mono.step hno hno hno hst (fun hf => by cases hf)
    · have hb' : ¬ 0 < s.broadcasts := fun hpos => hb (Nat.lt_of_lt_of_le hpos (broadcasts_mono hst))
      rw [decide_eq_false hb'] at hp
      rw [decide_eq_false hb]
      exact hp.step hno hno hno hst (fun _ => by omega)

theorem ended_last (h : (mioco S w α cfg bound).Reach System.anyStep s)
    (hpc : (s.threads t).pc = .stopping ∨ (s.threads t).pc = .done) : s.unfinished = ∅ := by
  have hlate := ((late_reach h).threads t).pc
  have hpos : 0 < s.broadcasts := by rcases hpc with hpc | hpc <;> rw [hpc] at hlate <;> simpa using hlate
  exact (Numbered.reach h).last hpos

/-- The event loop of a thread ends only when there is no coroutine left to run, here or elsewhere. -/
theorem ends_last (h : (mioco S w α cfg bound).Reach System.anyStep s) :
    (∀ t, (s.threads t).pc = .stopping ∨ (s.threads t).pc = .done → ∀ c < s.coN, (s.cos c).state = .finished) ∧
      (s.startReturned cfg.threadNum → ∀ c < s.coN, (s.cos c).state = .finished) := by
  have hend : ∀ t, (s.threads t).pc = .stopping ∨ (s.threads t).pc = .done → ∀ c < s.coN, (s.cos c).state = .finished := by
    intro t hpc c hc
    by_contra hl
    have hmem : c ∈ s.unfinished := mem_unfinished.2 ⟨hc, hl⟩
    rw [ended_last h hpc] at hmem
    exact absurd hmem (Finset.notMem_empty c)
  exact ⟨hend, fun hret => hend 0 (.inr hret.1)⟩

end Instance

namespace Afterlife
variable {S : Sched} {w : Nat} {α : Type} {cfg : Config} {bound : Nat → Option Nat}
  {userDrop : Nat → ExitStatus α → Bool} {s : Afterlife S w α}

/-- **An event loop ends last**: only when every coroutine of the instance has, in every run in which no destructor of a
refused exit status uses mioco. -/
theorem loop_ends_last (h : (afterlife S w α cfg bound userDrop).Reach quietDrop s) :
    (∀ t, (s.inst.threads t).pc = .stopping ∨ (s.inst.threads t).pc = .done →
        ∀ c < s.inst.coN, (s.inst.cos c).state = .finished) ∧
      (s.inst.startReturned cfg.threadNum → ∀ c < s.inst.coN, (s.inst.cos c).state = .finished) :=
  Instance.ends_last (reach_inst (fun _ _ hok => hok) (fun _ _ _ => trivial) h)

/-- The last coroutine has been left, and the loop ends. -/
def startReturns : List (Action Unit) :=
  List.replicate 7 (.thread 0 .next) ++ [.thread 0 (.sched 0), .thread 0 .next, .thread 0 .next, .thread 0 .next,
    .thread 0 (.notify 0), .thread 0 .stop, .thread 0 .next]

/-- Nobody hears how coroutine 1 ended; the destructor of its status returns, and so does `start`. -/
def droppedQuietly : List (AfterAct Unit) :=
  droppedHandle.map AfterAct.inst ++ [.destructor 0 .ends] ++ startReturns.map AfterAct.inst

theorem loop_ends_last_two : ∃ s : Afterlife fifo 64 Unit, s.inst.coN = 2 ∧ s.inst.startReturned 1 ∧
    ∀ c < s.inst.coN, (s.inst.cos c).state = .finished := by
  have hsome : ((afterlife fifo 64 Unit ⟨1, true⟩ (fun _ => none) (fun _ _ => true)).exec droppedQuietly
      (start fifo 64 (fun _ => none))).any (fun s => decide (s.inst.coN = 2 ∧ s.inst.startReturned 1)) = true := by
    decide +kernel
  obtain ⟨s, hs, hand⟩ := (Option.any_eq_true _ _).1 hsome
  obtain ⟨hn, hret⟩ := of_decide_eq_true hand
  have hr : (afterlife fifo 64 Unit ⟨1, true⟩ (fun _ => none) (fun _ _ => true)).Reach quietDrop s :=
    System.reach_exec _ _ s (.init rfl) (by decide +kernel) hs
  exact ⟨s, hn, hret, (loop_ends_last hr).2 hret⟩

end Afterlife

namespace Instance
variable {S : Sched} {w : Nat} {α : Type} {s s' : Instance S w α} {t c : Nat} {cfg : Config} {bound : Nat → Option Nat}

/-- A handle that the scheduler may resume is of a coroutine that waits for it. -/
theorem held_ready {g : Nat → Nat} (hs : Sound (s.pool g)) {k : Callback} {i : Nat} {h : Handle}
    (hpc : (s.threads t).pc = .call k) (hi : (s.threads t).held[i]? = some h) :
    (s.cos h.co).state = .ready ∧ (s.cos h.co).killed = false ∧ (s.cos h.co).handler = some t := by
  have hst : ((s.pool g).desks t).stage = .call k := stage_pool hpc
  -- a thread that is shutting down does not call its scheduler
  have hsd : ((s.pool g).desks t).isShuttingDown = false := by
    by_contra hsd
    rcases (hs.desk t).closing.shuts (Bool.eq_true_of_not_eq_false hsd) with ⟨hshuts, -⟩ | hp
    · rw [hst] at hshuts
      cases hshuts
    · rw [hst] at hp
      cases hp
  have hin : 0 < (s.pool g).waiting t h.co := by
    have hmem : h.co ∈ ((s.pool g).desks t).held := List.mem_map_of_mem (List.mem_of_getElem? hi)
    have hpos := List.count_pos_iff.2 hmem
    rw [Pool.waiting, Desk.queued]
    omega
  obtain ⟨hready, hk⟩ := (hs.desk t).handled.fit hsd h.co hin
  exact ⟨hready, hk, own_of_waiting hs hin⟩

theorem not_stray {g : Nat → Nat} (hs : Sound (s.pool g)) {why : Panic} (hpc : (s.threads t).pc = .panicked why) :
    why.isStray = false := by
  by_contra hw
  refine (hs.desk t).noStray ?_
  rw [stage_pool hpc, Stage.ofPc, Bool.eq_true_of_not_eq_false hw]

/-- **The assertions.** -/
structure Asserted (s : Instance S w α) : Prop where
  /-- `coroutines.remove(id).unwrap()`, in `migrate` and at the end of a coroutine -/
  removes : ∀ t, (s.threads t).pc ≠ .panicked .slabRemove
  /-- `handler_shared.as_ref().unwrap()` -/
  attached : ∀ t, (s.threads t).pc ≠ .panicked .strayHandle ∧ ∀ c, (s.threads t).pc ≠ .panicked (.notAttached c)
  /-- `debug_assert!(co_rc.borrow().state().is_ready())`, whichever handle the scheduler resumes -/
  resumed : ∀ t k (i : Nat) (h : Handle), (s.threads t).pc = .call k → (s.threads t).held[i]? = some h →
    (s.cos h.co).state = .ready ∧ (s.cos h.co).killed = false ∧
      (s.threads t).coroutines.get (s.cos h.co).id = some h.co
  /-- `debug_assert!(co.killed)` in `jump_in`, and the coroutine is in the slab -/
  running : ∀ t c ret j, (s.threads t).pc = .exec c ret j → j.live = true →
    (s.cos c).killed = ret.kills ∧ (s.threads t).coroutines.get (s.cos c).id = some c
  /-- a stack is run by one thread at a time -/
  alone : ∀ t t' c ret ret' j j', (s.threads t).pc = .exec c ret j → (s.threads t').pc = .exec c ret' j' → t = t'
  /-- `debug_assert!(prev > 0)` in `coroutines_dec` -/
  counted : ∀ t c ret, (s.threads t).pc = .exec c ret .user → 0 < s.coroutinesNum
  /-- `debug_assert_eq!(.., 0)` of `coroutines_num`, where `Terminate` is received -/
  terminate : ∀ t, .terminate ∈ (s.threads t).inbox ∨ (s.threads t).terminated = true → s.coroutinesNum = 0

/-- A handle is migrated to a thread that exists and whose event loop is open. -/
def delivers (n : Nat) (s : Instance S w α) : Action α → Bool
  | .thread t .next =>
    match (s.threads t).pc with
    | .deregister _ (.migrate _ threadId) => decide (threadId < n) && (s.threads threadId).isOpen
    | _ => true
  | _ => true

/-- No `Migration` comes back. -/
theorem delivered (h : (mioco S w α cfg bound).Reach (fun s a => s.delivers cfg.threadNum a = true) s) :
    ∀ t c, (s.threads t).pc ≠ .panicked (.notAttached c) := by
  refine h.invariant (fun s => ∀ t c, (s.threads t).pc ≠ .panicked (.notAttached c)) (fun s hs t c hpc => ?_)
    (fun s a s' hno hok hst t c hpc => ?_)
  · cases (show s = Instance.start S w bound from hs)
    simp only [start, Function.update_apply] at hpc
    split at hpc <;> cases hpc
  · rcases step_raises hst hpc with hold | ⟨b, rfl, hr⟩
    · exact hno t c hold
    · cases hr with
      | notAttached _ k l hat hclosed => simp [delivers, hat, hclosed] at hok

theorem assertions (h : (mioco S w α cfg bound).Reach (fun s a => s.unwinds a) s)
    (hno : ∀ t c, (s.threads t).pc ≠ .panicked (.notAttached c)) : Asserted s := by
  obtain ⟨g, hs, -⟩ := sound_reach h
  have hn := Numbered.reach h
  have hc := Custody.reach h
  refine ⟨fun t hpc => ?_, fun t => ⟨fun hpc => ?_, hno t⟩, fun t k i h hpc hi => ?_, fun t c ret j hpc hj => ?_, ?_,
    fun t c ret hpc => ?_, fun t ht => ?_⟩
  · cases not_stray hs hpc
  · cases not_stray hs hpc
  · obtain ⟨hready, hk, hown⟩ := held_ready hs hpc hi
    have hlive : (s.cos h.co).state ≠ .finished := by
      rw [hready]
      simp
    exact ⟨hready, hk, (hs.desk t).stored.placed h.co hown hlive⟩
  · have hst : ((s.pool g).desks t).stage = .running c ret := by rw [stage_exec hpc, if_pos hj]
    have hfits := (hs.desk t).fits
    rw [hst] at hfits
    exact ⟨hfits.1, (hs.desk t).stored.placed c ((hs.desk t).running_own hst) hfits.2⟩
  · intro t t' c ret ret' j j' hpc hpc'
    have h1 := (hc.engaged t c (some j) (by rw [hpc]; rfl)).attached
    have h2 := (hc.engaged t' c (some j') (by rw [hpc']; rfl)).attached
    rw [h1] at h2
    exact Option.some.inj h2
  · rw [← Instance.counted h]
    exact Finset.card_pos.2 ⟨c, running_unfinished hc hpc⟩
  · have hlate := (late_reach h).threads t
    have hpos : 0 < s.broadcasts := by
      by_contra hb
      rw [decide_eq_false hb] at hlate
      rcases ht with hin | hterm
      · have hm := hlate.inbox _ hin
        cases hm
      · have hno := hlate.terminated rfl
        rw [hterm] at hno
        cases hno
    rw [← Instance.counted h, hn.last hpos, Finset.card_empty]

end Instance

namespace Afterlife
variable {S : Sched} {w : Nat} {α : Type} {cfg : Config} {bound : Nat → Option Nat}
  {userDrop : Nat → ExitStatus α → Bool} {s : Afterlife S w α}

/-- A coroutine that is being killed does not switch out, handles are migrated to open event loops, and no destructor of
a refused exit status uses mioco. -/
def assertable (n : Nat) (s : Afterlife S w α) (a : AfterAct α) : Prop :=
  quietDrop s a ∧ ∀ i, a = .inst i → s.inst.unwinds i ∧ s.inst.delivers n i = true

/-- **What the source asserts holds**, whatever the scheduler does. -/
theorem asserted (h : (afterlife S w α cfg bound userDrop).Reach (assertable cfg.threadNum) s) :
    Instance.Asserted s.inst := by
  have hinst : (mioco S w α cfg bound).Reach (fun s a => s.unwinds a ∧ s.delivers cfg.threadNum a = true) s.inst :=
    reach_inst (fun _ _ hok => hok.1) (fun _ i hok => hok.2 i rfl) h
  exact Instance.assertions (hinst.mono (fun _ _ hok => hok.1)) (Instance.delivered (hinst.mono (fun _ _ hok => hok.2)))

instance (n : Nat) (s : Afterlife S w α) : (a : AfterAct α) → Decidable (assertable n s a)
  | .inst i => decidable_of_iff (s.inst.unwinds i ∧ s.inst.delivers n i = true)
    ⟨fun h => ⟨trivial, fun _ he => AfterAct.inst.inj he ▸ h⟩, fun h => h.2 i rfl⟩
  | .destructor _ d => decidable_of_iff (d = .ends) ⟨fun h => ⟨h, fun _ he => (by cases he)⟩, fun h => h.1⟩

/-- Coroutine 0 has returned, and coroutine 1 runs. -/
def secondRuns : List (Action Unit) :=
  parentReturns ++ List.replicate 10 (.thread 0 .next) ++
    [.thread 0 (.sched 0), .thread 0 .next, .thread 0 .next, .thread 0 (.sched 0)]

theorem asserted_two : ∃ s : Afterlife fifo 64 Unit, (s.inst.cos 0).state = .finished ∧
    (s.inst.threads 0).pc = .exec 1 (.resumed .spawned) .user ∧ Instance.Asserted s.inst := by
  have hsome : ((afterlife fifo 64 Unit ⟨1, true⟩ (fun _ => none) (fun _ _ => true)).exec (secondRuns.map AfterAct.inst)
      (start fifo 64 (fun _ => none))).any (fun s => decide ((s.inst.cos 0).state = .finished ∧
        (s.inst.threads 0).pc = .exec 1 (.resumed .spawned) .user)) = true := by
    decide +kernel
  obtain ⟨s, hs, hand⟩ := (Option.any_eq_true _ _).1 hsome
  obtain ⟨hfin, hpc⟩ := of_decide_eq_true hand
  have hr : (afterlife fifo 64 Unit ⟨1, true⟩ (fun _ => none) (fun _ _ => true)).Reach (assertable 1) s :=
    System.reach_exec _ _ s (.init rfl) (by decide +kernel) hs
  exact ⟨s, hfin, hpc, asserted hr⟩

end Afterlife
end Mioco

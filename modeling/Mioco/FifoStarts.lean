import Mathlib.Tactic.Common
import Mioco.Lib.RoundRobin
import Mioco.Lib.System
import Mioco.Scheduler
/-!
# The default scheduler over the life of a `Mioco` value (src/mod.rs)

The `thread_num` of `FifoScheduler` lives in the `Config`: every `start` takes the scheduler threads of its event
loops from the same counter, and nothing sets it back.  A run here is any number of calls of `start` on one value, the
`spawn_thread` calls of the threads of each and the callbacks they get, interleaved.
-/
namespace Mioco

open Lib

/-- One `Mioco` value: `thread_num`, and the scheduler threads of the current `start`, in the order of their
`spawn_thread` calls. -/
structure FifoLife where
  started : Bool
  threadNum : Nat
  threads : List FifoThread
deriving DecidableEq, Repr

inductive FifoAct
  | start
  | spawnThread
  /-- a callback of the `i`-th scheduler thread begins -/
  | enter (i : Nat) (k : Callback) (held : List Handle)
  | next (i : Nat) (held : List Handle)
deriving DecidableEq, Repr

namespace FifoLife

/-- `Mioco::new_configured`. -/
def new : FifoLife := ⟨false, 0, []⟩

/-- `start` returns once its threads are joined, so each has called `spawn_thread`. -/
def step (n : Nat) (s : FifoLife) : FifoAct → Option FifoLife
  | .start =>
    if s.started = false ∨ s.threads.length = n then some { s with started := true, threads := [] } else none
  | .spawnThread =>
    if s.started = true ∧ s.threads.length < n then
      some { s with
        threadNum := (FifoThread.spawnThread s.threadNum).2
        threads := s.threads ++ [(FifoThread.spawnThread s.threadNum).1] }
    else none
  | .enter i k held =>
    match s.threads[i]? with
    | some th => some { s with threads := s.threads.set i (th.enter k held) }
    | none => none
  | .next i held =>
    match s.threads[i]? with
    | some th => some { s with threads := s.threads.set i (th.next held s.threadNum).2 }
    | none => none

end FifoLife

/-- The runs of one `Mioco` value with `n` threads. -/
def fifoLife (n : Nat) : System FifoLife FifoAct where
  Init s := s = FifoLife.new
  step := FifoLife.step n

/-- `start` is called on a scheduler no thread was taken from yet; with one thread, on one that gave one at most. -/
def freshStart (n : Nat) (s : FifoLife) (a : FifoAct) : Prop :=
  a = .start → s.threadNum = 0 ∨ n = 1 ∧ s.threadNum ≤ 1

instance (n : Nat) (s : FifoLife) (a : FifoAct) : Decidable (freshStart n s a) :=
  inferInstanceAs (Decidable (a = .start → s.threadNum = 0 ∨ n = 1 ∧ s.threadNum ≤ 1))

namespace FifoThread
variable {th : FifoThread} {m m' : Nat}

/-- A cursor below `thread_num`. -/
def InRange (th : FifoThread) (threadNum : Nat) : Prop := th.threadId < threadNum ∧ th.threadI < threadNum

theorem InRange.mono (h : th.InRange m) (hm : m ≤ m') : th.InRange m' :=
  ⟨Nat.lt_of_lt_of_le h.1 hm, Nat.lt_of_lt_of_le h.2 hm⟩

theorem InRange.threadNextI (h : th.InRange m) : (th.threadNextI m).InRange m := by
  obtain ⟨hid, hi⟩ := h
  have hnext : (th.threadNextI m).threadI = RoundRobin.next m th.threadI := by rw [FifoThread.threadNextI, RoundRobin.next]
  refine ⟨hid, ?_⟩
  rw [hnext]
  exact RoundRobin.next_lt hi

theorem spawnThread_inRange (m : Nat) : (spawnThread m).1.InRange (spawnThread m).2 :=
  ⟨Nat.lt_succ_self m, Nat.lt_succ_self m⟩

theorem enter_inRange (k : Callback) (held : List Handle) (h : th.InRange m) : (th.enter k held).InRange m := by
  cases k <;> exact h

theorem next_inRange (held : List Handle) (h : th.InRange m) : (th.next held m).2.InRange m := by
  unfold next
  split
  · exact h
  · exact h.threadNextI
  all_goals exact h

theorem enter_threadId (k : Callback) (held : List Handle) : (th.enter k held).threadId = th.threadId := by
  cases k <;> rfl

theorem next_threadId (held : List Handle) : (th.next held m).2.threadId = th.threadId := by
  unfold next
  split <;> rfl

/-- What `next` hands to `migrate` is the cursor, and it is not the thread's own number. -/
theorem next_migrate {held : List Handle} {p i : Nat} (h : (th.next held m).1 = .migrate p i) :
    i = th.threadI ∧ th.threadI ≠ th.threadId := by
  unfold next at h
  split at h
  · cases h
  · split at h
    · cases h
    · rename_i hne
      cases h
      exact ⟨rfl, hne⟩
  all_goals cases h

end FifoThread

/-- **What fresh starts keep**: the counter holds nothing of earlier starts (with one thread, one at most), every
cursor is below it, and a single thread has the number before it. -/
structure FreshLife (n : Nat) (s : FifoLife) : Prop where
  count : s.threadNum = s.threads.length ∨ n = 1 ∧ s.threadNum ≤ s.threads.length + 1
  length : s.threads.length ≤ n
  cursors : ∀ th ∈ s.threads, th.InRange s.threadNum
  single : n = 1 → ∀ th ∈ s.threads, th.threadId + 1 = s.threadNum

namespace FreshLife
variable {n : Nat} {s s' : FifoLife} {a : FifoAct}

/-- A scheduler thread moves on. -/
theorem set (h : FreshLife n s) {i : Nat} {th th' : FifoThread} (hi : s.threads[i]? = some th)
    (hr : th'.InRange s.threadNum) (hid : th'.threadId = th.threadId) :
    FreshLife n { s with threads := s.threads.set i th' } where
  count := by simpa using h.count
  length := by simpa using h.length
  cursors t ht := by
    rcases List.mem_or_eq_of_mem_set ht with hm | rfl
    · exact h.cursors t hm
    · exact hr
  single hn t ht := by
    rcases List.mem_or_eq_of_mem_set ht with hm | rfl
    · exact h.single hn t hm
    · rw [hid]
      exact h.single hn th (List.mem_of_getElem? hi)

theorem start (h : s.threadNum = 0 ∨ n = 1 ∧ s.threadNum ≤ 1) :
    FreshLife n { s with started := true, threads := [] } where
  count := by simpa using h
  length := Nat.zero_le n
  cursors _ ht := by cases ht
  single _ _ ht := by cases ht

theorem spawnThread (h : FreshLife n s) (hlt : s.threads.length < n) :
    FreshLife n { s with
      threadNum := (FifoThread.spawnThread s.threadNum).2
      threads := s.threads ++ [(FifoThread.spawnThread s.threadNum).1] } where
  count := by
    have := h.count
    simp only [FifoThread.spawnThread, List.length_append, List.length_singleton]
    omega
  length := by
    rw [List.length_append, List.length_singleton]
    exact hlt
  cursors t ht := by
    rcases List.mem_append.1 ht with hm | hm
    · exact (h.cursors t hm).mono (Nat.le_succ _)
    · rw [List.mem_singleton.1 hm]
      exact FifoThread.spawnThread_inRange s.threadNum
  single hn t ht := by
    rcases List.mem_append.1 ht with hm | hm
    · have := List.length_pos_of_mem hm
      omega
    · rw [List.mem_singleton.1 hm]
      rfl

theorem step (h : FreshLife n s) (hok : freshStart n s a) (hst : s.step n a = some s') : FreshLife n s' := by
  cases a with
  | start =>
    simp only [FifoLife.step] at hst
    split at hst
    · cases hst
      exact start (hok rfl)
    · cases hst
  | spawnThread =>
    simp only [FifoLife.step] at hst
    split at hst
    · rename_i hlt
      cases hst
      exact h.spawnThread hlt.2
    · cases hst
  | enter i k held =>
    simp only [FifoLife.step] at hst
    split at hst
    · rename_i th hi
      cases hst
      have hr := h.cursors th (List.mem_of_getElem? hi)
      exact h.set hi (FifoThread.enter_inRange k held hr) (FifoThread.enter_threadId k held)
    · cases hst
  | next i held =>
    simp only [FifoLife.step] at hst
    split at hst
    · rename_i th hi
      cases hst
      have hr := h.cursors th (List.mem_of_getElem? hi)
      exact h.set hi (FifoThread.next_inRange held hr) (FifoThread.next_threadId held)
    · cases hst

end FreshLife

theorem freshLife {n : Nat} {s : FifoLife} (hs : System.Reach (fifoLife n) (freshStart n) s) : FreshLife n s := by
  refine hs.invariant (FreshLife n) ?_ (fun _ _ _ h hok hst => h.step hok hst)
  rintro s rfl
  exact ⟨.inl rfl, Nat.zero_le n, fun _ ht => (by cases ht), fun _ _ ht => (by cases ht)⟩

/-- **`FifoSchedulerThread::spawned` stays in the instance's thread range**, in every run whose starts are fresh. -/
theorem spawned_in_range {n : Nat} {s : FifoLife} (hs : System.Reach (fifoLife n) (freshStart n) s)
    {th : FifoThread} (hth : th ∈ s.threads) {held : List Handle} {p i : Nat}
    (h : (th.next held s.threadNum).1 = .migrate p i) : i < n := by
  obtain ⟨rfl, hne⟩ := FifoThread.next_migrate h
  have hlife := freshLife hs
  obtain ⟨hid, hi⟩ := hlife.cursors th hth
  have hlen := hlife.length
  rcases hlife.count with hc | ⟨hn, hc⟩
  · omega
  · -- one thread: the cursor is below its own number, which is 1 at most
    have := hlife.single hn th hth
    omega

/-- Two threads: the first `start` spreads its coroutines over both. -/
def firstLife : List FifoAct :=
  [.start, .spawnThread, .spawnThread, .enter 0 .spawned [Handle.new 0], .next 0 [Handle.new 0],
    .enter 0 .spawned [Handle.new 1]]

theorem spawned_in_range_first : ∃ s, System.Reach (fifoLife 2) (freshStart 2) s ∧
    ∃ th ∈ s.threads, (th.next [Handle.new 1] s.threadNum).1 = .migrate 0 1 ∧ 1 < 2 := by
  have h0 : System.Reach (fifoLife 2) (freshStart 2) FifoLife.new := .init rfl
  have hrun : System.Reach (fifoLife 2) (freshStart 2) ⟨true, 2, [⟨0, 1, .spawned⟩, ⟨1, 1, .done⟩]⟩ :=
    System.reach_exec firstLife _ _ h0 (by decide) (by decide)
  have hto : (FifoThread.next [Handle.new 1] ⟨0, 1, .spawned⟩ 2).1 = .migrate 0 1 := by decide
  exact ⟨_, hrun, _, List.mem_cons_self, hto, spawned_in_range hrun List.mem_cons_self hto⟩

/-- The same value is started again: a spawned coroutine is migrated to thread 3 of two. -/
def secondLife : List FifoAct :=
  firstLife ++ [.start, .spawnThread, .spawnThread, .enter 0 .spawned [Handle.new 0], .next 0 [Handle.new 0],
    .enter 0 .spawned [Handle.new 1]]

theorem restart_leaves_range : ∃ s, System.Reach (fifoLife 2) System.anyStep s ∧
    ∃ th ∈ s.threads, (th.next [Handle.new 1] s.threadNum).1 = .migrate 0 3 ∧ ¬ 3 < 2 := by
  have h0 : System.Reach (fifoLife 2) System.anyStep FifoLife.new := .init rfl
  have hrun : System.Reach (fifoLife 2) System.anyStep ⟨true, 4, [⟨2, 3, .spawned⟩, ⟨3, 3, .done⟩]⟩ :=
    System.reach_exec_of_forall secondLife _ _ h0 (fun _ _ _ => trivial) (by decide)
  exact ⟨_, hrun, ⟨2, 3, .spawned⟩, List.mem_cons_self, by decide, by decide⟩

end Mioco

/-!
# Schedulers (src/mod.rs)

A scheduler works on the `CoroutineControl`s its thread gives it.  `Sched` is any implementation of the two traits,
seen as a state machine: a callback hands it one handle (kept at the end of `held`), and it then issues commands on
the handles it holds until it returns.  `fifo` is the default one.
-/
namespace Mioco

/-- A `CoroutineControl` that was not handled yet. -/
structure Handle where
  co : Nat
  isYielding : Bool
deriving DecidableEq, Repr

/-- `CoroutineControl::new`. -/
def Handle.new (c : Nat) : Handle := ⟨c, false⟩

/-- The methods of `SchedulerThread` that get hold of the event loop. -/
inductive Callback
  | spawned
  | ready
  | tick
deriving DecidableEq, Repr

/-- What a scheduler does next; handles are named by their position in `held`. -/
inductive Cmd
  | resume (i : Nat)
  | migrate (i : Nat) (threadId : Nat)
  | drop (i : Nat)
  | ret
deriving DecidableEq, Repr

structure Sched where
  /-- what the `Scheduler` shares between its threads -/
  Shared : Type
  /-- a `SchedulerThread`, its handles apart -/
  Thread : Type
  new : Shared
  spawnThread : Shared → Thread × Shared
  /-- a callback begins, its handle already at the end of `held` -/
  enter : Callback → List Handle → Thread → Thread
  /-- the number stands for whatever else the implementation looks at -/
  next : Nat → List Handle → Thread → Shared → Cmd × Thread × Shared

/-! ## The default scheduler -/

/-- How far a callback of `FifoSchedulerThread` has got. -/
inductive FifoTodo
  | done
  | spawned
  | ready (isYielding : Bool)
  /-- handles still to be popped from `delayed` -/
  | tick (left : Nat)
deriving DecidableEq, Repr

structure FifoThread where
  threadId : Nat
  threadI : Nat
  todo : FifoTodo
deriving DecidableEq, Repr

namespace FifoThread

/-- `thread_next_i` leaves this behind; it returns the old `threadI`. -/
def threadNextI (th : FifoThread) (threadNum : Nat) : FifoThread :=
  { th with threadI := if threadNum ≤ th.threadI + 1 then 0 else th.threadI + 1 }

def spawnThread (threadNum : Nat) : FifoThread × Nat :=
  ({ threadId := threadNum, threadI := threadNum, todo := .done }, threadNum + 1)

/-- `delayed` is `held`: a yielding handle just stays where the callback put it. -/
def enter (k : Callback) (held : List Handle) (th : FifoThread) : FifoThread :=
  match k with
  | .spawned => { th with todo := .spawned }
  | .ready => { th with todo := .ready (held.getLast?.any Handle.isYielding) }
  | .tick => { th with todo := .tick held.length }

def next (held : List Handle) (th : FifoThread) (threadNum : Nat) : Cmd × FifoThread :=
  match th.todo with
  | .done => (.ret, th)
  | .spawned =>
    (if th.threadI = th.threadId then .resume (held.length - 1) else .migrate (held.length - 1) th.threadI,
      { th.threadNextI threadNum with todo := .done })
  | .ready true => (.ret, { th with todo := .done })
  | .ready false => (.resume (held.length - 1), { th with todo := .done })
  | .tick 0 => (.ret, { th with todo := .done })
  | .tick (left + 1) => (.resume 0, { th with todo := .tick left })

end FifoThread

/-- `FifoScheduler`; what its threads share is `thread_num`. -/
def fifo : Sched where
  Shared := Nat
  Thread := FifoThread
  new := 0
  spawnThread := FifoThread.spawnThread
  enter := FifoThread.enter
  next _ held th threadNum := ((FifoThread.next held th threadNum).1, (FifoThread.next held th threadNum).2, threadNum)

end Mioco

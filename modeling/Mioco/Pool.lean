import Mathlib.Data.List.Count
import Mioco.Step
/-!
# The handles of an instance, abstractly

A `Pool` keeps of an instance what the handles of its coroutines go through: the queues that hold them, the slabs, how
far the threads have got, and of a coroutine whether and where it may be resumed.  `Pool.Step` is what may happen to
them, one handle at a time, as long as a coroutine that is being killed does not switch out.
-/
namespace Mioco

open Lib (Slab)

/-- Not to `after_resume`: the coroutine is being killed. -/
@[simp] def Ret.kills : Ret → Bool
  | .resumed _ => false
  | .killed _ | .stopping | .attached | .shutdown _ _ => true

/-- Not in a callback of the scheduler. -/
@[simp] def Ret.outside : Ret → Bool
  | .resumed _ | .killed _ => false
  | .stopping | .attached | .shutdown _ _ => true

namespace Pooling

/-- What a thread is doing, as far as its handles are concerned. -/
inductive Stage
  | starting
  | poll
  | call (k : Callback)
  | spawnedNext
  | readyNext (noSpawned : Bool)
  /-- about to jump into a coroutine -/
  | entering (c : Nat) (ret : Ret)
  /-- in the code of a coroutine that has not completed -/
  | running (c : Nat) (ret : Ret)
  /-- in the rest of one that has -/
  | ending (c : Nat) (ret : Ret)
  /-- in `register_all` -/
  | settling (c : Nat) (next : AfterRegister)
  /-- in `deregister_all` -/
  | freeing (c : Nat) (next : AfterDeregister)
  | resumed (c : Nat) (k : Callback)
  | wave (i last : Nat)
  | stopping
  | done
  /-- by a handle that is out of date, or for another reason -/
  | panicked (stray : Bool)
deriving DecidableEq, Repr

namespace Stage

/-- The coroutine the thread is busy with. -/
@[simp] def hand : Stage → Option Nat
  | entering c _ | running c _ | ending c _ | settling c _ | freeing c _ | resumed c _ => some c
  | _ => none

/-- The coroutine that has `after_resume` before it. -/
@[simp] def resuming : Stage → Option Nat
  | entering c (.resumed _) | running c (.resumed _) | ending c (.resumed _) | settling c (.resumed _)
  | freeing c (.woken (.resumed _)) | resumed c _ => some c
  | _ => none

/-- The coroutine that is jumped into. -/
@[simp] def runs : Stage → Option Nat
  | entering c _ | running c _ => some c
  | _ => none

/-- The coroutine that has just been attached. -/
@[simp] def attaching : Stage → Option Nat
  | settling c .attached | freeing c (.woken .attached) => some c
  | _ => none

/-- `deliver_to_scheduler` is over. -/
@[simp] def idle : Stage → Bool
  | poll | wave _ _ | stopping | done | settling _ .attached | freeing _ .event | freeing _ (.woken .attached) => true
  | entering _ ret | running _ ret | ending _ ret => ret.outside
  | _ => false

/-- Where a thread that is shutting down may be. -/
@[simp] def shuts : Stage → Bool
  | spawnedNext | readyNext _ => true
  | freeing _ .event => false
  | st => st.idle

/-- What is left of the loop of `Handler::shutdown`. -/
@[simp] def waving : Stage → Option (Nat × Nat)
  | wave i last | entering _ (.shutdown i last) | running _ (.shutdown i last) | ending _ (.shutdown i last) =>
    some (i, last)
  | _ => none

/-- Where a thread goes from a coroutine. -/
@[simp] def left (c : Nat) : Ret → Stage
  | .resumed k => settling c (.resumed k)
  | .killed k => call k
  | .stopping => stopping
  | .attached => poll
  | .shutdown i last => wave i last

end Stage

/-- A thread's part of a pool. -/
structure Desk where
  coroutines : Slab startingId Nat
  held : List Nat
  spawned : List Nat
  ready : List Nat
  /-- `Migration`s on their way to it -/
  moving : List Nat
  isShuttingDown : Bool
  stage : Stage

/-- A coroutine's part. -/
structure Fiber where
  state : CoState
  killed : Bool
  id : Nat
  handler : Option Nat
  children : List Nat
  /-- how often it was given to `spawned` -/
  handed : Nat
deriving DecidableEq, Repr

def Fiber.new (id : Nat) (handler : Option Nat) (handed : Nat) : Fiber := ⟨.ready, false, id, handler, [], handed⟩

structure Pool where
  desks : Nat → Desk
  fibers : Nat → Fiber
  coN : Nat

namespace Pool

def setDesk (p : Pool) (t : Nat) (d : Desk) : Pool := { p with desks := Function.update p.desks t d }

def setFiber (p : Pool) (c : Nat) (f : Fiber) : Pool := { p with fibers := Function.update p.fibers c f }

def setStage (p : Pool) (t : Nat) (st : Stage) : Pool := p.setDesk t { p.desks t with stage := st }

/-- The function of coroutine `c` goes on, or control leaves it. -/
def setState (p : Pool) (c : Nat) (state : CoState) : Pool := p.setFiber c { p.fibers c with state := state }

/-- `detach_from`. -/
def detach (p : Pool) (c : Nat) : Pool := p.setFiber c { p.fibers c with handler := none }

/-- A `Migration` is sent. -/
def post (p : Pool) (l c : Nat) : Pool := p.setDesk l { p.desks l with moving := (p.desks l).moving ++ [c] }

def kill (p : Pool) (c : Nat) : Pool := p.setFiber c { p.fibers c with killed := true }

end Pool

/-- **A thread goes on**; no handle is moved and no coroutine changes. -/
inductive Desk.Goes (d : Desk) : Stage → Prop
  | start : d.stage = .starting → Goes d (.call .tick)
  | tick : d.stage = .poll → d.isShuttingDown = false → Goes d (.call .tick)
  | spawnedCalled : d.stage = .call .spawned → Goes d (.readyNext false)
  | called (k : Callback) : d.stage = .call k → k ≠ .spawned → Goes d .spawnedNext
  | noSpawned : d.stage = .spawnedNext → d.spawned = [] → Goes d (.readyNext true)
  | noReady : d.stage = .readyNext false → d.ready = [] → Goes d .spawnedNext
  | delivered : d.stage = .readyNext true → d.ready = [] → Goes d .poll
  /-- an event for a coroutine that is not blocked -/
  | spurious (id c : Nat) : d.stage = .poll → d.coroutines.get id = some c → Goes d .spawnedNext
  | stop : d.stage = .poll → Goes d .stopping
  | stopped : d.stage = .stopping → d.held = [] → d.spawned = [] → d.ready = [] → Goes d .done
  | settled (c : Nat) (k : Callback) : d.stage = .settling c (.resumed k) → Goes d (.resumed c k)
  | freed (c : Nat) (k : Callback) : d.stage = .freeing c (.woken (.resumed k)) → Goes d (.resumed c k)
  | waved (i last : Nat) : d.stage = .wave i last → d.coroutines.nextFrom i last = none → Goes d .poll
  | left (c : Nat) (ret : Ret) : d.stage = .ending c ret → Goes d (.left c ret)
  /-- not in the code of a coroutine -/
  | panic : d.stage.runs = none → Goes d (.panicked false)

/-- **A handle moves**, or a thread goes on; no coroutine changes. -/
inductive Desk.Moves (d : Desk) : Desk → Prop
  | goes (st : Stage) : d.Goes st → Moves d { d with stage := st }
  | readies (c : Nat) (b : Bool) (rest : List Nat) : d.stage = .readyNext b → d.ready = c :: rest →
      Moves d { d with ready := rest, held := d.held ++ [c], stage := .call .ready }
  /-- a new handle, for the scheduler -/
  | gives (c : Nat) : d.stage = .freeing c .event ∨ d.stage.attaching = some c ∧ d.isShuttingDown = false →
      Moves d { d with held := d.held ++ [c], stage := .call .ready }
  | takes (c i : Nat) (k : Callback) (st : Stage) : d.stage = .call k → d.held[i]? = some c →
      st = .entering c (.resumed k) ∨ (∃ l, st = .freeing c (.migrate k l)) →
      Moves d { d with held := d.held.eraseIdx i, stage := st }
  | shutdown : d.stage = .poll → Moves d { d with
      isShuttingDown := true
      stage := .wave startingId (startingId + (d.coroutines.count + d.coroutines.remaining)) }

/-- **Coroutine `c` is to be killed.** -/
inductive Desk.Seizes (d : Desk) (c : Nat) : Desk → Prop
  /-- the scheduler drops a handle -/
  | drops (i : Nat) (k : Callback) : d.stage = .call k → d.held[i]? = some c →
      Seizes d c { d with held := d.held.eraseIdx i, stage := .entering c (.killed k) }
  /-- handles go with the `Handler` -/
  | stops (held spawned ready : List Nat) : d.stage = .stopping →
      d.held = c :: held ∧ d.spawned = spawned ∧ d.ready = ready ∨
        d.held = held ∧ d.spawned = c :: spawned ∧ d.ready = ready ∨
        d.held = held ∧ d.spawned = spawned ∧ d.ready = c :: ready →
      Seizes d c { d with held := held, spawned := spawned, ready := ready, stage := .entering c .stopping }
  /-- `Handler::shutdown` comes to it -/
  | wave (i last id : Nat) : d.stage = .wave i last → d.coroutines.nextFrom i last = some id →
      d.coroutines.get id = some c → Seizes d c { d with stage := .entering c (.shutdown (id + 1) last) }
  /-- it arrives at a thread that is shutting down -/
  | arrives : d.stage.attaching = some c → d.isShuttingDown = true →
      Seizes d c { d with stage := .entering c .attached }

/-- **A step of thread `t`**, where `may` says where a coroutine may spawn, and under which id. -/
inductive Pool.Step (may : Ret → Nat → Prop) (p : Pool) (t : Nat) : Pool → Prop
  | moves (d : Desk) : (p.desks t).Moves d → Step may p t (p.setDesk t d)
  | seizes (c : Nat) (d : Desk) : (p.desks t).Seizes c d → Step may p t ((p.kill c).setDesk t d)
  /-- to `spawned` of the scheduler -/
  | delivers (c : Nat) (rest : List Nat) : (p.desks t).stage = .spawnedNext → (p.desks t).spawned = c :: rest →
      Step may p t ((p.setFiber c { p.fibers c with handed := (p.fibers c).handed + 1 }).setDesk t { p.desks t with
        spawned := rest, held := (p.desks t).held ++ [c], stage := .call .spawned })
  /-- `jump_in` -/
  | enters (c : Nat) (ret : Ret) : (p.desks t).stage = .entering c ret → (p.fibers c).state ≠ .finished →
      (p.fibers c).handler = some t → Step may p t (p.setStage t (.running c ret))
  | passes (c : Nat) (ret : Ret) : (p.desks t).stage = .entering c ret → (p.fibers c).state = .finished →
      Step may p t (p.setStage t (.left c ret))
  | strays (c : Nat) (ret : Ret) : (p.desks t).stage = .entering c ret → (p.fibers c).state ≠ .finished →
      (p.fibers c).handler ≠ some t → Step may p t (p.setStage t (.panicked true))
  /-- `migrate` -/
  | sends (c l l' : Nat) (k : Callback) (slab : Slab startingId Nat) : (p.desks t).stage = .freeing c (.migrate k l) →
      (p.fibers c).handler = some t → (p.desks t).coroutines.remove (p.fibers c).id = some slab →
      Step may p t (((p.detach c).setDesk t { p.desks t with coroutines := slab, stage := .call k }).post l' c)
  | loses (c l : Nat) (k : Callback) (slab : Slab startingId Nat) : (p.desks t).stage = .freeing c (.migrate k l) →
      (p.fibers c).handler = some t → (p.desks t).coroutines.remove (p.fibers c).id = some slab →
      Step may p t ((p.detach c).setDesk t { p.desks t with coroutines := slab, stage := .panicked false })
  | misplaced (c l : Nat) (k : Callback) : (p.desks t).stage = .freeing c (.migrate k l) →
      (p.fibers c).handler = some t → (p.desks t).coroutines.remove (p.fibers c).id = none →
      Step may p t ((p.detach c).setStage t (.panicked true))
  | elsewhere (c l : Nat) (k : Callback) : (p.desks t).stage = .freeing c (.migrate k l) →
      (p.fibers c).handler ≠ some t → Step may p t (p.setStage t (.panicked true))
  /-- `reattach_to` -/
  | attach (c id : Nat) (slab : Slab startingId Nat) (rest : List Nat) : (p.desks t).stage = .poll →
      (p.desks t).moving = c :: rest → (grown (p.desks t).coroutines).insertAt id c = some slab →
      Step may p t ((p.setFiber c { p.fibers c with id := id, handler := some t }).setDesk t
        { p.desks t with moving := rest, coroutines := slab, stage := .settling c .attached })
  /-- `unblock` -/
  | wakes (c : Nat) (next : AfterRegister) : (p.desks t).stage = .settling c next → (p.fibers c).state ≠ .finished →
      Step may p t ((p.setState c .ready).setStage t (.freeing c (.woken next)))
  | event (c id : Nat) : (p.desks t).stage = .poll → (p.desks t).coroutines.get id = some c →
      (p.fibers c).state = .blocked → Step may p t ((p.setState c .ready).setStage t (.freeing c .event))
  /-- `after_resume` -/
  | requeues (c : Nat) (k : Callback) : (p.desks t).stage = .resumed c k →
      (p.fibers c).state = .yielding ∨ (p.fibers c).state = .ready →
      Step may p t ((p.setFiber c { p.fibers c with state := .ready, children := [] }).setDesk t { p.desks t with
        spawned := (p.desks t).spawned ++ (p.fibers c).children
        ready := (p.desks t).ready ++ [c]
        stage := .call k })
  | parks (c : Nat) (k : Callback) : (p.desks t).stage = .resumed c k →
      (p.fibers c).state = .blocked ∨ (p.fibers c).state = .finished →
      Step may p t ((p.setFiber c { p.fibers c with children := [] }).setDesk t { p.desks t with
        spawned := (p.desks t).spawned ++ (p.fibers c).children
        stage := .call k })
  /-- the code of a coroutine -/
  | switches (c : Nat) (ret : Ret) (state : CoState) : (p.desks t).stage = .running c ret → ret.kills = false →
      state = .blocked ∨ state = .yielding → Step may p t ((p.setState c state).setStage t (.left c ret))
  | spawn (c id : Nat) (ret : Ret) (slab : Slab startingId Nat) : (p.desks t).stage = .running c ret → may ret id →
      (grown (p.desks t).coroutines).insertAt id p.coN = some slab →
      Step may p t ((({ p with coN := p.coN + 1 }.setFiber c
        { p.fibers c with children := (p.fibers c).children ++ [p.coN] }).setFiber p.coN
          (.new id (some t) (p.fibers p.coN).handed)).setDesk t { p.desks t with coroutines := slab })
  | finish (c : Nat) (ret : Ret) (slab : Slab startingId Nat) : (p.desks t).stage = .running c ret →
      (p.desks t).coroutines.remove (p.fibers c).id = some slab →
      Step may p t ((p.setState c .finished).setDesk t { p.desks t with coroutines := slab, stage := .ending c ret })
  | misses (c : Nat) (ret : Ret) : (p.desks t).stage = .running c ret →
      (p.desks t).coroutines.remove (p.fibers c).id = none →
      Step may p t ((p.setState c .finished).setStage t (.panicked true))

end Pooling
end Mioco

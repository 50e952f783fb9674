import Mathlib.Logic.Function.Basic
import Mioco.Lib.Slab
import Mioco.Token
import Mioco.Channel
import Mioco.Scheduler
/-!
# The state of a mioco instance (src/mod.rs, src/thread.rs, src/coroutine.rs)

`Instance` is what the event-loop threads of one instance and its coroutines hold.  Threads and coroutines are
numbered; a coroutine keeps its number for good, its `id` is its place in the slab of the thread it is attached to.
What an event loop is doing is its `Pc`: every step makes at most one access to what threads share (the live count, a
queue of messages, a locked `ChannelShared`), with the work local to the thread that goes with it.

Ghost state: the last four fields of `Reg`, the last four of `Coroutine`, `terminates`, and the last three of
`Instance`.
-/
namespace Mioco

open Lib (Slab)

/-! ## Event sources and registrations -/

/-- A channel: one of the user's, or the one the exit status of coroutine `c` goes through. -/
inductive ChanId
  | user (n : Nat)
  | join (c : Nat)
deriving DecidableEq, Repr

/-- An event source: a receiver, a timer or a mio source. -/
inductive Src
  | recv (ch : ChanId)
  | timer (n : Nat)
  | io (n : Nat)
deriving DecidableEq, Repr

/-- `EventSourceCommon`. -/
structure SrcCommon where
  id : Nat
  blockedOn : RW
deriving DecidableEq, Repr

/-- A token given to a channel, a mio timeout or the mio poll, and who registered it: in which of its selects, and
where. -/
structure Reg where
  token : Nat
  co : Nat
  sel : Nat
  src : Src
  loop : Nat
deriving DecidableEq, Repr

/-! ## Coroutines -/

inductive CoState
  | blocked
  | yielding
  | ready
  | finished
deriving DecidableEq, Repr

structure Coroutine where
  state : CoState
  killed : Bool
  id : Nat
  /-- the thread of `handler_shared` -/
  handler : Option Nat
  blockedOn : List Src
  /-- `children_to_start` -/
  children : List Nat
  lastEvent : Event
  /-- selects and blocking calls so far -/
  sel : Nat
  /-- `blockedOn` at the last of them -/
  selected : List Src
  /-- what was in flight to its thread then -/
  inFlight : List Reg
  /-- the registration that ended it -/
  wokenBy : Option Reg
deriving DecidableEq, Repr

/-- How `jump_in` goes on with the context of a coroutine. -/
inductive JumpIn
  /-- `context.resume` -/
  | resume
  /-- `resume_ontop`, of a coroutine that is killed and was running before -/
  | unwindStack
  /-- `context.resume` of a killed coroutine that never ran: it panics and does not call its function -/
  | killedAtStart
deriving DecidableEq, Repr

/-- `Coroutine::spawn`. -/
def Coroutine.new (id : Nat) (handler : Option Nat) : Coroutine where
  state := .ready
  killed := false
  id := id
  handler := handler
  blockedOn := []
  children := []
  lastEvent := ⟨0, RW.ofRead⟩
  sel := 0
  selected := []
  inFlight := []
  wokenBy := none

/-- How the function of a coroutine ended (`thread::Result`). -/
inductive ExitStatus (α : Type)
  | ok (v : α)
  /-- it panicked or was killed -/
  | err
deriving DecidableEq, Repr

/-! ## Threads -/

inductive Message
  | channelMsg (r : Reg)
  /-- its `CoroutineControl` is a new one -/
  | migration (c : Nat)
  | propagatePanic
  | shutdown
  | terminate
deriving DecidableEq, Repr

/-- Why an event-loop thread panicked. -/
inductive Panic
  /-- `coroutines.remove(id).unwrap()` -/
  | slabRemove
  /-- a handle of a coroutine that is not attached to this thread was used -/
  | strayHandle
  /-- `migrate` of `c` to a thread that does not exist -/
  | noSuchThread (c : Nat)
  /-- `handler_shared.as_ref().unwrap()`: the `Migration` that a closed event loop gave back kills its coroutine -/
  | notAttached (c : Nat)
  /-- `Closed channel on sender.send()` -/
  | closedLoop
  /-- `sender.as_ref().unwrap()` in `maybe_notify_receiver` -/
  | noSender
  /-- an event that is neither readable, nor hup, nor writable -/
  | emptyEvent
  /-- `register failed` or `deregister failed` -/
  | mioFailed
  /-- `Message::PropagatePanic` -/
  | propagated
deriving DecidableEq, Repr

/-- Where control goes when a coroutine switches out or ends. -/
inductive Ret
  /-- `resume` in a callback: to `after_resume` -/
  | resumed (k : Callback)
  /-- the drop of a handle in a callback -/
  | killed (k : Callback)
  /-- the drop of a handle with the `Handler` -/
  | stopping
  /-- the drop of a migrated handle while shutting down -/
  | attached
  /-- `Handler::shutdown`, its loop at `i` of `last` -/
  | shutdown (i last : Nat)
deriving DecidableEq, Repr

/-- What runs in the context of a coroutine. -/
inductive Job (α : Type)
  /-- the coroutine function, or the destructors of its stack -/
  | user
  /-- `broadcast_shutdown`, at thread `i` -/
  | shutdown (i : Nat)
  /-- `broadcast_terminate` in `coroutines_dec`, at thread `i` -/
  | terminate (i : Nat) (res : ExitStatus α)
  /-- `PropagatePanic` is sent instead of the exit status -/
  | propagate
  /-- `exit_sender`: the status still to be sent, if any, and its drop -/
  | exit (res : Option (ExitStatus α))
deriving DecidableEq, Repr

/-- After `register_all`. -/
inductive AfterRegister
  /-- in `after_resume` -/
  | resumed (k : Callback)
  /-- in `attach_to` -/
  | attached
deriving DecidableEq, Repr

/-- After `deregister_all`. -/
inductive AfterDeregister
  /-- in `unblock`, from `event` -/
  | event
  /-- in `unblock`, from `register_all` -/
  | woken (next : AfterRegister)
  /-- in `detach_from` -/
  | migrate (k : Callback) (threadId : Nat)
deriving DecidableEq, Repr

inductive Pc (α : Type)
  | starting
  /-- in mio, between two calls of the `Handler` -/
  | poll
  /-- in a callback of the scheduler -/
  | call (k : Callback)
  /-- in `deliver_to_scheduler`, the `spawned` queue next -/
  | deliverSpawned
  /-- in `deliver_to_scheduler`, the `ready` queue next -/
  | deliverReady (noSpawned : Bool)
  | exec (c : Nat) (ret : Ret) (job : Job α)
  | register (c : Nat) (todo : List Src) (hit : Option (Event × Reg)) (next : AfterRegister)
  | deregister (c : Nat) (next : AfterDeregister)
  /-- `after_resume` once `register_all` is done -/
  | resumed (c : Nat) (k : Callback)
  | shutdown (i last : Nat)
  /-- the event loop has ended; its `Handler` is being dropped -/
  | stopping
  | done
  | panicked (why : Panic)
deriving DecidableEq, Repr

namespace Pc
variable {α : Type}

def isStarting : Pc α → Bool
  | starting => true
  | _ => false

def isPoll : Pc α → Bool
  | poll => true
  | _ => false

def isPanicked : Pc α → Bool
  | panicked _ => true
  | _ => false

end Pc

/-- Coroutines are numbered from this upwards (`STARTING_ID`). -/
def startingId : Nat := 1

/-- One event-loop thread: its `EventLoop`, `Handler` and `HandlerShared`. -/
structure Thread (S : Sched) (α : Type) where
  coroutines : Slab startingId Nat
  spawned : List Handle
  ready : List Handle
  sched : S.Thread
  /-- the handles the scheduler holds -/
  held : List Handle
  isShuttingDown : Bool
  /-- messages sent to the event loop -/
  inbox : List Message
  /-- `event_loop.shutdown()` was called -/
  terminated : Bool
  /-- the event loop exists -/
  isOpen : Bool
  /-- mio sources registered -/
  ios : Nat → Option Reg
  /-- timeouts pending, by slot, each with its tick -/
  wheel : Nat → Option (Nat × Reg)
  /-- events mio has reported and not yet passed on -/
  batch : List (Reg × EventSet)
  pc : Pc α
  /-- `Terminate`s sent to the event loop -/
  terminates : Nat

structure Instance (S : Sched) (w : Nat) (α : Type) where
  threads : Nat → Thread S α
  cos : Nat → Coroutine
  /-- the last `jump_in` of every coroutine, none before it was running -/
  lastJump : Nat → Option JumpIn
  /-- the coroutine is in the loop of `mioco::shutdown` -/
  inShutdown : Nat → Bool
  /-- coroutines spawned so far -/
  coN : Nat
  /-- `coroutines_num` -/
  coroutinesNum : Nat
  shared : S.Shared
  chans : ChanId → Chan w (ExitStatus α) Reg Nat
  /-- messages of a channel taken by `try_recv` and not yet subtracted -/
  taken : ChanId → Nat
  srcs : Src → SrcCommon
  /-- `mio_timeout` of every timer: slot and tick -/
  timeouts : Nat → Option (Nat × Nat)
  /-- how often `coroutines_dec` went down to zero -/
  broadcasts : Nat
  /-- some coroutine has called `mioco::shutdown` -/
  shutdownCalled : Bool
  /-- how many messages of a channel were received -/
  received : ChanId → Nat

structure Config where
  threadNum : Nat
  catchPanics : Bool
deriving DecidableEq, Repr

namespace Instance
variable {S : Sched} {w : Nat} {α : Type}

def setThread (s : Instance S w α) (t : Nat) (th : Thread S α) : Instance S w α :=
  { s with threads := Function.update s.threads t th }

def setCo (s : Instance S w α) (c : Nat) (co : Coroutine) : Instance S w α :=
  { s with cos := Function.update s.cos c co }

def setChan (s : Instance S w α) (ch : ChanId) (c : Chan w (ExitStatus α) Reg Nat) : Instance S w α :=
  { s with chans := Function.update s.chans ch c }

def setPc (s : Instance S w α) (t : Nat) (pc : Pc α) : Instance S w α :=
  s.setThread t { s.threads t with pc := pc }

/-- The event-loop thread unwinds; its event loop is dropped. -/
def panic (s : Instance S w α) (t : Nat) (why : Panic) : Instance S w α :=
  s.setThread t { s.threads t with pc := .panicked why, isOpen := false }

/-- A message joins the queue of event loop `l`. -/
def send (s : Instance S w α) (l : Nat) (m : Message) : Instance S w α :=
  s.setThread l { s.threads l with inbox := (s.threads l).inbox ++ [m] }

end Instance
end Mioco

import Mioco.Lib.System
import Mioco.Token
import Mioco.Channel
/-!
# Runs of one channel

Any number of sender clones against one receiver, interleaved at the atomic steps of src/sync/mpsc.rs.  The receiver's
coroutine registers in `register_all` after it switched out, and leaves by `deregister`: because `register` returned
true, because a message of its event loop carried its id, or because another source of the same select woke it.

Ghost state: the `stamp` of a registration, `overtaken`, `outside`.
-/
namespace Mioco

open Lib (System)

/-- A token in a `ChannelShared`, and (ghost) which registration of the receiver stored it. -/
structure Stamped where
  token : Nat
  stamp : Nat
deriving DecidableEq, Repr

/-- Why the receiver's coroutine was resumed. -/
inductive Wake
  /-- `ReceiverCore::register` returned true -/
  | selfWake
  /-- a `ChannelMsg` issued for the current registration -/
  | message
  /-- another source of the select, or a message that is not of the current registration -/
  | other
deriving DecidableEq, Repr

/-- Where the receiving end is. -/
inductive RecvPc
  /-- user code holds it; the cause of the last resume is kept until the next `try_recv` -/
  | running (woken : Option Wake)
  /-- std `try_recv` returned `Ok`; `counter.fetch_sub` is next -/
  | took
  /-- on `blocked_on`, the coroutine has switched out; `register` is next -/
  | blocking
  /-- `register` returned false -/
  | parked
  /-- `deregister` is next -/
  | leaving (cause : Wake)
  /-- in the std `recv`, outside any coroutine -/
  | waiting
  | gone
deriving DecidableEq, Repr

structure ChanRun (w : Nat) (α : Type) where
  chan : Chan w α Stamped Nat
  recv : RecvPc
  /-- `ChannelMsg`s sent and not yet processed, each with the event loop it was sent to -/
  inflight : List (Nat × Stamped)
  stamp : Nat
  /-- a send whose message was already received was still in progress when the receiver last registered -/
  overtaken : Bool
  /-- messages received by `recv` outside any coroutine -/
  outside : Nat
deriving DecidableEq, Repr

inductive ChanAct (α : Type)
  | sender (i : Nat) (a : SenderAct α)
  /-- std `try_recv`, from `Receiver::try_recv` or the loop of `Receiver::recv` in a coroutine -/
  | tryRecv
  /-- std `try_recv` takes the value of sender `i`, blocked in its std send (bound 0) -/
  | tryRecvFrom (i : Nat)
  | fetchSub
  /-- `block_on`, or `select_add` and `select_wait` -/
  | block
  | register (token : Nat) (eventLoop : Nat)
  | otherWake
  | deregister
  /-- an event loop processes the `k`-th message in flight -/
  | deliver (k : Nat)
  /-- `Receiver::recv` outside any coroutine enters the std `recv` -/
  | recv
  | recvReturn
  | recvReturnFrom (i : Nat)
  | dropReceiver
deriving DecidableEq, Repr

namespace ChanRun
variable {w : Nat} {α : Type}

/-- Some send has had its message taken and has not returned. -/
def sendOvertaken (c : Chan w α Stamped Nat) : Bool :=
  c.queue.isEmpty && c.senders.any SenderPc.afterSend

/-- A message to event loop `l` wakes the parked coroutine: `Handler::ready` finds it by the id in the token. -/
def addressed (c : Chan w α Stamped Nat) (l : Nat) (m : Stamped) : Bool :=
  match c.sender, c.token with
  | some l', some t => decide (l = l') && decide ((tokenToIds m.token).1 = (tokenToIds t.token).1)
  | _, _ => false

/-- A notification joins the messages in flight. -/
def post (s : ChanRun w α) (c : Chan w α Stamped Nat) : Notify Stamped Nat → ChanRun w α
  | .channelMsg l m => { s with chan := c, inflight := s.inflight ++ [(l, m)] }
  | _ => { s with chan := c }

def step (s : ChanRun w α) : ChanAct α → Option (ChanRun w α)
  | .sender i a =>
    match s.chan.senderStep i a with
    | some (c, n) => some (s.post c n)
    | none => none
  | .tryRecv =>
    match s.recv, s.chan.tryRecv with
    | .running _, .ok _ => some { s with chan := s.chan.popQueue, recv := .took }
    | .running _, _ => some { s with recv := .running none }
    | _, _ => none
  | .tryRecvFrom i =>
    match s.recv, s.chan.handOver i with
    | .running _, some c => some { s with chan := c, recv := .took }
    | _, _ => none
  | .fetchSub =>
    match s.recv with
    | .took => some { s with chan := s.chan.fetchSub, recv := .running none }
    | _ => none
  | .block =>
    match s.recv with
    | .running _ => some { s with recv := .blocking }
    | _ => none
  | .register token l =>
    match s.recv with
    | .blocking =>
      let r := s.chan.register ⟨token, s.stamp + 1⟩ l
      some { s with chan := r.1, stamp := s.stamp + 1, overtaken := sendOvertaken s.chan,
                    recv := if r.2 then .leaving .selfWake else .parked }
    | _ => none
  | .otherWake =>
    match s.recv with
    | .parked => some { s with recv := .leaving .other }
    | _ => none
  | .deregister =>
    match s.recv with
    | .leaving cause => some { s with chan := s.chan.deregister, recv := .running (some cause) }
    | _ => none
  | .deliver k =>
    match s.inflight[k]? with
    | some (l, m) =>
      some { s with
        inflight := s.inflight.eraseIdx k
        recv := if s.recv = .parked ∧ addressed s.chan l m = true then
            .leaving (if m.stamp = s.stamp then .message else .other)
          else s.recv }
    | none => none
  | .recv =>
    match s.recv with
    | .running _ => some { s with recv := .waiting }
    | _ => none
  | .recvReturn =>
    match s.recv, s.chan.tryRecv with
    | .waiting, .ok _ =>
      -- no `fetch_sub` on this path
      some { s with chan := s.chan.popQueue, recv := .running none, outside := s.outside + 1 }
    | .waiting, .disconnected => some { s with recv := .running none }
    | _, _ => none
  | .recvReturnFrom i =>
    match s.recv, s.chan.handOverWaiting i with
    | .waiting, some c => some { s with chan := c, recv := .running none, outside := s.outside + 1 }
    | _, _ => none
  | .dropReceiver =>
    match s.recv with
    | .running _ => some { s with chan := s.chan.dropReceiver, recv := .gone }
    | _ => none

def start (bound : Option Nat) : ChanRun w α where
  chan := Chan.new bound
  recv := .running none
  inflight := []
  stamp := 0
  overtaken := false
  outside := 0

end ChanRun

/-- The runs of one channel. -/
def chanSystem (w : Nat) (α : Type) (bound : Option Nat) : System (ChanRun w α) (ChanAct α) where
  Init s := s = ChanRun.start bound
  step := ChanRun.step

/-- `Receiver::recv` is entered outside any coroutine. -/
def ChanAct.isStdRecv {α : Type} : ChanAct α → Bool
  | .recv => true
  | _ => false

/-- The receiver is only used in coroutines: the std `recv` is never entered. -/
def insideOnly {w : Nat} {α : Type} (_ : ChanRun w α) (a : ChanAct α) : Prop := a.isStdRecv = false

instance {w : Nat} {α : Type} (s : ChanRun w α) (a : ChanAct α) : Decidable (insideOnly s a) :=
  inferInstanceAs (Decidable (a.isStdRecv = false))

end Mioco

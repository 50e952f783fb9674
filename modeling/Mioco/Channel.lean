import Mathlib.Data.BitVec
/-!
# The mioco channel (src/sync/mpsc.rs)

`Chan` is what the ends of one channel share: the std channel under it, the atomic counter, the locked
`ChannelShared` (token and event-loop sender), the strong count of `Arc<SenderShared>` and, for every sender clone,
how far the call it is in has got.  Every function is one atomic step of the source: a std call, a `fetch_add` or
`fetch_sub`, or one locked section.

`w` is the width of `usize`, `τ` the type of tokens and `κ` of event-loop senders.
-/
namespace Mioco

/-- Where one sender clone is in `send` or in its drop. -/
inductive SenderPc (w : Nat) (α : Type)
  /-- between calls -/
  | idle
  /-- inside `send`, the std send of `t` still to succeed -/
  | sending (t : α) (inCoroutine : Bool)
  /-- std took the message; `counter.fetch_add` is next -/
  | sent
  /-- `fetch_add` returned `prev`; `if prev_counter == 0` is next -/
  | added (prev : BitVec w)
  /-- released the last `Arc<SenderShared>`; `SenderShared::drop` is next -/
  | released
  /-- the `fetch_add` of `SenderShared::drop` returned `prev` -/
  | dropAdded (prev : BitVec w)
  /-- only the std sender is left to drop -/
  | closing
  | dropped
deriving DecidableEq, Repr

namespace SenderPc
variable {w : Nat} {α : Type}

/-- Holds an `Arc<SenderShared>`. -/
@[simp] def holdsArc : SenderPc w α → Bool
  | idle | sending _ _ | sent | added _ => true
  | _ => false

@[simp] def isSent : SenderPc w α → Bool
  | sent => true
  | _ => false

@[simp] def isReleased : SenderPc w α → Bool
  | released => true
  | _ => false

@[simp] def isDropped : SenderPc w α → Bool
  | dropped => true
  | _ => false

/-- In `send`, after std took the message. -/
@[simp] def afterSend : SenderPc w α → Bool
  | sent | added _ => true
  | _ => false

/-- In `SenderShared::drop`, after its `fetch_add`. -/
@[simp] def isDropAdded : SenderPc w α → Bool
  | dropAdded _ => true
  | _ => false

/-- A `counter.fetch_add` is the next step. -/
@[simp] def fetchAddNext : SenderPc w α → Bool
  | sent | released => true
  | _ => false

/-- The `fetch_add` returned zero and `maybe_notify_receiver` has not run yet. -/
@[simp] def notifyNext : SenderPc w α → Bool
  | added prev | dropAdded prev => prev == 0
  | _ => false
end SenderPc

/-- One channel; `bound` is `none` for `channel()` and `some b` for `sync_channel(b)`. -/
structure Chan (w : Nat) (α τ κ : Type) where
  bound : Option Nat
  queue : List α
  /-- the receiving end exists -/
  receiver : Bool
  counter : BitVec w
  token : Option τ
  sender : Option κ
  /-- strong count of `Arc<SenderShared>` -/
  arcs : Nat
  senders : List (SenderPc w α)
deriving DecidableEq, Repr

/-- What `maybe_notify_receiver` did. -/
inductive Notify (τ κ : Type)
  | nothing
  /-- `sender_retry(&sender, Message::ChannelMsg(token))` -/
  | channelMsg (sender : κ) (token : τ)
  /-- `sender.as_ref().unwrap()` on `None` -/
  | unwrapNone
deriving DecidableEq, Repr

/-- Result of the std `try_recv`. -/
inductive TryRecv (α : Type)
  | ok (t : α)
  | empty
  | disconnected
deriving DecidableEq, Repr

/-- Steps of a sender clone. -/
inductive SenderAct (α : Type)
  | clone
  | send (t : α) (inCoroutine : Bool)
  | stdSend
  | stdSendFull
  | abandon
  | fetchAdd
  | notify
  | drop
  | dropFetchAdd
  | dropNotify
  | dropStd
deriving DecidableEq, Repr

namespace Chan
variable {w : Nat} {α τ κ : Type}

/-- `channel()` and `sync_channel(bound)`. -/
def new (bound : Option Nat) : Chan w α τ κ where
  bound := bound
  queue := []
  receiver := true
  counter := 0
  token := none
  sender := none
  arcs := 1
  senders := [.idle]

/-- The std channel has a free place; with bound 0 a value is only ever handed over, never queued. -/
def room (c : Chan w α τ κ) : Bool :=
  match c.bound with
  | none => true
  | some b => decide (c.queue.length < b)

/-- Every queued message is a node in memory, so there are less than `2 ^ w` of them (std aborts before). -/
def inMemory (c : Chan w α τ κ) : Bool := decide (c.queue.length + 2 < 2 ^ w)

/-- Every std sender has been dropped. -/
def disconnected (c : Chan w α τ κ) : Bool := c.senders.all SenderPc.isDropped

def setPc (c : Chan w α τ κ) (i : Nat) (pc : SenderPc w α) : Chan w α τ κ :=
  { c with senders := c.senders.set i pc }

/-- `counter.fetch_add(1)`; the previous value is `c.counter`. -/
def fetchAdd (c : Chan w α τ κ) : Chan w α τ κ := { c with counter := c.counter + 1 }

/-- `counter.fetch_sub(1)` of `try_recv`. -/
def fetchSub (c : Chan w α τ κ) : Chan w α τ κ := { c with counter := c.counter - 1 }

/-- The locked section of `maybe_notify_receiver`. -/
def maybeNotifyReceiver (c : Chan w α τ κ) : Notify τ κ :=
  match c.token, c.sender with
  | none, _ => .nothing
  | some t, some s => .channelMsg s t
  | some _, none => .unwrapNone

/-- `if prev_counter == 0 { maybe_notify_receiver(..) }`. -/
def notifyIfZero (c : Chan w α τ κ) (prev : BitVec w) : Notify τ κ :=
  if prev = 0 then c.maybeNotifyReceiver else .nothing

/-- One step of sender clone `i` (`Sender::send`, `SyncSender::send`, `clone`, `SenderShared::drop` and the drop of
the std sender after it). -/
def senderStep (c : Chan w α τ κ) (i : Nat) (a : SenderAct α) : Option (Chan w α τ κ × Notify τ κ) :=
  match a, c.senders[i]? with
  | .clone, some .idle => some ({ c with senders := c.senders ++ [.idle], arcs := c.arcs + 1 }, .nothing)
  | .send t inCoroutine, some .idle => some (c.setPc i (.sending t inCoroutine), .nothing)
  | .stdSend, some (.sending t _) =>
    -- std refuses a message once the receiver is gone: `Err(SendError(t))`
    if !c.receiver then some (c.setPc i .idle, .nothing)
    else if c.room && c.inMemory then some ({ c with queue := c.queue ++ [t] }.setPc i .sent, .nothing)
    else none
  | .stdSendFull, some (.sending _ true) =>
    -- `TrySendError::Full`: `yield_now()` and try again
    if c.receiver && !c.room then some (c, .nothing) else none
  -- the coroutine is killed in that `yield_now()`
  | .abandon, some (.sending _ true) => some (c.setPc i .idle, .nothing)
  | .fetchAdd, some .sent => some (c.fetchAdd.setPc i (.added c.counter), .nothing)
  | .notify, some (.added prev) => some (c.setPc i .idle, c.notifyIfZero prev)
  | .drop, some .idle =>
    some ({ c with arcs := c.arcs - 1 }.setPc i (if c.arcs = 1 then .released else .closing), .nothing)
  | .dropFetchAdd, some .released => some (c.fetchAdd.setPc i (.dropAdded c.counter), .nothing)
  | .dropNotify, some (.dropAdded prev) => some (c.setPc i .closing, c.notifyIfZero prev)
  | .dropStd, some .closing => some (c.setPc i .dropped, .nothing)
  | _, _ => none

/-- `receiver.try_recv()` of std. -/
def tryRecv (c : Chan w α τ κ) : TryRecv α :=
  match c.queue with
  | t :: _ => .ok t
  | [] => if c.disconnected then .disconnected else .empty

/-- The message `tryRecv` returned leaves the queue. -/
def popQueue (c : Chan w α τ κ) : Chan w α τ κ := { c with queue := c.queue.tail }

/-- Bound 0: std hands the value of sender `i`, blocked in its std send, over to the receiver. -/
def handOver (c : Chan w α τ κ) (i : Nat) : Option (Chan w α τ κ) :=
  match c.bound, c.senders[i]? with
  | some 0, some (.sending _ false) => some (c.setPc i .sent)
  | _, _ => none

/-- Bound 0 with the receiver waiting in the std `recv`: a `try_send` succeeds as well. -/
def handOverWaiting (c : Chan w α τ κ) (i : Nat) : Option (Chan w α τ κ) :=
  match c.bound, c.senders[i]? with
  | some 0, some (.sending _ _) => some (c.setPc i .sent)
  | _, _ => none

/-- `ReceiverCore::register`: its locked section. -/
def register (c : Chan w α τ κ) (token : τ) (eventLoop : κ) : Chan w α τ κ × Bool :=
  if c.counter ≠ 0 then ({ c with token := none, sender := some eventLoop }, true)
  else ({ c with token := some token, sender := some eventLoop }, false)

/-- `ReceiverCore::deregister`. -/
def deregister (c : Chan w α τ κ) : Chan w α τ κ := { c with token := none, sender := none }

/-- The receiving end is dropped, and with it the std queue. -/
def dropReceiver (c : Chan w α τ κ) : Chan w α τ κ := { c with receiver := false, queue := [] }

end Chan
end Mioco

import Mioco.Lib.System
import Mioco.Instance
/-!
# The steps of a mioco instance (src/mod.rs, src/thread.rs, src/coroutine.rs)

One function per piece of the source; `step` dispatches on the action.  `thread t` is event-loop thread `t`, in the
event loop, in its scheduler or in the coroutine it runs; the other actions are those of senders, of receivers and of
the operating system.

`sender_retry` sends or finds its event loop closed: a full queue is never reported by mio here.  What the unwinding of
a panicked event-loop thread drops is not followed, and the drop of an exit status that nobody receives runs no code of
the user (`Afterlife` has those that do).
-/
namespace Mioco

open Lib (System Slab)

/-- What the code of a coroutine does. -/
inductive UserAct (α : Type)
  /-- `block_on`, or a number of `select_add` and `select_wait` -/
  | select (srcs : List (Src × RW))
  | yieldNow
  /-- `spawn_child`; the slab takes the id -/
  | spawn (id : Nat)
  | shutdown
  /-- the function returns or unwinds -/
  | finish (res : ExitStatus α)
deriving DecidableEq, Repr

inductive ThreadAct (α : Type)
  | start
  /-- mio calls `tick`, `notify`, `ready`, `timeout` -/
  | tick
  | notify (id : Nat)
  | ready
  | timeout (slot : Nat)
  /-- mio's loop ends -/
  | stop
  | sched (choice : Nat)
  /-- `register` of the next source; for a timer, whether it is due, and the slot and tick mio gives it -/
  | register (due : Bool) (slot tick : Nat)
  | user (u : UserAct α)
  /-- whatever else comes next -/
  | next
deriving DecidableEq, Repr

/-- Steps of the receiving end of a channel. -/
inductive RecvAct
  | tryRecv
  | tryRecvFrom (i : Nat)
  | fetchSub
  | recvOutside
  | recvOutsideFrom (i : Nat)
  | dropReceiver
deriving DecidableEq, Repr

inductive Action (α : Type)
  | thread (t : Nat) (a : ThreadAct α)
  | sender (n : Nat) (i : Nat) (a : SenderAct (ExitStatus α))
  | receiver (ch : ChanId) (a : RecvAct)
  /-- mio reports an event of a source registered with loop `t` -/
  | ioReady (t n : Nat) (e : EventSet)
deriving DecidableEq, Repr

/-- Where `deliver_to_scheduler` is entered, or goes on, after a callback. -/
def afterCall {α : Type} : Callback → Pc α
  | .spawned => .deliverReady false
  | .ready | .tick => .deliverSpawned

/-- What the end of a coroutine does after `coroutines_dec`. -/
def Config.report {α : Type} (cfg : Config) : ExitStatus α → Job α
  | .ok v => .exit (some (.ok v))
  | .err => if cfg.catchPanics then .exit (some .err) else .propagate

/-- The next step of `exit_sender`, in `send` or in its drop. -/
def exitAct {w : Nat} {α : Type} (res : Option (ExitStatus α)) : SenderPc w (ExitStatus α) → SenderAct (ExitStatus α)
  | .idle => match res with | some v => .send v false | none => .drop
  | .sending _ _ => .stdSend
  | .sent => .fetchAdd
  | .added _ => .notify
  | .released => .dropFetchAdd
  | .dropAdded _ => .dropNotify
  | .closing | .dropped => .dropStd

/-- The slab `insert_with` and `attach` insert into: twice as large if it is full. -/
def grown (slab : Slab startingId Nat) : Slab startingId Nat :=
  if slab.hasRemaining then slab else slab.grow slab.count

namespace Instance
variable {S : Sched} {w : Nat} {α : Type}

/-! ## Into a coroutine and out of it -/

/-- Control returns from coroutine `c`. -/
def leave (s : Instance S w α) (t c : Nat) : Ret → Instance S w α
  | .resumed k => s.setPc t (.register c (s.cos c).blockedOn none (.resumed k))
  | .killed k => s.setPc t (.call k)
  | .stopping => s.setPc t .stopping
  | .attached => s.setPc t .poll
  | .shutdown i last => s.setPc t (.shutdown i last)

/-- What `jump_in` does with the context: `killed` and `was_running_before`. -/
def jump (s : Instance S w α) (c : Nat) : JumpIn :=
  if (s.cos c).killed then if (s.lastJump c).isSome then .unwindStack else .killedAtStart else .resume

/-- `jump_in`. -/
def jumpIn (s : Instance S w α) (t c : Nat) (ret : Ret) : Instance S w α :=
  if (s.cos c).state = .finished then s.leave t c ret
  else if (s.cos c).handler = some t then
    { s with lastJump := Function.update s.lastJump c (some (s.jump c)) }.setPc t (.exec c ret .user)
  else s.panic t .strayHandle

/-- `CoroutineControl::kill`. -/
def kill (s : Instance S w α) (t c : Nat) (ret : Ret) : Instance S w α :=
  (s.setCo c { s.cos c with killed := true }).jumpIn t c ret

/-! ## The scheduler -/

/-- The scheduler is called, with a handle or without. -/
def callback (s : Instance S w α) (t : Nat) (k : Callback) (h : Option Handle) : Instance S w α :=
  let th := s.threads t
  s.setThread t { th with
    held := th.held ++ h.toList, sched := S.enter k (th.held ++ h.toList) th.sched, pc := .call k }

/-- The scheduler carries out a command. -/
def command (s : Instance S w α) (t : Nat) (k : Callback) (c : Cmd) : Instance S w α :=
  let th := s.threads t
  match c with
  | .ret => s.setPc t (afterCall k)
  | .resume i =>
    match th.held[i]? with
    | some h => (s.setThread t { th with held := th.held.eraseIdx i }).jumpIn t h.co (.resumed k)
    | none => s.setPc t (afterCall k)
  | .migrate i threadId =>
    match th.held[i]? with
    | some h =>
      s.setThread t { th with held := th.held.eraseIdx i, pc := .deregister h.co (.migrate k threadId) }
    | none => s.setPc t (afterCall k)
  | .drop i =>
    match th.held[i]? with
    | some h => (s.setThread t { th with held := th.held.eraseIdx i }).kill t h.co (.killed k)
    | none => s.setPc t (afterCall k)

def sched (s : Instance S w α) (t choice : Nat) : Option (Instance S w α) :=
  let th := s.threads t
  match th.pc with
  | .call k =>
    let r := S.next choice th.held th.sched s.shared
    some (({ s with shared := r.2.2 }.setThread t { th with sched := r.2.1 }).command t k r.1)
  | _ => none

/-- The end of `migrate`: `detach_from` after `deregister_all`, the slab, the message. -/
def detach (s : Instance S w α) (cfg : Config) (t c : Nat) (k : Callback) (threadId : Nat) : Instance S w α :=
  let th := s.threads t
  if (s.cos c).handler = some t then
    match th.coroutines.remove (s.cos c).id with
    | none => (s.setCo c { s.cos c with handler := none }).panic t .slabRemove
    | some slab =>
      let s' := (s.setCo c { s.cos c with handler := none }).setThread t { th with coroutines := slab, pc := .call k }
      if cfg.threadNum ≤ threadId then s'.panic t (.noSuchThread c)
      else if (s'.threads threadId).isOpen then s'.send threadId (.migration c)
      else s'.panic t (.notAttached c)
  else s.panic t .strayHandle

/-! ## Registering -/

/-- `register_all`, its next source. -/
def register (s : Instance S w α) (t : Nat) (due : Bool) (slot tick : Nat) : Option (Instance S w α) :=
  let th := s.threads t
  match th.pc with
  | .register c (src :: todo) hit next =>
    let r : Reg := { token := tokenFromIds (s.cos c).id (s.srcs src).id, co := c, sel := (s.cos c).sel, src, loop := t }
    let e : Event := ⟨(s.srcs src).id, (s.srcs src).blockedOn⟩
    match src with
    | .recv ch =>
      let reg := (s.chans ch).register r t
      some ((s.setChan ch reg.1).setPc t (.register c todo (if reg.2 then some (e, r) else hit) next))
    | .timer n =>
      if due then some (s.setPc t (.register c todo (some (e, r)) next))
      else if (th.wheel slot).isNone then
        some ({ s with timeouts := Function.update s.timeouts n (some (slot, tick)) }.setThread t
          { th with wheel := Function.update th.wheel slot (some (tick, r)), pc := .register c todo hit next })
      else none
    | .io n =>
      if (th.ios n).isNone then
        some (s.setThread t { th with ios := Function.update th.ios n (some r), pc := .register c todo hit next })
      else some (s.panic t .mioFailed)
  | _ => none

/-- After `attach_to`, in `Handler::notify`. -/
def attached (s : Instance S w α) (t c : Nat) : Instance S w α :=
  if (s.threads t).isShuttingDown then s.kill t c .attached else s.callback t .ready (some (Handle.new c))

def afterRegister (s : Instance S w α) (t c : Nat) : AfterRegister → Instance S w α
  | .resumed k => s.setPc t (.resumed c k)
  | .attached => s.attached t c

/-- The end of `register_all`: the last source that hit unblocks the coroutine. -/
def registered (s : Instance S w α) (t c : Nat) (hit : Option (Event × Reg)) (next : AfterRegister) :
    Instance S w α :=
  match hit with
  | none => s.afterRegister t c next
  | some (e, r) =>
    (s.setCo c { s.cos c with state := .ready, lastEvent := e, wokenBy := some r }).setPc t
      (.deregister c (.woken next))

def afterDeregister (s : Instance S w α) (cfg : Config) (t c : Nat) : AfterDeregister → Instance S w α
  | .event => s.callback t .ready (some (Handle.new c))
  | .woken next => s.afterRegister t c next
  | .migrate k threadId => s.detach cfg t c k threadId

/-- `clear_timeout`. -/
def clearTimeout (s : Instance S w α) (t : Nat) (timeout : Option (Nat × Nat)) : Instance S w α :=
  let th := s.threads t
  match timeout with
  | none => s
  | some (slot, tick) =>
    if (th.wheel slot).any (fun e => decide (e.1 = tick)) then
      s.setThread t { th with wheel := Function.update th.wheel slot none }
    else s

/-- `deregister` of one source. -/
def deregisterSrc (s : Instance S w α) (t : Nat) : Src → Instance S w α
  | .recv ch => s.setChan ch (s.chans ch).deregister
  | .timer n => s.clearTimeout t (s.timeouts n)
  | .io n =>
    if ((s.threads t).ios n).isSome then
      s.setThread t { s.threads t with ios := Function.update (s.threads t).ios n none }
    else s.panic t .mioFailed

/-- `deregister_all`, its next source or its end. -/
def deregister (s : Instance S w α) (cfg : Config) (t c : Nat) (next : AfterDeregister) : Instance S w α :=
  match (s.cos c).blockedOn with
  | src :: rest => (s.setCo c { s.cos c with blockedOn := rest }).deregisterSrc t src
  | [] => s.afterDeregister cfg t c next

/-- `after_resume`, once `register_all` is done. -/
def afterResume (s : Instance S w α) (t c : Nat) (k : Callback) : Instance S w α :=
  let th := s.threads t
  let co := s.cos c
  let spawned := th.spawned ++ co.children.map Handle.new
  match co.state with
  | .yielding => (s.setCo c { co with children := [], state := .ready }).setThread t
      { th with spawned := spawned, ready := th.ready ++ [⟨c, true⟩], pc := .call k }
  | .ready => (s.setCo c { co with children := [] }).setThread t
      { th with spawned := spawned, ready := th.ready ++ [Handle.new c], pc := .call k }
  | .blocked | .finished => (s.setCo c { co with children := [] }).setThread t
      { th with spawned := spawned, pc := .call k }

/-! ## `mio::Handler` -/

/-- `deliver_to_scheduler`, the `spawned` queue. -/
def deliverSpawned (s : Instance S w α) (t : Nat) : Instance S w α :=
  let th := s.threads t
  match th.spawned with
  | h :: rest => (s.setThread t { th with spawned := rest }).callback t .spawned (some h)
  | [] => s.setPc t (.deliverReady true)

/-- `deliver_to_scheduler`, the `ready` queue. -/
def deliverReady (s : Instance S w α) (t : Nat) (noSpawned : Bool) : Instance S w α :=
  let th := s.threads t
  match th.ready with
  | h :: rest => (s.setThread t { th with ready := rest }).callback t .ready (some h)
  | [] => s.setPc t (if noSpawned then .poll else .deliverSpawned)

/-- `Handler::ready` and `CoroutineSlabHandle::event`. -/
def ready (s : Instance S w α) (t : Nat) (r : Reg) (e : EventSet) : Instance S w α :=
  match (s.threads t).coroutines.get (tokenToIds r.token).1 with
  | none => s.setPc t .poll
  | some c =>
    if (s.cos c).state = .blocked then
      match e.rw with
      | none => s.panic t .emptyEvent
      | some rw =>
        (s.setCo c { s.cos c with
          state := .ready, lastEvent := ⟨(tokenToIds r.token).2, rw⟩, wokenBy := some r }).setPc t
            (.deregister c .event)
    else s.setPc t .deliverSpawned

/-- `reattach_to`, up to `register_all`. -/
def attach (s : Instance S w α) (t id c : Nat) : Option (Instance S w α) :=
  let th := s.threads t
  match (grown th.coroutines).insertAt id c with
  | some slab =>
    some ((s.setCo c { s.cos c with id := id, handler := some t }).setThread t
      { th with coroutines := slab, pc := .register c (s.cos c).blockedOn none .attached })
  | none => none

/-- `Handler::notify`. -/
def notify (s : Instance S w α) (t id : Nat) : Option (Instance S w α) :=
  let th := s.threads t
  match th.inbox with
  | [] => none
  | m :: rest =>
    let s' := s.setThread t { th with inbox := rest }
    match m with
    | .channelMsg r => some (s'.ready t r EventSet.ofReadable)
    | .migration c => s'.attach t id c
    | .propagatePanic => some (s'.panic t .propagated)
    | .shutdown =>
      some (s'.setThread t { th with
        inbox := rest, isShuttingDown := true,
        pc := .shutdown startingId (startingId + (th.coroutines.count + th.coroutines.remaining)) })
    | .terminate => some (s'.setThread t { th with inbox := rest, terminated := true })

/-- `Handler::shutdown`, up to the next coroutine it kills. -/
def shutdownNext (s : Instance S w α) (t i last : Nat) : Instance S w α :=
  match (s.threads t).coroutines.nextFrom i last with
  | none => s.setPc t .poll
  | some id =>
    match (s.threads t).coroutines.get id with
    | none => s
    | some c => s.kill t c (.shutdown (id + 1) last)

/-- The `Handler` is dropped, and with it every handle it has left. -/
def stopNext (s : Instance S w α) (t : Nat) : Instance S w α :=
  let th := s.threads t
  match th.held, th.spawned, th.ready with
  | h :: rest, _, _ => (s.setThread t { th with held := rest }).kill t h.co .stopping
  | [], h :: rest, _ => (s.setThread t { th with spawned := rest }).kill t h.co .stopping
  | [], [], h :: rest => (s.setThread t { th with ready := rest }).kill t h.co .stopping
  | [], [], [] => s.setThread t { th with pc := .done, isOpen := false }

/-! ## The code of a coroutine -/

/-- Registrations whose event or message is on its way to the thread. -/
def inFlightTo (th : Thread S α) : List Reg :=
  th.inbox.filterMap (fun m => match m with | .channelMsg r => some r | _ => none) ++ th.batch.map Prod.fst

/-- The ids that a number of `select_add` give, the first one `n`. -/
def selectAdd (srcs : Src → SrcCommon) : Nat → List (Src × RW) → Src → SrcCommon
  | _, [] => srcs
  | n, (src, rw) :: l => selectAdd (Function.update srcs src ⟨n, rw⟩) (n + 1) l

/-- The end of `coroutine_main_fn`, up to `coroutines_dec`. -/
def finish (s : Instance S w α) (cfg : Config) (t c : Nat) (ret : Ret) (res : ExitStatus α) : Instance S w α :=
  let th := s.threads t
  let s' := s.setCo c { s.cos c with blockedOn := [], state := .finished }
  match th.coroutines.remove (s.cos c).id with
  | none => s'.panic t .slabRemove
  | some slab =>
    let last := s.coroutinesNum = 1
    { s' with
      coroutinesNum := s.coroutinesNum - 1
      broadcasts := if last then s.broadcasts + 1 else s.broadcasts }.setThread t
        { th with coroutines := slab, pc := .exec c ret (if last then .terminate 0 res else cfg.report res) }

def user (s : Instance S w α) (cfg : Config) (t : Nat) (u : UserAct α) : Option (Instance S w α) :=
  let th := s.threads t
  match th.pc with
  | .exec c ret .user =>
    let co := s.cos c
    match u with
    | .select l =>
      let blockedOn := co.blockedOn ++ l.map Prod.fst
      some (({ s with srcs := selectAdd s.srcs co.blockedOn.length l }.setCo c { co with
        state := .blocked, blockedOn := blockedOn, sel := co.sel + 1, selected := blockedOn,
        inFlight := inFlightTo th, wokenBy := none }).leave t c ret)
    | .yieldNow => some ((s.setCo c { co with state := .yielding }).leave t c ret)
    | .spawn id =>
      match (grown th.coroutines).insertAt id s.coN with
      | some slab =>
        some ((({ s with coN := s.coN + 1, coroutinesNum := s.coroutinesNum + 1 }.setCo c
          { co with children := co.children ++ [s.coN] }).setCo s.coN (Coroutine.new id (some t))).setThread t
            { th with coroutines := slab })
      | none => none
    | .shutdown => some ({ s with shutdownCalled := true }.setPc t (.exec c ret (.shutdown 0)))
    | .finish res => some (s.finish cfg t c ret res)
  | _ => none

/-- `maybe_notify_receiver` in the context of coroutine `c`. -/
def notifyFrom (s : Instance S w α) (t : Nat) (pc : Pc α) : Notify Reg Nat → Instance S w α
  | .nothing => s.setPc t pc
  | .channelMsg l r =>
    if (s.threads l).isOpen then (s.setPc t pc).send l (.channelMsg r) else s.panic t .closedLoop
  | .unwrapNone => s.panic t .noSender

/-- `exit_sender`, its next step. -/
def exit (s : Instance S w α) (t c : Nat) (ret : Ret) (res : Option (ExitStatus α)) : Option (Instance S w α) :=
  match ((s.chans (.join c)).senders[0]? : Option (SenderPc w (ExitStatus α))) with
  | none => none
  | some .dropped => some (s.leave t c ret)
  | some pc =>
    match (s.chans (.join c)).senderStep 0 (exitAct res pc) with
    | none => none
    | some (chan, n) => some ((s.setChan (.join c) chan).notifyFrom t (.exec c ret (.exit none)) n)

/-- The broadcasts and the end of a coroutine. -/
def job (s : Instance S w α) (cfg : Config) (t c : Nat) (ret : Ret) : Job α → Option (Instance S w α)
  | .user => none
  | .shutdown i =>
    if i < cfg.threadNum ∧ (s.threads i).isOpen = true then
      some ((s.setPc t (.exec c ret (.shutdown (i + 1)))).send i .shutdown)
    else
      -- a closed event loop makes it panic
      some ({ s with inShutdown := Function.update s.inShutdown c (decide (cfg.threadNum ≤ i)) }.setPc t
        (.exec c ret .user))
  | .terminate i res =>
    if i < cfg.threadNum then
      if (s.threads i).isOpen then
        let s' := (s.setPc t (.exec c ret (.terminate (i + 1) res))).send i .terminate
        some (s'.setThread i { s'.threads i with terminates := (s'.threads i).terminates + 1 })
      else some (s.panic t .closedLoop)
    else some (s.setPc t (.exec c ret (cfg.report res)))
  | .propagate => some ((s.setPc t (.exec c ret (.exit none))).send t .propagatePanic)
  | .exit res => s.exit t c ret res

/-! ## The instance -/

def threadStep (s : Instance S w α) (cfg : Config) (t : Nat) (a : ThreadAct α) : Option (Instance S w α) :=
  let th := s.threads t
  match a with
  | .start =>
    if th.pc.isStarting = true ∧ (t = 0 ∨ (s.threads 0).pc.isStarting = false) then
      let r := S.spawnThread s.shared
      some (({ s with shared := r.2 }.setThread t { th with sched := r.1 }).callback t .tick none)
    else none
  | .tick => if th.pc.isPoll = true ∧ th.isShuttingDown = false then some (s.callback t .tick none) else none
  | .notify id => if th.pc.isPoll then s.notify t id else none
  | .ready =>
    match th.pc, th.batch with
    | .poll, (r, e) :: rest => some ((s.setThread t { th with batch := rest }).ready t r e)
    | _, _ => none
  | .timeout slot =>
    match th.pc, th.wheel slot with
    | .poll, some (_, r) =>
      some ((s.setThread t { th with wheel := Function.update th.wheel slot none }).ready t r EventSet.ofReadable)
    | _, _ => none
  | .stop => if th.pc.isPoll = true ∧ th.terminated = true then some (s.setPc t .stopping) else none
  | .sched choice => s.sched t choice
  | .register due slot tick => s.register t due slot tick
  | .user u => s.user cfg t u
  | .next =>
    match th.pc with
    | .deliverSpawned => some (s.deliverSpawned t)
    | .deliverReady noSpawned => some (s.deliverReady t noSpawned)
    | .exec c ret j => s.job cfg t c ret j
    | .register c [] hit next => some (s.registered t c hit next)
    | .deregister c next => some (s.deregister cfg t c next)
    | .resumed c k => some (s.afterResume t c k)
    | .shutdown i last => some (s.shutdownNext t i last)
    | .stopping => some (s.stopNext t)
    | _ => none

/-- A sender of a user channel, on whatever thread; a panic of `sender_retry` is its own. -/
def senderStep (s : Instance S w α) (n i : Nat) (a : SenderAct (ExitStatus α)) : Option (Instance S w α) :=
  match (s.chans (.user n)).senderStep i a with
  | none => none
  | some (chan, .channelMsg l r) =>
    let s' := s.setChan (.user n) chan
    some (if (s.threads l).isOpen then s'.send l (.channelMsg r) else s')
  | some (chan, _) => some (s.setChan (.user n) chan)

def receiverStep (s : Instance S w α) (ch : ChanId) (a : RecvAct) : Option (Instance S w α) :=
  let c := s.chans ch
  let took := Function.update s.taken ch (s.taken ch + 1)
  let received := Function.update s.received ch (s.received ch + 1)
  match a with
  | .tryRecv =>
    match c.tryRecv with
    | .ok _ => some { s.setChan ch c.popQueue with taken := took, received := received }
    | _ => none
  | .tryRecvFrom i =>
    match c.handOver i with
    | some c' => some { s.setChan ch c' with taken := took, received := received }
    | none => none
  | .fetchSub =>
    if 0 < s.taken ch then
      some { s.setChan ch c.fetchSub with taken := Function.update s.taken ch (s.taken ch - 1) }
    else none
  | .recvOutside =>
    match c.tryRecv with
    | .ok _ => some { s.setChan ch c.popQueue with received := received }
    | _ => none
  | .recvOutsideFrom i =>
    match c.handOverWaiting i with
    | some c' => some { s.setChan ch c' with received := received }
    | none => none
  | .dropReceiver => some (s.setChan ch c.dropReceiver)

/-- What the code in the context of a coroutine can do: a killed one that never ran only drops what its function has
captured, and `mioco::shutdown` yields until the coroutine is killed. -/
def permits (s : Instance S w α) (t : Nat) : ThreadAct α → Bool
  | .user u =>
    match (s.threads t).pc, u with
    | .exec _ _ .user, .yieldNow => true
    | .exec c _ .user, .finish (.ok _) =>
      decide (s.lastJump c ≠ some .killedAtStart) && (!s.inShutdown c || decide (s.lastJump c ≠ some .resume))
    | .exec c _ .user, _ => !s.inShutdown c || decide (s.lastJump c ≠ some .resume)
    | _, _ => true
  | _ => true

def step (cfg : Config) (s : Instance S w α) : Action α → Option (Instance S w α)
  | .thread t a => if t < cfg.threadNum ∧ s.permits t a = true then s.threadStep cfg t a else none
  | .sender n i a => s.senderStep n i a
  | .receiver ch a => s.receiverStep ch a
  | .ioReady t n e =>
    match (s.threads t).ios n with
    | some r =>
      if (s.threads t).pc.isPoll = true ∧ e.isNone = false then
        some (s.setThread t { s.threads t with batch := (s.threads t).batch ++ [(r, e)] })
      else none
    | none => none

end Instance

/-- Capacity of a new slab. -/
def slabCapacity : Nat := 512

/-- A `HandlerShared` and a `Handler` before their first `tick`. -/
def Thread.new (S : Sched) (α : Type) : Thread S α where
  coroutines := Slab.empty slabCapacity
  spawned := []
  ready := []
  sched := (S.spawnThread S.new).1
  held := []
  isShuttingDown := false
  inbox := []
  terminated := false
  isOpen := true
  ios _ := none
  wheel _ := none
  batch := []
  pc := .starting
  terminates := 0

/-- `Mioco::run` when `mioco_started` is set: the first coroutine is spawned on thread 0, and no thread has called
its scheduler. -/
def Instance.start (S : Sched) (w : Nat) {α : Type} (bound : Nat → Option Nat) : Instance S w α where
  threads := Function.update (fun _ => Thread.new S α) 0
    { Thread.new S α with
      coroutines := ⟨some 0 :: List.replicate (slabCapacity - 1) none⟩
      spawned := [Handle.new 0] }
  cos := Function.update (fun _ => Coroutine.new 0 none) 0 (Coroutine.new startingId (some 0))
  lastJump _ := none
  inShutdown _ := false
  coN := 1
  coroutinesNum := 1
  shared := S.new
  chans ch := match ch with | .user n => Chan.new (bound n) | .join _ => Chan.new none
  taken _ := 0
  srcs _ := ⟨0, RW.none⟩
  timeouts _ := none
  broadcasts := 0
  shutdownCalled := false
  received _ := 0

/-- The runs of one mioco instance, with `bound` the bounds of the user's channels. -/
def mioco (S : Sched) (w : Nat) (α : Type) (cfg : Config) (bound : Nat → Option Nat) :
    System (Instance S w α) (Action α) where
  Init s := s = Instance.start S w bound
  step := Instance.step cfg

end Mioco

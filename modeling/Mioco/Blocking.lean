import Mioco.Frame
/-!
# Blocking operations (src/evented.rs, src/tcp.rs, src/udp.rs, src/unix.rs, src/timer.rs, src/sync/mpsc.rs)

The code of a blocking operation runs from one switch-out to the next.  `Os` is what its non-blocking calls find at one
moment; it may be another each time the coroutine is resumed.  A wake-up is a self-wake of `register` or an event for
any token: `CoroutineSlabHandle::event` only looks at the coroutine's id in it.
-/
namespace Mioco

/-- What the non-blocking calls find at one moment: `io::Error` is `ε`, a message `α`, an accepted adapter `ν`, a
`SocketAddr` `ι`. -/
structure Os (ε α ν ι : Type) where
  tryRead : Except ε (Option Nat)
  tryWrite : Except ε (Option Nat)
  tryAccept : Except ε (Option ν)
  recvFrom : Except ε (Option (Nat × ι))
  sendTo : Except ε (Option Nat)
  tryReadRecvFd : Except ε (Option (Nat × Option Nat))
  tryWriteSendFd : Except ε (Option Nat)
  tryRecv : TryRecv α
  now : Nat
  /-- time that passes until the clock is read once more -/
  later : Nat
  /-- mio's `TcpStream::connect` -/
  connect : Except ε Unit
  /-- mio's `TcpStream::connect_stream` -/
  connectStream : Except ε Unit
  takeSocketError : Except ε Unit
  /-- the connecting socket is writable -/
  writable : Bool

/-- Where a stretch of code ends. -/
inductive Turn (ε β : Type)
  | blockOn (rw : RW)
  | ret (r : Except ε β)
deriving Repr

/-- `io::Error` or `RecvError`. -/
inductive OpError (ε : Type)
  | io (e : ε)
  | recv
deriving DecidableEq, Repr

/-- A blocking operation: its code up to the first switch-out, and after each resume. -/
structure Blocking (Ω ε β : Type) where
  first : Ω → Turn ε β
  again : Ω → Turn ε β
  /-- `register` of its source may return true -/
  selfWakes : Bool

section Operations
variable {Ω ε α ν ι β : Type}

/-- One pass through `loop { match res { .. } }`. -/
def retry (rw : RW) : Except ε (Option β) → Turn (OpError ε) β
  | .ok none => .blockOn rw
  | .ok (some r) => .ret (.ok r)
  | .error e => .ret (.error (.io e))

def Blocking.loop (pass : Ω → Turn ε β) (selfWakes : Bool) : Blocking Ω ε β := ⟨pass, pass, selfWakes⟩

namespace MioAdapter

def read : Blocking (Os ε α ν ι) (OpError ε) Nat := .loop (fun w => retry RW.ofRead w.tryRead) false

def write : Blocking (Os ε α ν ι) (OpError ε) Nat := .loop (fun w => retry RW.ofWrite w.tryWrite) false

def accept : Blocking (Os ε α ν ι) (OpError ε) ν := .loop (fun w => retry RW.ofRead w.tryAccept) false

end MioAdapter

namespace UdpSocket

def recv : Blocking (Os ε α ν ι) (OpError ε) (Nat × ι) := .loop (fun w => retry RW.ofRead w.recvFrom) false

def send : Blocking (Os ε α ν ι) (OpError ε) Nat := .loop (fun w => retry RW.ofWrite w.sendTo) false

end UdpSocket

namespace UnixStream

def readRecvFd : Blocking (Os ε α ν ι) (OpError ε) (Nat × Option Nat) :=
  .loop (fun w => retry RW.ofRead w.tryReadRecvFd) false

def writeSendFd : Blocking (Os ε α ν ι) (OpError ε) Nat := .loop (fun w => retry RW.ofWrite w.tryWriteSendFd) false

end UnixStream

/-- `Receiver::recv` in a coroutine. -/
def Receiver.recv : Blocking (Os ε α ν ι) (OpError ε) α :=
  .loop (fun w => match w.tryRecv with
    | .empty => .blockOn RW.ofRead
    | .disconnected => .ret (.error .recv)
    | .ok t => .ret (.ok t)) true

namespace Timer

def tryRead (timeout : Nat) (w : Os ε α ν ι) : Option Nat :=
  if timeout ≤ w.now then some (w.now + w.later) else none

def read (timeout : Nat) : Blocking (Os ε α ν ι) (OpError ε) Nat :=
  .loop (fun w => match tryRead timeout w with
    | some t => .ret (.ok t)
    | none => .blockOn RW.ofRead) true

end Timer

namespace TcpStream

/-- `connect` and `connect_stream`, with the mio call each makes. -/
def connectWith (call : Os ε α ν ι → Except ε Unit) : Blocking (Os ε α ν ι) (OpError ε) Unit where
  first w := match call w with
    | .ok () => .blockOn RW.ofWrite
    | .error e => .ret (.error (.io e))
  again w := match w.takeSocketError with
    | .error e => .ret (.error (.io e))
    | .ok () => .ret (.ok ())
  selfWakes := false

def connect : Blocking (Os ε α ν ι) (OpError ε) Unit := connectWith Os.connect

def connectStream : Blocking (Os ε α ν ι) (OpError ε) Unit := connectWith Os.connectStream

end TcpStream
end Operations

/-! ## The operations -/

inductive Op
  | read
  | write
  | accept
  | udpRecv
  | udpSend
  | readRecvFd
  | writeSendFd
  | recv
  | timerRead (timeout : Nat)
  | connect
  | connectStream
deriving DecidableEq, Repr

namespace Op
variable {ε α ν ι : Type}

/-- What it returns on success. -/
def Ret (α ν ι : Type) : Op → Type
  | read | write | udpSend | writeSendFd | timerRead _ => Nat
  | accept => ν
  | udpRecv => Nat × ι
  | readRecvFd => Nat × Option Nat
  | recv => α
  | connect | connectStream => Unit

def code : (op : Op) → Blocking (Os ε α ν ι) (OpError ε) (op.Ret α ν ι)
  | read => MioAdapter.read
  | write => MioAdapter.write
  | accept => MioAdapter.accept
  | udpRecv => UdpSocket.recv
  | udpSend => UdpSocket.send
  | readRecvFd => UnixStream.readRecvFd
  | writeSendFd => UnixStream.writeSendFd
  | recv => Receiver.recv
  | timerRead timeout => Timer.read timeout
  | connect => TcpStream.connect
  | connectStream => TcpStream.connectStream

/-- The condition under an operation: at this moment it holds, and it is what the operation returns. -/
def Observed : (op : Op) → Os ε α ν ι → op.Ret α ν ι → Prop
  | read, w, n => w.tryRead = .ok (some n)
  | write, w, n => w.tryWrite = .ok (some n)
  | accept, w, conn => w.tryAccept = .ok (some conn)
  | udpRecv, w, r => w.recvFrom = .ok (some r)
  | udpSend, w, n => w.sendTo = .ok (some n)
  | readRecvFd, w, r => w.tryReadRecvFd = .ok (some r)
  | writeSendFd, w, n => w.tryWriteSendFd = .ok (some n)
  | recv, w, t => w.tryRecv = .ok t
  | timerRead timeout, w, t => timeout ≤ w.now ∧ w.now ≤ (t : Nat)
  | connect, w, _ | connectStream, w, _ => w.writable = true

/-- The mio call that starts a connection. -/
def issues : Op → Option (Os ε α ν ι → Except ε Unit)
  | connect => some Os.connect
  | connectStream => some Os.connectStream
  | _ => none

end Op

/-! ## Runs of one operation -/

/-- What may resume a blocked coroutine. -/
inductive WakeUp
  | event (token : Nat) (events : EventSet)
  | selfWake
deriving DecidableEq, Repr

/-- A blocked coroutine with this id is resumed by it. -/
def WakeUp.resumes (id : Nat) (selfWakes : Bool) : WakeUp → Bool
  | .event token events => decide ((tokenToIds token).1 = id) && events.rw.isSome
  | .selfWake => selfWakes

inductive Outcome (Ω ε β : Type)
  | blocked (rw : RW)
  /-- it returned what it found at the moment `w` -/
  | returned (w : Ω) (r : Except ε β)

namespace Blocking
variable {Ω ε β : Type} (op : Blocking Ω ε β) (id : Nat)

/-- The coroutine has switched out; each wake-up comes with what the code finds if it is resumed. -/
def parked (rw : RW) : List (WakeUp × Ω) → Outcome Ω ε β
  | [] => .blocked rw
  | (k, w) :: rest =>
    if k.resumes id op.selfWakes then
      match op.again w with
      | .blockOn rw' => parked rw' rest
      | .ret r => .returned w r
    else parked rw rest

def run (w : Ω) (wakes : List (WakeUp × Ω)) : Outcome Ω ε β :=
  match op.first w with
  | .blockOn rw => op.parked id rw wakes
  | .ret r => .returned w r

/-- What the code finds when it is resumed for the first time. -/
def firstResume (wakes : List (WakeUp × Ω)) : Option Ω :=
  (wakes.find? (fun k => k.1.resumes id op.selfWakes)).map Prod.snd

variable {op : Blocking Ω ε β} {id : Nat} {P : Ω → β → Prop}

theorem parked_ok (hP : ∀ w v, op.again w = .ret (.ok v) → P w v) {rw : RW} {wakes : List (WakeUp × Ω)} {w : Ω}
    {v : β} (h : op.parked id rw wakes = .returned w (.ok v)) : P w v := by
  induction wakes generalizing rw with
  | nil => cases h
  | cons k rest ih =>
    obtain ⟨k, w₁⟩ := k
    rw [parked] at h
    split at h
    · split at h
      · exact ih h
      · rename_i hret
        cases h
        exact hP _ _ hret
    · exact ih h

/-- **An operation that looks again after every resume** returns what it looked for. -/
theorem loop_run_ok {pass : Ω → Turn ε β} {b : Bool} (hP : ∀ w v, pass w = .ret (.ok v) → P w v) {w₀ w : Ω}
    {wakes : List (WakeUp × Ω)} {v : β} (h : (loop pass b).run id w₀ wakes = .returned w (.ok v)) : P w v := by
  rw [run] at h
  split at h
  · exact parked_ok hP h
  · rename_i hret
    cases h
    exact hP _ _ hret

end Blocking

theorem retry_ok {ε β : Type} {rw : RW} {res : Except ε (Option β)} {v : β}
    (h : retry rw res = .ret (.ok v)) : res = .ok (some v) := by
  unfold retry at h
  split at h <;> cases h
  rfl

namespace TcpStream
variable {ε α ν ι : Type} {call : Os ε α ν ι → Except ε Unit} {id : Nat}

/-- After its one `block_on` a connect returns, whatever it was resumed for. -/
theorem connectWith_parked (rw : RW) (wakes : List (WakeUp × Os ε α ν ι)) (w : Os ε α ν ι) :
    (connectWith call).parked id rw wakes = .returned w (.ok ()) ↔
      (connectWith call).firstResume id wakes = some w ∧ w.takeSocketError = .ok () := by
  induction wakes with
  | nil => simp [Blocking.parked, Blocking.firstResume]
  | cons k rest ih =>
    obtain ⟨k, w₁⟩ := k
    by_cases hk : k.resumes id (connectWith call).selfWakes = true
    · have hf : (connectWith call).firstResume id ((k, w₁) :: rest) = some w₁ := by
        simp [Blocking.firstResume, hk]
      rw [hf, Blocking.parked, if_pos hk]
      cases he : w₁.takeSocketError with
      | ok u =>
        simp only [connectWith, he, Outcome.returned.injEq, Option.some.injEq, and_true]
        constructor
        · rintro rfl
          exact ⟨rfl, he⟩
        · exact fun h => h.1
      | error e =>
        simp only [connectWith, he, Outcome.returned.injEq, reduceCtorEq, and_false, Option.some.injEq, false_iff]
        rintro ⟨rfl, h⟩
        rw [he] at h
        cases h
    · have hf : (connectWith call).firstResume id ((k, w₁) :: rest) = (connectWith call).firstResume id rest := by
        simp [Blocking.firstResume, hk]
      rw [hf, Blocking.parked, if_neg hk, ih]

theorem connectWith_run (w₀ w : Os ε α ν ι) (wakes : List (WakeUp × Os ε α ν ι)) :
    (connectWith call).run id w₀ wakes = .returned w (.ok ()) ↔
      call w₀ = .ok () ∧ (connectWith call).firstResume id wakes = some w ∧ w.takeSocketError = .ok () := by
  cases hc : call w₀ with
  | ok u =>
    have h1 : (connectWith call).first w₀ = .blockOn RW.ofWrite := by simp [connectWith, hc]
    rw [Blocking.run, h1]
    simpa using connectWith_parked RW.ofWrite wakes w
  | error e =>
    have h1 : (connectWith call).first w₀ = .ret (.error (.io e)) := by simp [connectWith, hc]
    rw [Blocking.run, h1]
    simp

end TcpStream

/-- A connection that was started finds its socket writable, or failed, when it is resumed for the first time. -/
def Op.ResumedInTime {ε α ν ι : Type} (op : Op) (id : Nat) (w₀ : Os ε α ν ι) (wakes : List (WakeUp × Os ε α ν ι)) :
    Prop :=
  ∀ call, op.issues = some call → call w₀ = .ok () → ∀ w, op.code.firstResume id wakes = some w →
    w.takeSocketError = .ok () → w.writable = true

theorem connect_observed {ε α ν ι : Type} {call : Os ε α ν ι → Except ε Unit} {id : Nat} (w₀ : Os ε α ν ι)
    (wakes : List (WakeUp × Os ε α ν ι)) :
    (∀ w v, (TcpStream.connectWith call).run id w₀ wakes = .returned w (.ok v) → w.writable = true) ↔
      (call w₀ = .ok () → ∀ w, (TcpStream.connectWith call).firstResume id wakes = some w →
        w.takeSocketError = .ok () → w.writable = true) := by
  constructor
  · intro h hc w hw he
    exact h w () ((TcpStream.connectWith_run w₀ w wakes).2 ⟨hc, hw, he⟩)
  · intro h w v hret
    obtain ⟨hc, hw, he⟩ := (TcpStream.connectWith_run w₀ w wakes).1 hret
    exact h hc w hw he

/-- Every other operation looks again after each resume. -/
theorem Op.observed_of_loop {ε α ν ι : Type} {op : Op} {id : Nat} {w₀ w : Os ε α ν ι}
    {wakes : List (WakeUp × Os ε α ν ι)} {v : op.Ret α ν ι}
    (hop : (op.issues : Option (Os ε α ν ι → Except ε Unit)) = none)
    (h : op.code.run id w₀ wakes = .returned w (.ok v)) : op.Observed w v := by
  cases op with
  | connect => cases hop
  | connectStream => cases hop
  | recv =>
    refine Blocking.loop_run_ok (fun w v hv => ?_) h
    split at hv <;> cases hv
    assumption
  | timerRead timeout =>
    refine Blocking.loop_run_ok (fun w v hv => ?_) h
    simp only [Timer.tryRead] at hv
    by_cases ht : timeout ≤ w.now
    · rw [if_pos ht] at hv
      cases hv
      exact ⟨ht, Nat.le_add_right _ _⟩
    · rw [if_neg ht] at hv
      cases hv
  | _ => exact Blocking.loop_run_ok (fun _ _ => retry_ok) h

/-- **When a blocking operation succeeds only on what it saw**: under every sequence of wake-ups it returns success at
a moment at which its condition holds, unless it is a `connect` or `connect_stream` resumed too early. -/
theorem success_observed {ε α ν ι : Type} (op : Op) (id : Nat) (w₀ : Os ε α ν ι)
    (wakes : List (WakeUp × Os ε α ν ι)) :
    (∀ w v, op.code.run id w₀ wakes = .returned w (.ok v) → op.Observed w v) ↔ op.ResumedInTime id w₀ wakes := by
  cases hop : (op.issues : Option (Os ε α ν ι → Except ε Unit)) with
  | none =>
    refine ⟨fun _ call hc => ?_, fun _ w v h => op.observed_of_loop hop h⟩
    rw [hop] at hc
    cases hc
  | some call =>
    have hin : op.ResumedInTime id w₀ wakes ↔ (call w₀ = .ok () → ∀ w, op.code.firstResume id wakes = some w →
        w.takeSocketError = .ok () → w.writable = true) := by
      simp [Op.ResumedInTime, hop]
    rw [hin]
    cases op with
    | connect =>
      cases hop
      exact connect_observed w₀ wakes
    | connectStream =>
      cases hop
      exact connect_observed w₀ wakes
    | _ => cases hop

/-- A connection is pending when a stale event of its coroutine's id arrives. -/
def pendingConnect : Os Unit Unit Unit Unit where
  tryRead := .ok none
  tryWrite := .ok none
  tryAccept := .ok none
  recvFrom := .ok none
  sendTo := .ok none
  tryReadRecvFd := .ok none
  tryWriteSendFd := .ok none
  tryRecv := .empty
  now := 0
  later := 0
  connect := .ok ()
  connectStream := .ok ()
  takeSocketError := .ok ()
  writable := false

/-- `connect` reports a connection that does not exist. -/
theorem connect_unobserved :
    Op.connect.code.run 1 pendingConnect [(.event (tokenFromIds 1 5) EventSet.ofReadable, pendingConnect)] =
      .returned pendingConnect (.ok ()) ∧ ¬ Op.connect.Observed pendingConnect () := by
  refine ⟨?_, by simp [Op.Observed, pendingConnect]⟩
  exact (TcpStream.connectWith_run _ _ _).2 ⟨rfl, rfl, rfl⟩

/-! ## Wake-ups of an instance -/

namespace Instance
variable {S : Sched} {w : Nat} {α : Type} {s : Instance S w α} {t c id : Nat}

/-- **`Handler::ready` resumes a blocked coroutine for every token with its id**, of whichever registration. -/
theorem ready_resumes (r : Reg) (e : EventSet) (hget : (s.threads t).coroutines.get id = some c)
    (hone : ∀ id', (s.threads t).coroutines.get id' = some c → id' = id) (hb : (s.cos c).state = .blocked) :
    ((s.ready t r e).cos c).state = .ready ↔ (WakeUp.event r.token e).resumes id false = true := by
  have hnb : (s.cos c).state ≠ .ready := by
    rw [hb]
    decide
  simp only [WakeUp.resumes, Bool.and_eq_true, decide_eq_true_eq]
  unfold ready
  split
  · rename_i hnone
    refine ⟨fun h => (hnb h).elim, fun h => ?_⟩
    rw [h.1, hget] at hnone
    cases hnone
  · rename_i c' hsome
    by_cases hc : c' = c
    · subst hc
      rw [if_pos hb]
      cases he : e.rw with
      | none => exact ⟨fun h => (hnb h).elim, fun h => (by cases h.2)⟩
      | some rw => simpa using hone _ hsome
    · have hid : (tokenToIds r.token).1 ≠ id := by
        intro h
        rw [h, hget] at hsome
        exact hc (Option.some.inj hsome).symm
      refine ⟨fun h => ?_, fun h => (hid h.1).elim⟩
      split at h
      · split at h
        · exact (hnb h).elim
        · rw [setPc_cos, setCo_ne _ _ (Ne.symm hc)] at h
          exact (hnb h).elim
      · exact (hnb h).elim

end Instance
end Mioco

import Mioco.ChannelWake
/-!
# `offload` (src/mod.rs)

The coroutine keeps both ends of its completion channel; a call clones the sender for its worker thread and waits in
`recv`.  A run is a sequence of calls, each with its worker, over the steps of the channel.  The notification, `()` in
the source, carries the number of its call here.
-/
namespace Mioco

open Lib (System)
open Lib.System (Reach anyStep)

/-- Where the coroutine is in `offload`. -/
inductive Caller
  /-- not in `offload`; whether the last call unwound -/
  | outside (unwound : Bool)
  /-- in `Receiver::recv`: `try_recv` is next -/
  | tryRecv
  /-- `try_recv` got a message, `counter.fetch_sub` is next -/
  | fetchSub
  /-- `try_recv` found nothing, `block_on` is next -/
  | block
  /-- in `block_on` -/
  | blocked
  /-- `rx.recv().unwrap()` panicked -/
  | failed
  /-- `join.join()` -/
  | join
deriving DecidableEq, Repr

/-- In `recv`, without its message. -/
def Caller.waits : Caller → Bool
  | tryRecv | block | blocked => true
  | _ => false

/-- What the caller's place says about the receiver. -/
def Caller.Fits : Caller → RecvPc → Prop
  | outside _, r | tryRecv, r | block, r | join, r => ∃ woken, r = .running woken
  | fetchSub, r => r = .took
  | blocked, r => r = .blocking ∨ r = .parked ∨ (∃ cause, r = .leaving cause) ∨ ∃ woken, r = .running woken
  | failed, _ => False

theorem Caller.fits_blocked {c : Caller} {r : RecvPc} (h : c.Fits r) (hr : ∀ woken, r ≠ .running woken)
    (ht : r ≠ .took) : c = .blocked := by
  cases c with
  | blocked => rfl
  | fetchSub => exact absurd h ht
  | failed => exact h.elim
  | outside | tryRecv | block | join =>
    obtain ⟨woken, h⟩ := h
    exact absurd h (hr woken)

/-- Where the worker thread of the current call is. -/
inductive Worker
  /-- there was no call yet -/
  | none
  /-- in the closure -/
  | closure
  /-- in `sender.send(())` -/
  | send
  /-- its sender is dropped; whether it unwinds -/
  | drop (unwinds : Bool)
  | done (unwound : Bool)
deriving DecidableEq, Repr

structure Offload (w : Nat) where
  run : ChanRun w Nat
  /-- calls so far -/
  calls : Nat
  caller : Caller
  worker : Worker
  /-- the worker's sender -/
  clone : Nat
deriving DecidableEq, Repr

inductive OffloadAct
  | call
  /-- the closure returns or panics -/
  | closure (panics : Bool)
  /-- the next step of the worker -/
  | worker
  /-- the next step of the caller -/
  | caller
  /-- a step of the event loop with the receiver -/
  | loop (a : ChanAct Nat)
deriving DecidableEq, Repr

/-- The event loop registers, wakes and deregisters. -/
def ChanAct.isLoop {α : Type} : ChanAct α → Bool
  | .register _ _ | .otherWake | .deregister | .deliver _ => true
  | _ => false

/-- In the drop of a sender, the drop of std's left. -/
def SenderPc.afterDrop {w : Nat} {α : Type} : SenderPc w α → Bool
  | released | dropAdded _ | closing => true
  | _ => false

/-- The next step of a worker in `send`, or in the drop of its sender. -/
def SenderPc.nextAct {w : Nat} {α : Type} : SenderPc w α → SenderAct α
  | idle => .drop
  | sending _ _ => .stdSend
  | sent => .fetchAdd
  | added _ => .notify
  | released => .dropFetchAdd
  | dropAdded _ => .dropNotify
  | closing | dropped => .dropStd

/-- The worker after a step that took its sender from `pc` to `pc'`. -/
def Worker.after {w : Nat} {α : Type} (pc pc' : SenderPc w α) : Worker → Worker
  | send =>
    match pc, pc' with
    -- `send` returned `Err`, and `unwrap` panics
    | .sending _ _, .idle => drop true
    | .added _, .idle => drop false
    | _, _ => send
  | drop unwinds =>
    match pc' with
    | .dropped => done unwinds
    | _ => drop unwinds
  | wk => wk

namespace Offload
variable {w : Nat}

def call (s : Offload w) : Option (Offload w) :=
  match s.caller, s.run.step (.sender 0 .clone) with
  | .outside _, some run =>
    some { s with run, calls := s.calls + 1, caller := .tryRecv, worker := .closure, clone := s.run.chan.senders.length }
  | _, _ => none

def closure (s : Offload w) (panics : Bool) : Option (Offload w) :=
  match s.worker with
  | .closure =>
    if panics then some { s with worker := .drop true }
    else
      match s.run.step (.sender s.clone (.send s.calls false)) with
      | some run => some { s with run, worker := .send }
      | none => none
  | _ => none

def workerStep (s : Offload w) : Option (Offload w) :=
  match s.worker, s.run.chan.senders[s.clone]? with
  | .send, some pc | .drop _, some pc =>
    match s.run.step (.sender s.clone pc.nextAct) with
    | some run => some { s with
        run, worker := match run.chan.senders[s.clone]? with | some pc' => s.worker.after pc pc' | none => s.worker }
    | none => none
  | _, _ => none

def callerStep (s : Offload w) : Option (Offload w) :=
  match s.caller with
  | .tryRecv =>
    match s.run.step .tryRecv with
    | some run => some { s with
        run, caller := match s.run.chan.tryRecv with | .ok _ => .fetchSub | .empty => .block | .disconnected => .failed }
    | none => none
  | .fetchSub =>
    match s.run.step .fetchSub with
    | some run => some { s with run, caller := .join }
    | none => none
  | .block =>
    match s.run.step .block with
    | some run => some { s with run, caller := .blocked }
    | none => none
  | .blocked =>
    match s.run.recv with
    | .running _ => some { s with caller := .tryRecv }
    | _ => none
  | .join =>
    match s.worker with
    | .done unwound => some { s with caller := .outside unwound }
    | _ => none
  | _ => none

def step (s : Offload w) : OffloadAct → Option (Offload w)
  | .call => s.call
  | .closure panics => s.closure panics
  | .worker => s.workerStep
  | .caller => s.callerStep
  | .loop a =>
    if a.isLoop then
      match s.run.step a with
      | some run => some { s with run }
      | none => none
    else none

/-- Before the first call. -/
def start : Offload w where
  run := ChanRun.start none
  calls := 0
  caller := .outside false
  worker := .none
  clone := 0

end Offload

/-- The calls of `offload` in one coroutine. -/
def offloadSystem (w : Nat) : System (Offload w) OffloadAct where
  Init s := s = Offload.start
  step := Offload.step

/-- Every closure returns. -/
def closureReturns {w : Nat} (_ : Offload w) (a : OffloadAct) : Prop := a ≠ .closure true

instance {w : Nat} (s : Offload w) (a : OffloadAct) : Decidable (closureReturns s a) :=
  inferInstanceAs (Decidable (a ≠ .closure true))

namespace Offload
variable {w : Nat} {s s' : Offload w}

/-- **Every step is at most one step of the channel**, inside coroutines. -/
theorem step_run {a : OffloadAct} (h : s.step a = some s') :
    s'.run = s.run ∨ ∃ a', a'.isStdRecv = false ∧ s.run.step a' = some s'.run := by
  cases a with
  | call =>
    simp only [step, call] at h
    split at h
    · rename_i run _ hr
      cases h
      exact .inr ⟨_, rfl, hr⟩
    · cases h
  | closure panics =>
    simp only [step, closure] at h
    split at h
    · split at h
      · cases h
        exact .inl rfl
      · split at h
        · rename_i run hr
          cases h
          exact .inr ⟨_, rfl, hr⟩
        · cases h
    · cases h
  | worker =>
    simp only [step, workerStep] at h
    split at h
    · split at h
      · rename_i run hr
        cases h
        exact .inr ⟨_, rfl, hr⟩
      · cases h
    · split at h
      · rename_i run hr
        cases h
        exact .inr ⟨_, rfl, hr⟩
      · cases h
    · cases h
  | caller =>
    simp only [step, callerStep] at h
    split at h
    · split at h
      · rename_i run hr
        cases h
        exact .inr ⟨_, rfl, hr⟩
      · cases h
    · split at h
      · rename_i run hr
        cases h
        exact .inr ⟨_, rfl, hr⟩
      · cases h
    · split at h
      · rename_i run hr
        cases h
        exact .inr ⟨_, rfl, hr⟩
      · cases h
    · split at h
      · cases h
        exact .inl rfl
      · cases h
    · split at h
      · cases h
        exact .inl rfl
      · cases h
    · cases h
  | loop a =>
    simp only [step] at h
    split at h
    · rename_i ha
      split at h
      · rename_i run hr
        cases h
        refine .inr ⟨a, ?_, hr⟩
        cases a <;> first | rfl | cases ha
      · cases h
    · cases h

/-- What is known of the runs of a channel holds of the completion channel. -/
theorem reach_run {ok : Offload w → OffloadAct → Prop} (h : Reach (offloadSystem w) ok s) :
    Reach (chanSystem w Nat none) insideOnly s.run := by
  refine h.map Offload.run (fun s h0 => ?_) (fun s a s' _ _ hst => step_run hst)
  cases h0
  constructor

/-! ## Where the notification of a call is -/

/-- The notification of the current call was not sent. -/
def Unsent (s : Offload w) : Prop := s.run.chan.queue = [] ∧ s.caller.waits = true

/-- It was sent: it is queued, or the caller got it. -/
def Sent (s : Offload w) : Prop :=
  s.run.chan.queue = [s.calls] ∧ s.caller.waits = true ∨ s.run.chan.queue = [] ∧ (s.caller = .fetchSub ∨ s.caller = .join)

def Returned (s : Offload w) : Prop := s.run.chan.queue = [] ∧ ∃ b, s.caller = .outside b

/-- The sender of the worker. -/
def pc (s : Offload w) : Option (SenderPc w Nat) := s.run.chan.senders[s.clone]?

/-- What the worker's place says about its notification. -/
def Stage (s : Offload w) : Worker → Prop
  | .none => s.Returned
  | .closure => s.pc = some .idle ∧ s.Unsent
  | .send => s.pc = some (.sending s.calls false) ∧ s.Unsent ∨
      (s.pc = some .sent ∨ ∃ prev, s.pc = some (.added prev)) ∧ s.Sent
  | .drop unwinds => (∃ pc, s.pc = some pc ∧ (pc = .idle ∨ pc.afterDrop = true)) ∧ if unwinds then s.Unsent else s.Sent
  | .done unwound => s.pc = some .dropped ∧ if unwound then s.Unsent else s.Sent ∨ s.Returned

/-- **The pairing of calls and notifications.** -/
structure Paired (s : Offload w) : Prop where
  alive : s.run.chan.receiver = true
  own : s.run.chan.senders[0]? = some .idle
  others : ∀ i pc, s.run.chan.senders[i]? = some pc → i = 0 ∨ i = s.clone ∨ pc = .dropped
  clone : s.worker = .none ↔ s.clone = 0
  caller : s.caller.Fits s.run.recv
  stage : s.Stage s.worker

theorem Unsent.inside (h : s.Unsent) (b : Bool) : s.caller ≠ .outside b := by
  intro hc
  rw [Unsent, hc] at h
  cases h.2

theorem Sent.inside (h : s.Sent) (b : Bool) : s.caller ≠ .outside b := by
  intro hc
  rw [Sent, hc] at h
  rcases h with ⟨-, h⟩ | ⟨-, h | h⟩ <;> cases h

/-- The caller moves: what the worker's place says stays true where it does of the notification. -/
theorem Stage.map {wk : Worker} (h : s.Stage wk) (hpc : s'.pc = s.pc) (hcalls : s'.calls = s.calls)
    (hun : s.Unsent → s'.Unsent) (hsent : s.Sent → s'.Sent) (hret : s.Returned → s'.Returned) : s'.Stage wk := by
  cases wk with
  | none => exact hret h
  | closure => exact ⟨hpc.trans h.1, hun h.2⟩
  | send =>
    refine h.imp (fun h => ⟨?_, hun h.2⟩) (fun h => ⟨?_, hsent h.2⟩)
    · rw [hpc, hcalls]
      exact h.1
    · rw [hpc]
      exact h.1
  | drop u =>
    refine ⟨by rw [hpc]; exact h.1, ?_⟩
    cases u with
    | true => exact hun h.2
    | false => exact hsent h.2
  | done u =>
    refine ⟨hpc.trans h.1, ?_⟩
    cases u with
    | true => exact hun h.2
    | false => exact h.2.imp hsent hret

theorem Stage.place {wk : Worker} (h : s.Stage wk) : s.Unsent ∨ s.Sent ∨ s.Returned := by
  cases wk with
  | none => exact .inr (.inr h)
  | closure => exact .inl h.2
  | send => exact h.imp And.right (fun h => .inl h.2)
  | drop u =>
    cases u with
    | true => exact .inl h.2
    | false => exact .inr (.inl h.2)
  | done u =>
    cases u with
    | true => exact .inl h.2
    | false => exact .inr h.2

/-- The caller goes round in `recv`. -/
theorem Stage.round {wk : Worker} (h : s.Stage wk) {run : ChanRun w Nat} {caller : Caller}
    (hs : run.chan.senders = s.run.chan.senders) (hq : run.chan.queue = s.run.chan.queue) (hc : s.caller.waits = true)
    (hc' : caller.waits = true) : Stage { s with run := run, caller := caller } wk := by
  refine h.map (congrArg (fun l => l[s.clone]?) hs) rfl (fun h => ⟨hq.trans h.1, hc'⟩) (fun h => ?_) (fun h => ?_)
  · rcases h with ⟨h1, -⟩ | ⟨-, h | h⟩
    · exact .inl ⟨hq.trans h1, hc'⟩
    · rw [h] at hc
      cases hc
    · rw [h] at hc
      cases hc
  · obtain ⟨-, b, hb⟩ := h
    rw [hb] at hc
    cases hc

section post
variable {c : Chan w Nat Stamped Nat} {n : Notify Stamped Nat} {wk : Worker}

theorem pc_post : pc { s with run := s.run.post c n, worker := wk } = c.senders[s.clone]? := by
  show (s.run.post c n).chan.senders[s.clone]? = _
  rw [ChanRun.post_chan]

theorem Unsent.post (h : s.Unsent) (hq : c.queue = s.run.chan.queue) :
    Unsent { s with run := s.run.post c n, worker := wk } := by
  refine ⟨?_, h.2⟩
  show (s.run.post c n).chan.queue = []
  rw [ChanRun.post_chan, hq]
  exact h.1

theorem Sent.post (h : s.Sent) (hq : c.queue = s.run.chan.queue) :
    Sent { s with run := s.run.post c n, worker := wk } := by
  have he : (s.run.post c n).chan.queue = s.run.chan.queue := by rw [ChanRun.post_chan, hq]
  rcases h with ⟨h1, h2⟩ | ⟨h1, h2⟩
  · exact .inl ⟨he.trans h1, h2⟩
  · exact .inr ⟨he.trans h1, h2⟩

end post

namespace Paired

theorem start : Paired (Offload.start : Offload w) where
  alive := rfl
  own := rfl
  others i pc h := by
    cases i with
    | zero => exact .inl rfl
    | succ i => cases h
  clone := ⟨fun _ => rfl, fun _ => rfl⟩
  caller := ⟨_, rfl⟩
  stage := ⟨rfl, _, rfl⟩

/-- Between calls nothing is queued, and every clone is gone. -/
theorem between (h : Paired s) {b : Bool} (hc : s.caller = .outside b) :
    s.run.chan.queue = [] ∧ ∀ i pc, s.run.chan.senders[i]? = some pc → i = 0 ∨ pc = .dropped := by
  have hstage := h.stage
  cases hw : s.worker with
  | none =>
    rw [hw] at hstage
    refine ⟨hstage.1, fun i pc hi => ?_⟩
    rcases h.others i pc hi with h0 | h0 | h0
    · exact .inl h0
    · exact .inl (h0.trans (h.clone.1 hw))
    · exact .inr h0
  | closure =>
    rw [hw] at hstage
    exact absurd hc (hstage.2.inside b)
  | send =>
    rw [hw] at hstage
    rcases hstage with ⟨-, h⟩ | ⟨-, h⟩
    · exact absurd hc (h.inside b)
    · exact absurd hc (h.inside b)
  | drop unwinds =>
    rw [hw] at hstage
    cases unwinds with
    | true => exact absurd hc (hstage.2.inside b)
    | false => exact absurd hc (hstage.2.inside b)
  | done unwound =>
    rw [hw] at hstage
    obtain ⟨hpc, hstage⟩ := hstage
    have hq : s.run.chan.queue = [] := by
      cases unwound with
      | true => exact absurd hc (hstage.inside b)
      | false =>
        rcases hstage with h | h
        · exact absurd hc (h.inside b)
        · exact h.1
    refine ⟨hq, fun i pc hi => ?_⟩
    rcases h.others i pc hi with h0 | h0 | h0
    · exact .inl h0
    · subst h0
      exact .inr (Option.some.inj (hi.symm.trans hpc))
    · exact .inr h0

theorem call (h : Paired s) (hst : s.call = some s') : Paired s' := by
  simp only [Offload.call] at hst
  split at hst
  · rename_i b run hc hr
    cases hst
    simp only [ChanRun.step, Chan.senderStep, h.own, Option.some.injEq] at hr
    subst hr
    have hlen : 0 < s.run.chan.senders.length := (List.getElem?_eq_some_iff.1 h.own).1
    obtain ⟨hq, hgone⟩ := h.between hc
    refine ⟨h.alive, ?_, fun i pc hi => ?_, ⟨fun hw => (by cases hw), fun h0 => ?_⟩, ?_, ?_, hq, rfl⟩
    · show (s.run.chan.senders ++ [SenderPc.idle])[0]? = _
      rw [List.getElem?_append_left hlen]
      exact h.own
    · have hi' : (s.run.chan.senders ++ [SenderPc.idle])[i]? = some pc := hi
      by_cases hlt : i < s.run.chan.senders.length
      · rw [List.getElem?_append_left hlt] at hi'
        exact (hgone i pc hi').imp id .inr
      · have := (List.getElem?_eq_some_iff.1 hi').1
        rw [List.length_append, List.length_singleton] at this
        exact .inr (.inl (by show i = s.run.chan.senders.length; omega))
    · exact absurd h0 (Nat.ne_of_gt hlen)
    · have := h.caller
      rw [hc] at this
      exact this
    · show (s.run.chan.senders ++ [SenderPc.idle])[s.run.chan.senders.length]? = _
      simp
  · cases hst

/-- The worker's sender moves. -/
theorem set (h : Paired s) (pc' : SenderPc w Nat) {c : Chan w Nat Stamped Nat} {n : Notify Stamped Nat} {wk : Worker}
    (hw : s.worker ≠ .none) (hs : c.senders = s.run.chan.senders.set s.clone pc')
    (halive : c.receiver = s.run.chan.receiver) (hwk : wk ≠ .none)
    (hstage : Stage { s with run := s.run.post c n, worker := wk } wk) :
    Paired { s with run := s.run.post c n, worker := wk } where
  alive := by
    show (s.run.post c n).chan.receiver = true
    rw [ChanRun.post_chan, halive]
    exact h.alive
  own := by
    show (s.run.post c n).chan.senders[0]? = _
    rw [ChanRun.post_chan, hs, List.getElem?_set_ne (fun h0 => hw (h.clone.2 h0))]
    exact h.own
  others i pc hi := by
    have hi' : (s.run.post c n).chan.senders[i]? = some pc := hi
    by_cases hic : i = s.clone
    · exact .inr (.inl hic)
    · rw [ChanRun.post_chan, hs, List.getElem?_set_ne (Ne.symm hic)] at hi'
      exact h.others i pc hi'
  clone := ⟨fun h0 => absurd h0 hwk, fun h0 => absurd (h.clone.2 h0) hw⟩
  caller := by
    show s.caller.Fits (s.run.post c n).recv
    rw [(ChanRun.post_recv s.run c n).1]
    exact h.caller
  stage := hstage

theorem closure (h : Paired s) {panics : Bool} (hst : s.closure panics = some s') : Paired s' := by
  simp only [Offload.closure] at hst
  split at hst
  · rename_i hw
    have hstage := h.stage
    rw [hw] at hstage
    obtain ⟨hpc, hun⟩ := hstage
    split at hst
    · cases hst
      refine ⟨h.alive, h.own, h.others, ⟨fun h0 => (by cases h0), fun h0 => ?_⟩, h.caller, ⟨_, hpc, .inl rfl⟩, hun⟩
      have := h.clone.2 h0
      rw [hw] at this
      cases this
    · split at hst
      · rename_i run hr
        cases hst
        have hpc' : s.run.chan.senders[s.clone]? = some .idle := hpc
        simp only [ChanRun.step, Chan.senderStep, hpc', Option.some.injEq] at hr
        subst hr
        refine h.set (.sending s.calls false) (by rw [hw]; simp) rfl rfl (by simp) (.inl ⟨?_, hun⟩)
        exact List.getElem?_set_self (List.getElem?_eq_some_iff.1 hpc').1
      · cases hst
  · cases hst

end Paired

/-- The step of a worker whose sender goes from `pc` to `pc'`. -/
theorem workerStep_eq {pc pc' : SenderPc w Nat} {c : Chan w Nat Stamped Nat} {n : Notify Stamped Nat}
    (hw : s.worker = .send ∨ ∃ u, s.worker = .drop u) (hpc : s.pc = some pc)
    (hstep : s.run.chan.senderStep s.clone pc.nextAct = some (c, n))
    (hs : c.senders = s.run.chan.senders.set s.clone pc') :
    s.workerStep = some { s with run := s.run.post c n, worker := s.worker.after pc pc' } := by
  have hpc₀ : s.run.chan.senders[s.clone]? = some pc := hpc
  have hpc' : (s.run.post c n).chan.senders[s.clone]? = some pc' := by
    rw [ChanRun.post_chan, hs]
    exact List.getElem?_set_self (List.getElem?_eq_some_iff.1 hpc₀).1
  have hrun : s.run.step (.sender s.clone pc.nextAct) = some (s.run.post c n) := by
    simp only [ChanRun.step, hstep]
  rcases hw with hw | ⟨u, hw⟩ <;> simp only [workerStep, hw, hpc₀, hrun, hpc']

namespace Paired

/-- The worker is in `send`, which succeeds. -/
theorem sends (h : Paired s) (hw : s.worker = .send) (hst : s.workerStep = some s') :
    Paired s' ∧ (s'.worker = .send ∨ s'.worker = .drop false) := by
  have hstage := h.stage
  have hne : s.worker ≠ .none := by
    rw [hw]
    simp
  have hself : ∀ {pc : SenderPc w Nat} (pc' : SenderPc w Nat), s.pc = some pc →
      (s.run.chan.senders.set s.clone pc')[s.clone]? = some pc' :=
    fun pc' hpc => List.getElem?_set_self (List.getElem?_eq_some_iff.1 hpc).1
  rw [hw] at hstage
  rcases hstage with ⟨hpc, hun⟩ | ⟨hpc | ⟨prev, hpc⟩, hsent⟩
  · have hpc₀ : s.run.chan.senders[s.clone]? = some (.sending s.calls false) := hpc
    by_cases hroom : (s.run.chan.room && s.run.chan.inMemory) = true
    · have hstep : s.run.chan.senderStep s.clone (SenderPc.sending s.calls false : SenderPc w Nat).nextAct =
          some ({ s.run.chan with queue := s.run.chan.queue ++ [s.calls] }.setPc s.clone .sent, .nothing) := by
        simp [Chan.senderStep, SenderPc.nextAct, hpc₀, h.alive, hroom]
      rw [workerStep_eq (.inl hw) hpc hstep rfl] at hst
      cases hst
      have haft : s.worker.after (SenderPc.sending s.calls false : SenderPc w Nat) .sent = .send := by rw [hw]; rfl
      rw [haft]
      refine ⟨h.set .sent hne rfl rfl (by simp) (.inr ⟨.inl (hself _ hpc), .inl ⟨?_, hun.2⟩⟩), .inl rfl⟩
      show s.run.chan.queue ++ [s.calls] = [s.calls]
      rw [hun.1]
      rfl
    · simp [workerStep, hw, hpc₀, ChanRun.step, Chan.senderStep, SenderPc.nextAct, h.alive, hroom] at hst
  · have hpc₀ : s.run.chan.senders[s.clone]? = some .sent := hpc
    have hstep : s.run.chan.senderStep s.clone (SenderPc.sent : SenderPc w Nat).nextAct =
        some (s.run.chan.fetchAdd.setPc s.clone (.added s.run.chan.counter), .nothing) := by
      simp [Chan.senderStep, SenderPc.nextAct, hpc₀]
    rw [workerStep_eq (.inl hw) hpc hstep rfl] at hst
    cases hst
    have haft : s.worker.after (SenderPc.sent : SenderPc w Nat) (.added s.run.chan.counter) = .send := by rw [hw]; rfl
    rw [haft]
    exact ⟨h.set _ hne rfl rfl (by simp) (.inr ⟨.inr ⟨_, hself _ hpc⟩, hsent⟩), .inl rfl⟩
  · have hpc₀ : s.run.chan.senders[s.clone]? = some (.added prev) := hpc
    have hstep : s.run.chan.senderStep s.clone (SenderPc.added prev : SenderPc w Nat).nextAct =
        some (s.run.chan.setPc s.clone .idle, s.run.chan.notifyIfZero prev) := by
      simp [Chan.senderStep, SenderPc.nextAct, hpc₀]
    rw [workerStep_eq (.inl hw) hpc hstep rfl] at hst
    cases hst
    have haft : s.worker.after (SenderPc.added prev : SenderPc w Nat) .idle = .drop false := by rw [hw]; rfl
    rw [haft]
    exact ⟨h.set .idle hne rfl rfl (by simp) ⟨⟨.idle, pc_post.trans (hself _ hpc), .inl rfl⟩, hsent.post rfl⟩, .inr rfl⟩

/-- The worker drops its sender. -/
theorem drops (h : Paired s) {u : Bool} (hw : s.worker = .drop u) (hst : s.workerStep = some s') : Paired s' := by
  have hstage := h.stage
  rw [hw] at hstage
  obtain ⟨⟨pc, hpc, hdrop⟩, hleft⟩ := hstage
  have hpc₀ : s.run.chan.senders[s.clone]? = some pc := hpc
  have hmove : ∀ (pc' : SenderPc w Nat) (c : Chan w Nat Stamped Nat) (n : Notify Stamped Nat),
      s.run.chan.senderStep s.clone pc.nextAct = some (c, n) → c.senders = s.run.chan.senders.set s.clone pc' →
      c.receiver = s.run.chan.receiver → c.queue = s.run.chan.queue → pc'.afterDrop = true ∨ pc' = .dropped →
      Paired s' := by
    intro pc' c n hstep hs hrecv hq hto
    rw [workerStep_eq (.inr ⟨u, hw⟩) hpc hstep hs] at hst
    cases hst
    have hself : c.senders[s.clone]? = some pc' := by
      rw [hs]
      exact List.getElem?_set_self (List.getElem?_eq_some_iff.1 hpc₀).1
    have hleft' : ∀ wk, if u = true then Unsent { s with run := s.run.post c n, worker := wk }
        else Sent { s with run := s.run.post c n, worker := wk } := by
      intro wk
      cases u with
      | true => exact Unsent.post hleft hq
      | false => exact Sent.post hleft hq
    rcases hto with hto | rfl
    · have haft : s.worker.after pc pc' = .drop u := by
        rw [hw]
        cases pc' <;> first | rfl | cases hto
      rw [haft]
      exact h.set pc' (by rw [hw]; simp) hs hrecv (by simp) ⟨⟨pc', pc_post.trans hself, .inr hto⟩, hleft' _⟩
    · have haft : s.worker.after pc (.dropped : SenderPc w Nat) = .done u := by
        rw [hw]
        rfl
      rw [haft]
      refine h.set .dropped (by rw [hw]; simp) hs hrecv (by simp) ⟨pc_post.trans hself, ?_⟩
      have := hleft' (.done u)
      cases u with
      | true => exact this
      | false => exact .inl this
  rcases hdrop with rfl | hdrop
  · refine hmove (if s.run.chan.arcs = 1 then .released else .closing) ({ s.run.chan with
      arcs := s.run.chan.arcs - 1 }.setPc s.clone (if s.run.chan.arcs = 1 then .released else .closing)) .nothing
      ?_ rfl rfl rfl (.inl ?_)
    · simp only [Chan.senderStep, SenderPc.nextAct, hpc₀]
    · split <;> rfl
  · cases pc with
    | released =>
      refine hmove (.dropAdded s.run.chan.counter)
        (s.run.chan.fetchAdd.setPc s.clone (.dropAdded s.run.chan.counter)) .nothing ?_ rfl rfl rfl (.inl rfl)
      simp only [Chan.senderStep, SenderPc.nextAct, hpc₀]
    | dropAdded prev =>
      refine hmove .closing (s.run.chan.setPc s.clone .closing) (s.run.chan.notifyIfZero prev) ?_ rfl rfl rfl (.inl rfl)
      simp only [Chan.senderStep, SenderPc.nextAct, hpc₀]
    | closing =>
      refine hmove .dropped (s.run.chan.setPc s.clone .dropped) .nothing ?_ rfl rfl rfl (.inr rfl)
      simp only [Chan.senderStep, SenderPc.nextAct, hpc₀]
    | _ => cases hdrop

theorem worker (h : Paired s) (hst : s.workerStep = some s') : Paired s' := by
  cases hw : s.worker with
  | send => exact (h.sends hw hst).1
  | drop u => exact h.drops hw hst
  | none | closure | done => simp only [workerStep, hw] at hst; cases hst

/-- The caller moves, the senders do not. -/
theorem moves (h : Paired s) {run : ChanRun w Nat} {caller : Caller} (hs : run.chan.senders = s.run.chan.senders)
    (halive : run.chan.receiver = s.run.chan.receiver) (hfits : caller.Fits run.recv)
    (hstage : Stage { s with run := run, caller := caller } s.worker) : Paired { s with run := run, caller := caller } where
  alive := halive.trans h.alive
  own := by
    show run.chan.senders[0]? = _
    rw [hs]
    exact h.own
  others i pc hi := h.others i pc (by rw [← hs]; exact hi)
  clone := h.clone
  caller := hfits
  stage := hstage

theorem tryRecv (h : Paired s) (hc : s.caller = .tryRecv) (hst : s.callerStep = some s') : Paired s' := by
  obtain ⟨woken, hr⟩ : ∃ woken, s.run.recv = .running woken := by
    have := h.caller
    rwa [hc] at this
  have hnd : s.run.chan.disconnected = false := by
    refine Bool.eq_false_iff.2 (fun hd => ?_)
    have := List.all_eq_true.1 hd _ (List.mem_of_getElem? h.own)
    cases this
  cases hq : s.run.chan.queue with
  | nil =>
    have hres : s.run.chan.tryRecv = .empty := by simp [Chan.tryRecv, hq, hnd]
    simp only [callerStep, hc, ChanRun.step, hr, hres, Option.some.injEq] at hst
    subst hst
    exact h.moves rfl rfl ⟨none, rfl⟩ (h.stage.round rfl rfl (by rw [hc]; rfl) rfl)
  | cons t rest =>
    have hres : s.run.chan.tryRecv = .ok t := by simp [Chan.tryRecv, hq]
    simp only [callerStep, hc, ChanRun.step, hr, hres, Option.some.injEq] at hst
    subst hst
    refine h.moves rfl rfl rfl (h.stage.map rfl rfl (fun hun => ?_) (fun hsent => ?_) (fun hret => ?_))
    · rw [Unsent, hq] at hun
      cases hun.1
    · rcases hsent with ⟨h1, -⟩ | ⟨h1, -⟩
      · refine .inr ⟨?_, .inl rfl⟩
        show s.run.chan.queue.tail = []
        rw [h1]
        rfl
      · rw [hq] at h1
        cases h1
    · rw [Returned, hq] at hret
      cases hret.1

theorem join (h : Paired s) (hc : s.caller = .join) (hst : s.callerStep = some s') : Paired s' := by
  simp only [callerStep, hc] at hst
  split at hst
  · rename_i u hw
    cases hst
    have hfits := h.caller
    rw [hc] at hfits
    refine h.moves rfl rfl hfits ?_
    have hstage := h.stage
    rw [hw] at hstage ⊢
    refine ⟨hstage.1, ?_⟩
    cases u with
    | true =>
      have := hstage.2.2
      rw [hc] at this
      cases this
    | false =>
      rcases hstage.2 with hsent | ⟨-, b, hb⟩
      · rcases hsent with ⟨-, h2⟩ | ⟨h1, -⟩
        · rw [hc] at h2
          cases h2
        · exact .inr ⟨h1, _, rfl⟩
      · rw [hc] at hb
        cases hb
  · cases hst

theorem caller_step (h : Paired s) (hst : s.callerStep = some s') : Paired s' := by
  have hfits := h.caller
  cases hc : s.caller with
  | tryRecv => exact h.tryRecv hc hst
  | join => exact h.join hc hst
  | fetchSub =>
    rw [hc] at hfits
    have hr : s.run.recv = .took := hfits
    simp only [callerStep, hc, ChanRun.step, hr, Option.some.injEq] at hst
    subst hst
    refine h.moves rfl rfl ⟨none, rfl⟩ (h.stage.map rfl rfl (fun hun => ?_) (fun hsent => ?_) (fun hret => ?_))
    · rw [Unsent, hc] at hun
      cases hun.2
    · rw [Sent, hc] at hsent
      rcases hsent with ⟨-, h2⟩ | ⟨h1, -⟩
      · cases h2
      · exact .inr ⟨h1, .inr rfl⟩
    · obtain ⟨-, b, hb⟩ := hret
      rw [hc] at hb
      cases hb
  | block =>
    rw [hc] at hfits
    obtain ⟨woken, hr⟩ := hfits
    simp only [callerStep, hc, ChanRun.step, hr, Option.some.injEq] at hst
    subst hst
    exact h.moves rfl rfl (.inl rfl) (h.stage.round rfl rfl (by rw [hc]; rfl) rfl)
  | blocked =>
    simp only [callerStep, hc] at hst
    split at hst
    · rename_i woken hr
      cases hst
      exact h.moves rfl rfl ⟨woken, hr⟩ (h.stage.round rfl rfl (by rw [hc]; rfl) rfl)
    · cases hst
  | outside | failed => simp only [callerStep, hc] at hst; cases hst

/-- **The event loop** leaves queue and senders alone, and resumes the caller at most in its `block_on`. -/
theorem loop (h : Paired s) {a : ChanAct Nat} {run : ChanRun w Nat} (ha : a.isLoop = true)
    (hst : s.run.step a = some run) : Paired { s with run } := by
  have hframe : run.chan.senders = s.run.chan.senders ∧ run.chan.queue = s.run.chan.queue ∧
      run.chan.receiver = s.run.chan.receiver ∧ s.caller.Fits run.recv := by
    have hfits := h.caller
    cases a with
    | register t l =>
      simp only [ChanRun.step] at hst
      split at hst
      · rename_i hr
        cases hst
        rw [hr] at hfits
        rw [Caller.fits_blocked hfits (by simp) (by simp)]
        refine ⟨?_, ?_, ?_, ?_⟩
        · simp only [Chan.register]
          split <;> rfl
        · simp only [Chan.register]
          split <;> rfl
        · simp only [Chan.register]
          split <;> rfl
        · show Caller.Fits .blocked (if _ then RecvPc.leaving Wake.selfWake else RecvPc.parked)
          split
          · exact .inr (.inr (.inl ⟨_, rfl⟩))
          · exact .inr (.inl rfl)
      · cases hst
    | otherWake =>
      simp only [ChanRun.step] at hst
      split at hst
      · rename_i hr
        cases hst
        rw [hr] at hfits
        rw [Caller.fits_blocked hfits (by simp) (by simp)]
        exact ⟨rfl, rfl, rfl, .inr (.inr (.inl ⟨_, rfl⟩))⟩
      · cases hst
    | deregister =>
      simp only [ChanRun.step] at hst
      split at hst
      · rename_i cause hr
        cases hst
        rw [hr] at hfits
        rw [Caller.fits_blocked hfits (by simp) (by simp)]
        exact ⟨rfl, rfl, rfl, .inr (.inr (.inr ⟨_, rfl⟩))⟩
      · cases hst
    | deliver k =>
      simp only [ChanRun.step] at hst
      split at hst
      · cases hst
        refine ⟨rfl, rfl, rfl, ?_⟩
        split
        · rename_i hp
          rw [hp.1] at hfits
          rw [Caller.fits_blocked hfits (by simp) (by simp)]
          exact .inr (.inr (.inl ⟨_, rfl⟩))
        · exact hfits
      · cases hst
    | _ => cases ha
  obtain ⟨h1, h2, h3, h4⟩ := hframe
  refine h.moves h1 h3 h4 (h.stage.map (congrArg (fun l => l[s.clone]?) h1) rfl (fun h => ⟨h2.trans h.1, h.2⟩) ?_
    (fun h => ⟨h2.trans h.1, h.2⟩))
  exact Or.imp (fun h => ⟨h2.trans h.1, h.2⟩) (fun h => ⟨h2.trans h.1, h.2⟩)

theorem step (h : Paired s) {a : OffloadAct} (hst : s.step a = some s') : Paired s' := by
  cases a with
  | call => exact h.call hst
  | closure panics => exact h.closure hst
  | worker => exact h.worker hst
  | caller => exact h.caller_step hst
  | loop a =>
    simp only [Offload.step] at hst
    split at hst
    · rename_i ha
      split at hst
      · rename_i run hr
        cases hst
        exact h.loop ha hr
      · cases hst
    · cases hst

end Paired
theorem reach_paired {ok : Offload w → OffloadAct → Prop} (h : Reach (offloadSystem w) ok s) : Paired s :=
  h.invariant Paired (fun _ h0 => h0 ▸ Paired.start) (fun _ _ _ hi _ hst => hi.step hst)

theorem drops_worker {u : Bool} (hw : s.worker = .drop u) (hst : s.workerStep = some s') :
    s'.worker = .drop u ∨ s'.worker = .done u := by
  cases hpc : s.run.chan.senders[s.clone]? with
  | none => simp only [workerStep, hw, hpc] at hst; cases hst
  | some pc =>
    simp only [workerStep, hw, hpc] at hst
    split at hst
    · cases hst
      split
      · rename_i pc' _
        cases pc' <;> first | exact .inl rfl | exact .inr rfl
      · exact .inl rfl
    · cases hst

theorem caller_worker (hst : s.callerStep = some s') : s'.worker = s.worker := by
  unfold callerStep at hst
  split at hst
  case h_6 => cases hst
  all_goals
    split at hst
    · cases hst
      rfl
    · cases hst

/-- No worker unwinds where every closure returns. -/
theorem reach_returns (h : Reach (offloadSystem w) closureReturns s) :
    s.worker ≠ .drop true ∧ s.worker ≠ .done true := by
  refine h.invariant_of Paired (fun s => s.worker ≠ .drop true ∧ s.worker ≠ .done true) (fun _ => reach_paired) ?_ ?_
  · rintro s rfl
    exact ⟨by simp [start], by simp [start]⟩
  · intro s a s' hpair hret ha hst _
    cases a with
    | call =>
      simp only [offloadSystem, step, call] at hst
      split at hst <;> cases hst
      exact ⟨by simp, by simp⟩
    | closure panics =>
      cases panics with
      | true => exact absurd rfl ha
      | false =>
        simp only [offloadSystem, step, closure] at hst
        split at hst
        · rw [if_neg (by simp)] at hst
          split at hst <;> cases hst
          exact ⟨by simp, by simp⟩
        · cases hst
    | worker =>
      have hst : s.workerStep = some s' := hst
      cases hw : s.worker with
      | send =>
        rcases (hpair.sends hw hst).2 with h' | h' <;> rw [h'] <;> exact ⟨by simp, by simp⟩
      | drop u =>
        have hu : u ≠ true := fun hu => hret.1 (by rw [hw, hu])
        rcases drops_worker hw hst with h' | h' <;> rw [h'] <;> exact ⟨by simp [hu], by simp [hu]⟩
      | none | closure | done => simp only [workerStep, hw] at hst; cases hst
    | caller =>
      rw [caller_worker hst]
      exact hret
    | loop a =>
      simp only [offloadSystem, step] at hst
      split at hst
      · split at hst <;> cases hst
        exact hret
      · cases hst

/-- **`offload` ends when its closure ends**, if the closures return.  When the worker has terminated and the caller is
parked, the notification of this call is queued and its `ChannelMsg` in flight; what the caller receives is the
notification of its own worker; and a call leaves none behind. -/
theorem offload_ends (hw : 0 < w) (h : Reach (offloadSystem w) closureReturns s) :
    (∀ u, s.worker = .done u → s.run.recv = .parked → s.run.chan.queue = [s.calls] ∧ s.run.Notified) ∧
    (∀ k, s.caller = .tryRecv → s.run.chan.tryRecv = .ok k → k = s.calls) ∧
    (∀ u, s.caller = .join ∨ s.caller = .outside u → s.run.chan.queue = []) := by
  have hp := reach_paired h
  refine ⟨fun u hd hparked => ?_, fun k hc hres => ?_, fun u hc => ?_⟩
  · have hc : s.caller = .blocked := by
      refine Caller.fits_blocked hp.caller ?_ ?_ <;> rw [hparked] <;> simp
    have hq : s.run.chan.queue = [s.calls] := by
      have hstage := hp.stage
      rw [hd] at hstage
      cases u with
      | true => exact absurd hd (reach_returns h).2
      | false =>
        rcases hstage.2 with (⟨h1, -⟩ | ⟨-, h2 | h2⟩) | ⟨-, b, hb⟩
        · exact h1
        · rw [hc] at h2
          cases h2
        · rw [hc] at h2
          cases h2
        · rw [hc] at hb
          cases hb
    refine ⟨hq, ?_⟩
    have hquiet : ∀ (i : Nat) (pc : SenderPc w Nat), s.run.chan.senders[i]? = some pc →
        pc.fetchAddNext = false ∧ pc.notifyNext = false := by
      intro i pc hi
      have hpc : pc = .idle ∨ pc = .dropped := by
        rcases hp.others i pc hi with rfl | rfl | h0
        · exact .inl (Option.some.inj (hi.symm.trans hp.own))
        · have hstage := hp.stage
          rw [hd] at hstage
          exact .inr (Option.some.inj (hi.symm.trans hstage.1))
        · exact .inr h0
      rcases hpc with rfl | rfl <;> exact ⟨rfl, rfl⟩
    rcases ChanRun.wakeup_due hw (reach_run h) hparked (.inl (by rw [hq]; simp)) with hn | ⟨-, i, pc, hi, hf⟩ | ⟨i, pc, hi, hf⟩
    · exact hn
    · rw [(hquiet i pc hi).1] at hf
      cases hf
    · rw [(hquiet i pc hi).2] at hf
      cases hf
  · have hk := Chan.tryRecv_ok hres
    rcases hp.stage.place with h1 | (⟨h1, -⟩ | ⟨h1, -⟩) | h1
    · rw [h1.1] at hk
      cases hk
    · rw [h1] at hk
      exact (List.cons.inj hk).1.symm
    · rw [h1] at hk
      cases hk
    · rw [h1.1] at hk
      cases hk
  · rcases hc with hc | hc
    · rcases hp.stage.place with h1 | (⟨-, h1⟩ | ⟨h1, -⟩) | h1
      · rw [Unsent, hc] at h1
        cases h1.2
      · rw [hc] at h1
        cases h1
      · exact h1
      · exact h1.1
    · exact (hp.between hc).1

/-- The caller parks, and the worker runs to its end. -/
def parkedCall (panics : Bool) : List OffloadAct :=
  [.call, .caller, .caller, .loop (.register 1024 0), .closure panics]

theorem offload_ends_parkedCall : ∃ s : Offload 64, Reach (offloadSystem 64) closureReturns s ∧
    s.worker = .done false ∧ s.run.recv = .parked ∧ s.run.chan.queue = [s.calls] ∧ s.run.Notified := by
  have h0 : Reach (offloadSystem 64) closureReturns start := .init rfl
  have hex : ((offloadSystem 64).exec (parkedCall false ++ List.replicate 5 .worker) start).any
      (fun s => decide (s.worker = .done false ∧ s.run.recv = .parked)) = true := by decide +kernel
  obtain ⟨s, hs, hend⟩ := (Option.any_eq_true _ _).1 hex
  obtain ⟨hd, hp⟩ := of_decide_eq_true hend
  have h := System.reach_exec _ _ s h0 (by decide +kernel) hs
  exact ⟨s, h, hd, hp, (offload_ends (by decide) h).1 false hd hp⟩

/-- **A closure that panics** leaves its caller in `recv`, without a message. -/
theorem offload_hangs {ok : Offload w → OffloadAct → Prop} (h : Reach (offloadSystem w) ok s)
    (hd : s.worker = .done true) : s.caller.waits = true ∧ s.run.chan.queue = [] := by
  have hstage := (reach_paired h).stage
  rw [hd] at hstage
  exact ⟨hstage.2.2, hstage.2.1⟩

/-- Its worker has terminated, and nothing will wake the caller: its own sender is the only one left. -/
theorem offload_abandoned : ∃ s : Offload 64, Reach (offloadSystem 64) anyStep s ∧ s.worker = .done true ∧
    s.run.recv = .parked ∧ s.run.chan.queue = [] ∧ s.run.inflight = [] ∧ s.run.chan.senders = [.idle, .dropped] := by
  have h0 : Reach (offloadSystem 64) anyStep start := .init rfl
  have hex : ((offloadSystem 64).exec (parkedCall true ++ List.replicate 2 .worker) start).any
      (fun s => decide (s.worker = .done true ∧ s.run.recv = .parked ∧ s.run.chan.queue = [] ∧ s.run.inflight = [] ∧
        s.run.chan.senders = [.idle, .dropped])) = true := by decide +kernel
  obtain ⟨s, hs, hend⟩ := (Option.any_eq_true _ _).1 hex
  exact ⟨s, System.reach_exec_of_forall _ _ s h0 (fun _ _ _ => trivial) hs, of_decide_eq_true hend⟩

end Offload
end Mioco

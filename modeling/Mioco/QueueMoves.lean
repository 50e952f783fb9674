import Mathlib.Tactic.Common
import Mioco.Deliver
import Mioco.Edits
/-!
# The queues of one thread, step by step (src/thread.rs, src/mod.rs)

With the default scheduler, what a thread does to its queues of coroutines is one of a few moves, whatever the
coroutines and the other threads do.  A `Line` is the queues and the place in the code that matters for them.
-/
namespace Mioco

/-- Where a thread is, as far as its queues are concerned. -/
inductive LinePhase
  | starting
  /-- in mio, or in a callback that has not called the scheduler yet -/
  | outside
  /-- in a callback of the scheduler, or in a coroutine it resumed -/
  | call (k : Callback)
  | deliverSpawned
  | deliverReady (noSpawned : Bool)
  /-- the `Handler` is being dropped -/
  | stopping
  | ended
deriving DecidableEq, Repr

namespace LinePhase

def ofRet : Ret → LinePhase
  | .resumed k | .killed k => call k
  | .stopping => stopping
  | .attached | .shutdown _ _ => outside

def ofAfterRegister : AfterRegister → LinePhase
  | .resumed k => call k
  | .attached => outside

def ofAfterDeregister : AfterDeregister → LinePhase
  | .event => outside
  | .woken next => ofAfterRegister next
  | .migrate k _ => call k

def ofPc {α : Type} : Pc α → LinePhase
  | .starting => starting
  | .poll | .shutdown _ _ => outside
  | .call k | .resumed _ k => call k
  | .deliverSpawned => deliverSpawned
  | .deliverReady b => deliverReady b
  | .exec _ ret _ => ofRet ret
  | .register _ _ _ next => ofAfterRegister next
  | .deregister _ next => ofAfterDeregister next
  | .stopping => stopping
  | .done | .panicked _ => ended

/-- Where a callback returns to. -/
def afterCall (k : Callback) : LinePhase := ofPc (Mioco.afterCall k : Pc Unit)

end LinePhase

structure Line where
  phase : LinePhase
  queues : Deliver
deriving DecidableEq, Repr

/-- What a step means for the yields. -/
inductive LineEvent
  | quiet
  /-- the coroutine came back from a yield -/
  | yields (c : Nat)
  /-- the scheduler resumes a coroutine -/
  | resumes (k : Callback) (h : Handle)
  /-- a handle is dropped with the `Handler` -/
  | drops (h : Handle)
  /-- `scheduler.tick` is called -/
  | ticks
  /-- a callback of the scheduler returns -/
  | returns (k : Callback)
deriving DecidableEq, Repr

namespace Deliver

/-- `is_yielding` handles, in the order in which they will be popped. -/
def waiting (d : Deliver) : List Handle := d.delayed.filter Handle.isYielding ++ d.ready.filter Handle.isYielding

/-- The scheduler is called. -/
def enter (d : Deliver) (k : Callback) (l : List Handle) (th : FifoThread) : Deliver :=
  { d with delayed := d.delayed ++ l, sched := th.enter k (d.delayed ++ l) }

end Deliver

/-- **The moves of a line.** -/
inductive LineMove : Line → LineEvent → Line → Prop
  | stays (l : Line) : LineMove l .quiet l
  | panics (p : LinePhase) (d : Deliver) : LineMove ⟨p, d⟩ .quiet ⟨.ended, d⟩
  | ticks (p : LinePhase) (d : Deliver) (th : FifoThread) : p = .starting ∨ p = .outside →
      LineMove ⟨p, d⟩ .ticks ⟨.call .tick, d.enter .tick [] th⟩
  /-- an event or a migration brings a coroutine -/
  | arrives (d : Deliver) (c : Nat) :
      LineMove ⟨.outside, d⟩ .quiet ⟨.call .ready, d.enter .ready [Handle.new c] d.sched⟩
  | delivers (d : Deliver) : LineMove ⟨.outside, d⟩ .quiet ⟨.deliverSpawned, d⟩
  | stops (d : Deliver) : LineMove ⟨.outside, d⟩ .quiet ⟨.stopping, d⟩
  | returns (k : Callback) (d : Deliver) (m : Nat) : (d.sched.next d.delayed m).1 = .ret →
      LineMove ⟨.call k, d⟩ (.returns k) ⟨LinePhase.afterCall k, { d with sched := (d.sched.next d.delayed m).2 }⟩
  | resumes (k : Callback) (d : Deliver) (m i : Nat) (h : Handle) (p : LinePhase) :
      (d.sched.next d.delayed m).1 = .resume i → d.delayed[i]? = some h → p = .call k ∨ p = .ended →
      LineMove ⟨.call k, d⟩ (.resumes k h)
        ⟨p, { d with delayed := d.delayed.eraseIdx i, sched := (d.sched.next d.delayed m).2 }⟩
  | migrates (k : Callback) (d : Deliver) (m i j : Nat) (h : Handle) :
      (d.sched.next d.delayed m).1 = .migrate i j → d.delayed[i]? = some h →
      LineMove ⟨.call k, d⟩ .quiet
        ⟨.call k, { d with delayed := d.delayed.eraseIdx i, sched := (d.sched.next d.delayed m).2 }⟩
  /-- it names a handle it does not hold -/
  | strays (k : Callback) (d : Deliver) (m i : Nat) (l : Line) :
      (d.sched.next d.delayed m).1 = .resume i ∨ (∃ j, (d.sched.next d.delayed m).1 = .migrate i j) →
      d.delayed[i]? = none → LineMove ⟨.call k, d⟩ .quiet l
  /-- `after_resume` -/
  | comesBack (k : Callback) (d : Deliver) (c : Nat) (r : Resume) (e : LineEvent) :
      e = (if r.ends = .yielding then .yields c else .quiet) →
      LineMove ⟨.call k, d⟩ e ⟨.call k, d.resume (Handle.new c) r⟩
  | popSpawned (d : Deliver) (h : Handle) (rest : List Handle) : d.spawned = h :: rest →
      LineMove ⟨.deliverSpawned, d⟩ .quiet
        ⟨.call .spawned, { d with spawned := rest }.enter .spawned [h] d.sched⟩
  | noSpawned (d : Deliver) : d.spawned = [] → LineMove ⟨.deliverSpawned, d⟩ .quiet ⟨.deliverReady true, d⟩
  | popReady (d : Deliver) (b : Bool) (h : Handle) (rest : List Handle) : d.ready = h :: rest →
      LineMove ⟨.deliverReady b, d⟩ .quiet ⟨.call .ready, { d with ready := rest }.enter .ready [h] d.sched⟩
  | noReady (d : Deliver) (b : Bool) : d.ready = [] →
      LineMove ⟨.deliverReady b, d⟩ .quiet ⟨if b then .outside else .deliverSpawned, d⟩
  | dropsHeld (d : Deliver) (h : Handle) (rest : List Handle) (p : LinePhase) : d.delayed = h :: rest →
      p = .stopping ∨ p = .ended → LineMove ⟨.stopping, d⟩ (.drops h) ⟨p, { d with delayed := rest }⟩
  | dropsSpawned (d : Deliver) (h : Handle) (rest : List Handle) (p : LinePhase) : d.delayed = [] → d.spawned = h :: rest →
      p = .stopping ∨ p = .ended → LineMove ⟨.stopping, d⟩ (.drops h) ⟨p, { d with spawned := rest }⟩
  | dropsReady (d : Deliver) (h : Handle) (rest : List Handle) (p : LinePhase) : d.delayed = [] → d.spawned = [] →
      d.ready = h :: rest → p = .stopping ∨ p = .ended → LineMove ⟨.stopping, d⟩ (.drops h) ⟨p, { d with ready := rest }⟩

namespace Instance
variable {w : Nat} {α : Type}

/-- The line of thread `t`. -/
def line (s : Instance fifo w α) (t : Nat) : Line := ⟨.ofPc (s.threads t).pc, Deliver.view (s.threads t)⟩

/-- The handle that is dropped next with the `Handler`. -/
def stopEvent : List Handle → List Handle → List Handle → LineEvent
  | h :: _, _, _ | [], h :: _, _ | [], [], h :: _ => .drops h
  | [], [], [] => .quiet

/-- What a step of thread `t` means for its yields. -/
def threadEvent (s : Instance fifo w α) (t : Nat) : ThreadAct α → LineEvent
  | .start | .tick => .ticks
  | .sched _ =>
    let th := s.threads t
    match th.pc with
    | .call k =>
      match (th.sched.next th.held s.shared).1 with
      | .ret => .returns k
      | .resume i => match th.held[i]? with | some h => .resumes k h | none => .quiet
      | _ => .quiet
    | _ => .quiet
  | .next =>
    let th := s.threads t
    match th.pc with
    | .resumed c _ => if (s.cos c).state = .yielding then .yields c else .quiet
    | .stopping => stopEvent th.held th.spawned th.ready
    | _ => .quiet
  | _ => .quiet

def event (s : Instance fifo w α) (t : Nat) : Action α → LineEvent
  | .thread t' a => if t' = t then s.threadEvent t a else .quiet
  | _ => .quiet

/-! ## The other threads -/

section apart
variable {s s' : Instance fifo w α} {i : Nat} {cfg : Config}

theorem line_send (l : Nat) (m : Message) (i : Nat) : (s.send l m).line i = s.line i := by
  rw [line, threads_send, line]
  rfl

theorem line_terminates {l : Nat} (n : Nat) :
    (s.setThread l { s.threads l with terminates := n }).line i = s.line i := by
  rw [line, threads_setThread]
  split
  · rename_i hi
    subst hi
    rfl
  · rfl

/-- **A step that is not one of thread `i` leaves its line alone.** -/
theorem line_other {a : Action α} (h : ∀ b, a ≠ .thread i b) (hst : s.step cfg a = some s') : s'.line i = s.line i := by
  obtain ⟨inbox, batch, n, hi⟩ := step_told h hst
  rw [line, hi, line]
  rfl

end apart

/-! ## The thread itself -/

section own
variable {s s' : Instance fifo w α} {t c : Nat} {cfg : Config}

/-- Thread `t` gets to phase `q`, or panics, with the queues `d`. -/
def Reaches (s' : Instance fifo w α) (t : Nat) (q : LinePhase) (d : Deliver) : Prop :=
  s'.line t = ⟨q, d⟩ ∨ s'.line t = ⟨.ended, d⟩

theorem line_setPc (pc : Pc α) : (s.setPc t pc).line t = ⟨.ofPc pc, (s.line t).queues⟩ := by
  rw [line, setPc, setThread_self]
  rfl

theorem line_panic (why : Panic) : (s.panic t why).line t = ⟨.ended, (s.line t).queues⟩ := by
  rw [line, panic, setThread_self]
  rfl

theorem line_setThread (th : Thread fifo α) : (s.setThread t th).line t = ⟨.ofPc th.pc, Deliver.view th⟩ := by
  rw [line, setThread_self]

theorem line_leave (ret : Ret) : (s.leave t c ret).line t = ⟨.ofRet ret, (s.line t).queues⟩ := by
  cases ret <;> exact line_setPc _

theorem reaches_jumpIn (ret : Ret) : Reaches (s.jumpIn t c ret) t (.ofRet ret) (s.line t).queues := by
  unfold jumpIn
  split
  · exact .inl (line_leave ret)
  · split
    · exact .inl (line_setPc _)
    · exact .inr (line_panic _)

theorem reaches_kill (ret : Ret) : Reaches (s.kill t c ret) t (.ofRet ret) (s.line t).queues := reaches_jumpIn ret

theorem line_callback (k : Callback) (o : Option Handle) :
    (s.callback t k o).line t = ⟨.call k, (s.line t).queues.enter k o.toList (s.threads t).sched⟩ := by
  rw [line, callback, setThread_self]
  rfl

/-- A phase kept, or a panic, is a move. -/
theorem Reaches.move {q : LinePhase} {d : Deliver} (h : Reaches s' t q d) : LineMove ⟨q, d⟩ .quiet (s'.line t) := by
  rcases h with h | h <;> rw [h]
  · exact .stays _
  · exact .panics q d

theorem move_setPc {q : LinePhase} {pc : Pc α} (h : LinePhase.ofPc pc = q) :
    LineMove ⟨q, (s.line t).queues⟩ .quiet ((s.setPc t pc).line t) := by
  rw [line_setPc, h]
  exact .stays _

theorem move_panic (q : LinePhase) (why : Panic) :
    LineMove ⟨q, (s.line t).queues⟩ .quiet ((s.panic t why).line t) := by
  rw [line_panic]
  exact .panics q _

theorem move_arrives (c : Nat) :
    LineMove ⟨.outside, (s.line t).queues⟩ .quiet ((s.callback t .ready (some (Handle.new c))).line t) := by
  rw [line_callback]
  exact .arrives _ c

theorem move_attached :
    LineMove ⟨.outside, (s.line t).queues⟩ .quiet ((s.attached t c).line t) := by
  unfold attached
  split
  · exact (reaches_kill .attached).move
  · exact move_arrives c

theorem move_afterRegister (next : AfterRegister) :
    LineMove ⟨.ofAfterRegister next, (s.line t).queues⟩ .quiet ((s.afterRegister t c next).line t) := by
  cases next with
  | resumed k => exact move_setPc rfl
  | attached => exact move_attached

theorem move_registered (hit : Option (Event × Reg)) (next : AfterRegister) :
    LineMove ⟨.ofAfterRegister next, (s.line t).queues⟩ .quiet ((s.registered t c hit next).line t) := by
  cases hit with
  | none => exact move_afterRegister next
  | some hit => exact move_setPc rfl

theorem move_detach (k : Callback) (l : Nat) :
    LineMove ⟨.call k, (s.line t).queues⟩ .quiet ((s.detach cfg t c k l).line t) := by
  simp only [detach]
  split
  · split
    · exact move_panic _ _
    · rename_i slab _
      have hcall : LineMove ⟨.call k, (s.line t).queues⟩ .quiet
          (((s.setCo c { s.cos c with handler := none }).setThread t
            { s.threads t with coroutines := slab, pc := .call k }).line t) := by
        rw [line_setThread]
        exact .stays _
      split
      · rw [line_panic, line_setThread]
        exact .panics _ _
      · split
        · rw [line_send]
          exact hcall
        · rw [line_panic, line_setThread]
          exact .panics _ _
  · exact move_panic _ _

theorem move_deregister {next : AfterDeregister} (hpc : (s.threads t).pc = .deregister c next) :
    LineMove ⟨.ofAfterDeregister next, (s.line t).queues⟩ .quiet ((s.deregister cfg t c next).line t) := by
  have hstays : ∀ m : Instance fifo w α, m.line t = s.line t →
      LineMove ⟨.ofAfterDeregister next, (s.line t).queues⟩ .quiet (m.line t) := by
    intro m hm
    have hline : s.line t = ⟨.ofAfterDeregister next, (s.line t).queues⟩ := by
      rw [line, hpc]
      rfl
    rw [hm, ← hline]
    exact .stays _
  unfold deregister
  split
  · rename_i src rest _
    cases src with
    | recv ch => exact hstays _ rfl
    | timer n =>
      simp only [deregisterSrc, clearTimeout]
      split
      · exact hstays _ rfl
      · split
        · exact hstays _ (line_setThread _)
        · exact hstays _ rfl
    | io n =>
      simp only [deregisterSrc]
      split
      · exact hstays _ (line_setThread _)
      · exact move_panic _ _
  · cases next with
    | event => exact move_arrives c
    | woken next => exact move_afterRegister next
    | migrate k l => exact move_detach k l

theorem move_afterResume (k : Callback) :
    LineMove ⟨.call k, (s.line t).queues⟩ (if (s.cos c).state = .yielding then .yields c else .quiet)
      ((s.afterResume t c k).line t) := by
  have hview := Deliver.view_afterResume s t c k
  have hphase : LinePhase.ofPc ((s.afterResume t c k).threads t).pc = .call k := by
    simp only [afterResume]
    split <;> rw [setThread_self] <;> rfl
  have hswitch : Deliver.switch (s.cos c).state = .yielding ↔ (s.cos c).state = .yielding := by
    cases (s.cos c).state <;> simp [Deliver.switch]
  have hmove := LineMove.comesBack k (s.line t).queues c ⟨(s.cos c).children, Deliver.switch (s.cos c).state⟩ _ rfl
  have hline : (s.afterResume t c k).line t = ⟨.call k, (s.line t).queues.resume (Handle.new c)
      ⟨(s.cos c).children, Deliver.switch (s.cos c).state⟩⟩ := by
    rw [line, hphase, hview]
    rfl
  simp only [hswitch] at hmove
  rw [hline]
  exact hmove

theorem move_deliverSpawned : LineMove ⟨.deliverSpawned, (s.line t).queues⟩ .quiet ((s.deliverSpawned t).line t) := by
  simp only [deliverSpawned]
  split
  · rename_i h rest hsp
    rw [line_callback, line_setThread, setThread_self]
    exact .popSpawned _ h rest hsp
  · rename_i hsp
    rw [line_setPc]
    exact .noSpawned _ hsp

theorem move_deliverReady (b : Bool) :
    LineMove ⟨.deliverReady b, (s.line t).queues⟩ .quiet ((s.deliverReady t b).line t) := by
  simp only [deliverReady]
  split
  · rename_i h rest hr
    rw [line_callback, line_setThread, setThread_self]
    exact .popReady _ b h rest hr
  · rename_i hr
    have hmove := LineMove.noReady (s.line t).queues b hr
    rw [line_setPc]
    cases b <;> exact hmove

theorem move_ready (r : Reg) (e : EventSet) :
    LineMove ⟨.outside, (s.line t).queues⟩ .quiet ((s.ready t r e).line t) := by
  unfold ready
  split
  · exact move_setPc rfl
  · split
    · split
      · exact move_panic _ _
      · exact move_setPc rfl
    · rw [line_setPc]
      exact .delivers _

theorem move_shutdownNext (hline : s.line t = ⟨.outside, (s.line t).queues⟩) (i last : Nat) :
    LineMove ⟨.outside, (s.line t).queues⟩ .quiet ((s.shutdownNext t i last).line t) := by
  unfold shutdownNext
  split
  · exact move_setPc rfl
  · split
    · rw [← hline]
      exact .stays _
    · exact (reaches_kill (.shutdown _ last)).move

theorem line_attach {id : Nat} (h : s.attach t id c = some s') : s'.line t = ⟨.outside, (s.line t).queues⟩ := by
  simp only [attach] at h
  split at h <;> cases h
  exact line_setThread _

theorem move_notify (hline : s.line t = ⟨.outside, (s.line t).queues⟩) {id : Nat} (h : s.notify t id = some s') :
    LineMove ⟨.outside, (s.line t).queues⟩ .quiet (s'.line t) := by
  simp only [notify] at h
  split at h
  · cases h
  · rename_i m rest _
    have hrest : ((s.setThread t { s.threads t with inbox := rest }).line t) = s.line t := line_setThread _
    cases m with
    | channelMsg r =>
      cases h
      have hmove := move_ready (s := s.setThread t { s.threads t with inbox := rest }) (t := t) r EventSet.ofReadable
      rwa [hrest] at hmove
    | migration c =>
      have hattach := line_attach h
      rw [hrest] at hattach
      rw [hattach]
      exact .stays _
    | propagatePanic =>
      cases h
      rw [line_panic, hrest]
      exact .panics _ _
    | shutdown =>
      cases h
      rw [line_setThread]
      exact .stays _
    | terminate =>
      cases h
      rw [line_setThread]
      have hsame : (⟨LinePhase.ofPc (s.threads t).pc, Deliver.view (s.threads t)⟩ : Line) = s.line t := rfl
      have hmove := LineMove.stays (s.line t)
      rw [← hline]
      exact hmove

theorem move_stopNext : LineMove ⟨.stopping, (s.line t).queues⟩
    (stopEvent (s.threads t).held (s.threads t).spawned (s.threads t).ready) ((s.stopNext t).line t) := by
  have hkill : ∀ (th : Thread fifo α) (c : Nat), ∃ p, (p = .stopping ∨ p = .ended) ∧
      ((s.setThread t th).kill t c .stopping).line t = ⟨p, Deliver.view th⟩ := by
    intro th c
    have hq : ((s.setThread t th).line t).queues = Deliver.view th := by rw [line_setThread]
    rcases reaches_kill (s := s.setThread t th) (t := t) (c := c) .stopping with h | h <;> rw [hq] at h
    · exact ⟨.stopping, .inl rfl, h⟩
    · exact ⟨.ended, .inr rfl, h⟩
  cases hh : (s.threads t).held with
  | cons h rest =>
    obtain ⟨p, hp, hl⟩ := hkill { s.threads t with held := rest } h.co
    have hstop : s.stopNext t = (s.setThread t { s.threads t with held := rest }).kill t h.co .stopping := by
      simp only [stopNext, hh]
    rw [hstop, hl]
    exact .dropsHeld _ h rest p hh hp
  | nil =>
    cases hs : (s.threads t).spawned with
    | cons h rest =>
      obtain ⟨p, hp, hl⟩ := hkill { s.threads t with spawned := rest } h.co
      have hstop : s.stopNext t = (s.setThread t { s.threads t with spawned := rest }).kill t h.co .stopping := by
        simp only [stopNext, hh, hs]
      rw [hstop, hl]
      exact .dropsSpawned _ h rest p hh hs hp
    | nil =>
      cases hr : (s.threads t).ready with
      | cons h rest =>
        obtain ⟨p, hp, hl⟩ := hkill { s.threads t with ready := rest } h.co
        have hstop : s.stopNext t = (s.setThread t { s.threads t with ready := rest }).kill t h.co .stopping := by
          simp only [stopNext, hh, hs, hr]
        rw [hstop, hl]
        exact .dropsReady _ h rest p hh hs hr hp
      | nil =>
        have hstop : s.stopNext t = s.setThread t { s.threads t with pc := .done, isOpen := false } := by
          simp only [stopNext, hh, hs, hr]
        rw [hstop, line_setThread]
        exact .panics _ _

theorem move_user {ret : Ret} (hpc : (s.threads t).pc = .exec c ret .user) {u : UserAct α}
    (h : s.user cfg t u = some s') : LineMove ⟨.ofRet ret, (s.line t).queues⟩ .quiet (s'.line t) := by
  simp only [user, hpc] at h
  cases u with
  | select l =>
    cases h
    rw [line_leave]
    exact .stays _
  | yieldNow =>
    cases h
    rw [line_leave]
    exact .stays _
  | spawn id =>
    simp only at h
    split at h <;> cases h
    rw [line_setThread]
    exact .stays _
  | shutdown =>
    cases h
    exact move_setPc rfl
  | finish res =>
    cases h
    simp only [finish]
    split
    · exact move_panic _ _
    · rw [line_setThread]
      exact .stays _

theorem move_notifyFrom (pc : Pc α) (n : Notify Reg Nat) :
    LineMove ⟨.ofPc pc, (s.line t).queues⟩ .quiet ((s.notifyFrom t pc n).line t) := by
  cases n with
  | nothing => exact move_setPc rfl
  | channelMsg l r =>
    simp only [notifyFrom]
    split
    · rw [line_send]
      exact move_setPc rfl
    · exact move_panic _ _
  | unwrapNone => exact move_panic _ _

theorem move_job {ret : Ret} {j : Job α} (h : s.job cfg t c ret j = some s') :
    LineMove ⟨.ofRet ret, (s.line t).queues⟩ .quiet (s'.line t) := by
  cases j with
  | user => cases h
  | shutdown l =>
    simp only [job] at h
    split at h <;> cases h
    · rw [line_send]
      exact move_setPc rfl
    · exact move_setPc rfl
  | terminate l res =>
    simp only [job] at h
    split at h
    · split at h <;> cases h
      · rw [line_terminates, line_send]
        exact move_setPc rfl
      · exact move_panic _ _
    · cases h
      exact move_setPc rfl
  | propagate =>
    cases h
    rw [line_send]
    exact move_setPc rfl
  | exit res =>
    simp only [job, exit] at h
    split at h
    · cases h
    · cases h
      rw [line_leave]
      exact .stays _
    · split at h
      · cases h
      · rename_i chan n _
        cases h
        exact move_notifyFrom (s := s.setChan (.join c) chan) (.exec c ret (.exit none)) n

theorem move_register {todo : List Src} {hit : Option (Event × Reg)} {next : AfterRegister}
    (hpc : (s.threads t).pc = .register c todo hit next) {due : Bool} {slot tick : Nat}
    (h : s.register t due slot tick = some s') :
    LineMove ⟨.ofAfterRegister next, (s.line t).queues⟩ .quiet (s'.line t) := by
  simp only [register, hpc] at h
  cases todo with
  | nil => cases h
  | cons src todo =>
    cases src with
    | recv ch =>
      cases h
      exact move_setPc rfl
    | timer n =>
      simp only at h
      split at h
      · cases h
        exact move_setPc rfl
      · split at h <;> cases h
        rw [line_setThread]
        exact .stays _
    | io n =>
      simp only at h
      split at h <;> cases h
      · rw [line_setThread]
        exact .stays _
      · exact move_panic _ _

theorem line_eq {pc : Pc α} (hpc : (s.threads t).pc = pc) : s.line t = ⟨.ofPc pc, (s.line t).queues⟩ := by
  rw [line, hpc]

/-- The default scheduler keeps what it holds. -/
theorem next_not_drop (th : FifoThread) (held : List Handle) (m i : Nat) : (th.next held m).1 ≠ .drop i := by
  unfold FifoThread.next
  split
  · exact fun h => by cases h
  · split <;> exact fun h => by cases h
  all_goals exact fun h => by cases h

theorem line_command_ret (k : Callback) : (s.command t k .ret).line t = ⟨.afterCall k, (s.line t).queues⟩ := by
  simp only [command]
  rw [line_setPc]
  cases k <;> rfl

theorem line_command_resume {k : Callback} {i : Nat} {h : Handle} (hi : (s.threads t).held[i]? = some h) :
    ∃ p, (p = .call k ∨ p = .ended) ∧ (s.command t k (.resume i)).line t =
      ⟨p, { (s.line t).queues with delayed := (s.threads t).held.eraseIdx i }⟩ := by
  simp only [command, hi]
  have hq : ((s.setThread t { s.threads t with held := (s.threads t).held.eraseIdx i }).line t).queues =
      { (s.line t).queues with delayed := (s.threads t).held.eraseIdx i } := by
    rw [line_setThread]
    rfl
  rcases reaches_jumpIn (s := s.setThread t { s.threads t with held := (s.threads t).held.eraseIdx i }) (t := t)
    (c := h.co) (.resumed k) with hl | hl <;> rw [hq] at hl
  · exact ⟨.call k, .inl rfl, hl⟩
  · exact ⟨.ended, .inr rfl, hl⟩

theorem line_command_migrate {k : Callback} {i j : Nat} {h : Handle} (hi : (s.threads t).held[i]? = some h) :
    (s.command t k (.migrate i j)).line t =
      ⟨.call k, { (s.line t).queues with delayed := (s.threads t).held.eraseIdx i }⟩ := by
  simp only [command, hi]
  exact line_setThread _

theorem move_sched {k : Callback} (hpc : (s.threads t).pc = .call k) {choice : Nat} (h : s.sched t choice = some s') :
    LineMove ⟨.call k, (s.line t).queues⟩ (s.threadEvent t (.sched choice)) (s'.line t) := by
  have hev : s.threadEvent t (.sched choice) =
      match ((s.threads t).sched.next (s.threads t).held s.shared).1 with
      | .ret => .returns k
      | .resume i => match (s.threads t).held[i]? with | some h => .resumes k h | none => .quiet
      | _ => .quiet := by
    simp only [threadEvent, hpc]
  obtain ⟨m, hline, hheld, hm⟩ : ∃ m : Instance fifo w α,
      (m.line t).queues = { (s.line t).queues with
        sched := ((s.threads t).sched.next (s.threads t).held s.shared).2 } ∧
      (m.threads t).held = (s.threads t).held ∧
      s' = m.command t k ((s.threads t).sched.next (s.threads t).held s.shared).1 := by
    simp only [Instance.sched, hpc, Option.some.injEq] at h
    refine ⟨_, ?_, ?_, h.symm⟩
    · rw [line_setThread]
      rfl
    · rw [setThread_self]
  rw [hev, hm]
  cases hcmd : ((s.threads t).sched.next (s.threads t).held s.shared).1 with
  | ret =>
    rw [line_command_ret, hline]
    exact .returns k (s.line t).queues s.shared hcmd
  | resume i =>
    cases hi : (s.threads t).held[i]? with
    | none =>
      simp only [hi]
      exact .strays k (s.line t).queues s.shared i _ (.inl hcmd) hi
    | some h =>
      obtain ⟨p, hp, hl⟩ := line_command_resume (k := k) (hheld.symm ▸ hi)
      rw [hl, hline, hheld]
      simp only [hi]
      exact .resumes k (s.line t).queues s.shared i h p hcmd hi hp
  | migrate i j =>
    cases hi : (s.threads t).held[i]? with
    | none => exact .strays k (s.line t).queues s.shared i _ (.inr ⟨j, hcmd⟩) hi
    | some h =>
      rw [line_command_migrate (hheld.symm ▸ hi), hline, hheld]
      exact .migrates k (s.line t).queues s.shared i j h hcmd hi
  | drop i => exact absurd hcmd (next_not_drop _ _ _ i)

/-- **Every step of a thread is a move of its line.** -/
theorem move_thread {a : ThreadAct α} (h : s.threadStep cfg t a = some s') :
    LineMove (s.line t) (s.threadEvent t a) (s'.line t) := by
  cases a with
  | start =>
    simp only [threadStep] at h
    split at h
    · rename_i hs
      cases h
      have hphase : (s.line t).phase = .starting := by
        rw [line]
        cases hpc : (s.threads t).pc <;> rw [hpc] at hs <;> first | rfl | cases hs.1
      rw [line_callback, line_setThread, setThread_self]
      exact .ticks _ _ _ (.inl hphase)
    · cases h
  | tick =>
    simp only [threadStep] at h
    split at h
    · rename_i hs
      cases h
      have hphase : (s.line t).phase = .outside := by
        rw [line]
        cases hpc : (s.threads t).pc <;> rw [hpc] at hs <;> first | rfl | cases hs.1
      rw [line_callback]
      exact .ticks _ _ _ (.inr hphase)
    · cases h
  | notify id =>
    simp only [threadStep] at h
    split at h
    · rename_i hs
      have hline : s.line t = ⟨.outside, (s.line t).queues⟩ := by
        cases hpc : (s.threads t).pc <;> rw [hpc] at hs <;> first | exact line_eq hpc | cases hs
      have hmove := move_notify hline h
      rw [← hline] at hmove
      exact hmove
    · cases h
  | ready =>
    simp only [threadStep] at h
    split at h
    · rename_i r e rest hpc _
      cases h
      have hline := line_eq hpc
      have hmove := move_ready (s := s.setThread t { s.threads t with batch := rest }) (t := t) r e
      rw [line_setThread] at hmove
      rw [hline]
      exact hmove
    · cases h
  | timeout slot =>
    simp only [threadStep] at h
    split at h
    · rename_i x r hpc _
      cases h
      have hline := line_eq hpc
      have hmove := move_ready (s := s.setThread t { s.threads t with
        wheel := Function.update (s.threads t).wheel slot none }) (t := t) r EventSet.ofReadable
      rw [line_setThread] at hmove
      rw [hline]
      exact hmove
    · cases h
  | stop =>
    simp only [threadStep] at h
    split at h
    · rename_i hs
      cases h
      have hline : s.line t = ⟨.outside, (s.line t).queues⟩ := by
        cases hpc : (s.threads t).pc <;> rw [hpc] at hs <;> first | exact line_eq hpc | cases hs.1
      rw [hline, line_setPc]
      exact .stops _
    · cases h
  | sched choice =>
    cases hpc : (s.threads t).pc with
    | call k =>
      rw [line_eq hpc]
      exact move_sched hpc h
    | _ => simp only [threadStep, Instance.sched, hpc] at h; cases h
  | register due slot tick =>
    cases hpc : (s.threads t).pc with
    | register c todo hit next =>
      rw [line_eq hpc]
      exact move_register hpc h
    | _ => simp only [threadStep, Instance.register, hpc] at h; cases h
  | user u =>
    by_cases hex : ∃ c ret, (s.threads t).pc = .exec c ret .user
    · obtain ⟨c, ret, hpc⟩ := hex
      rw [line_eq hpc]
      exact move_user hpc h
    · simp only [threadStep, Instance.user] at h
      split at h
      · rename_i c ret hpc
        exact absurd ⟨c, ret, hpc⟩ hex
      · cases h
  | next =>
    simp only [threadStep] at h
    split at h
    case h_3 c ret j hpc =>
      rw [line_eq hpc]
      simp only [threadEvent, hpc]
      exact move_job h
    all_goals cases h
    all_goals rename_i hpc; rw [line_eq hpc]; simp only [threadEvent, hpc]
    · exact move_deliverSpawned
    · exact move_deliverReady _
    · exact move_registered _ _
    · exact move_deregister hpc
    · exact move_afterResume _
    · exact move_shutdownNext (line_eq hpc) _ _
    · exact move_stopNext

/-- **Every step of an instance is a move of every line.** -/
theorem line_step {a : Action α} (t : Nat) (h : s.step cfg a = some s') :
    LineMove (s.line t) (s.event t a) (s'.line t) := by
  by_cases ha : ∃ b, a = .thread t b
  · obtain ⟨b, rfl⟩ := ha
    obtain ⟨-, -, h⟩ := step_thread h
    simp only [event, if_pos]
    exact move_thread h
  · have hev : s.event t a = .quiet := by
      cases a with
      | thread t' b => exact if_neg fun ht => ha ⟨b, by rw [ht]⟩
      | _ => rfl
    rw [hev, line_other (fun b hb => ha ⟨b, hb⟩) h]
    exact .stays _

end own

end Instance
end Mioco

import Mioco.InstanceChans
import Mioco.Ledger
/-!
# What a step does to the threads (src/thread.rs, src/coroutine.rs, src/mod.rs)

A step of an event-loop thread is a number of edits, of the thread itself, of what is not in the threads, and of the
queues it sends to; the thread may panic or end with them.  The functions of the source are taken apart here once; what
a step leaves alone, why a thread panics and which event loops are gone follow by induction on the edits.
-/
namespace Mioco

open Lib (System Slab)

namespace Pc
variable {α : Type}

/-- Control goes on: the thread neither panics nor begins to stop. -/
inductive Goes : Pc α → Pc α → Prop
  | stays (pc : Pc α) : Goes pc pc
  | leads {pc pc' : Pc α} : pc'.isPanicked = false → (pc'.isStopping = true → pc.isStopping = true) → Goes pc pc'

theorem Goes.stopping {pc pc' : Pc α} (h : Goes pc pc') : pc'.isStopping = true → pc.isStopping = true := by
  cases h with
  | stays => exact fun hs => hs
  | leads _ hs => exact hs

theorem Goes.panicked {pc pc' : Pc α} (h : Goes pc pc') {why : Panic} (hp : pc' = .panicked why) : pc = .panicked why := by
  cases h with
  | stays => exact hp
  | leads hno _ =>
    rw [hp] at hno
    cases hno

end Pc

namespace Instance
variable {S : Sched} {w : Nat} {α : Type} {s m s' : Instance S w α} {t c : Nat} {cfg : Config} {P : Panic → Prop}
  {bound : Nat → Option Nat}

/-- The event loop `exit_sender` notifies in its next step, if it does. -/
def exitLoop (s : Instance S w α) (c : Nat) (res : Option (ExitStatus α)) : Option Nat :=
  match ((s.chans (.join c)).senders[0]? : Option (SenderPc w (ExitStatus α))) with
  | none => none
  | some pc =>
    match (s.chans (.join c)).senderStep 0 (exitAct res pc) with
    | some (_, .channelMsg l _) => some l
    | _ => none

/-- An event or a message for registration `r` finds a coroutine that waits. -/
def wakes (s : Instance S w α) (t : Nat) (r : Reg) : Bool :=
  ((s.threads t).coroutines.get (tokenToIds r.token).1).any fun c => decide ((s.cos c).state = .blocked)

/-- **Why thread `t` panics in a step**, handles apart. -/
inductive Raises (cfg : Config) (s : Instance S w α) (t : Nat) : ThreadAct α → Panic → Prop
  | slabRemove (a : ThreadAct α) : Raises cfg s t a .slabRemove
  | strayHandle (a : ThreadAct α) : Raises cfg s t a .strayHandle
  | noSuchThread (c : Nat) (k : Callback) (l : Nat) : (s.threads t).pc = .deregister c (.migrate k l) →
      cfg.threadNum ≤ l → Raises cfg s t .next (.noSuchThread c)
  | notAttached (c : Nat) (k : Callback) (l : Nat) : (s.threads t).pc = .deregister c (.migrate k l) →
      (s.threads l).isOpen = false → Raises cfg s t .next (.notAttached c)
  | terminate (c : Nat) (ret : Ret) (i : Nat) (res : ExitStatus α) : (s.threads t).pc = .exec c ret (.terminate i res) →
      i < cfg.threadNum → (s.threads i).isOpen = false → Raises cfg s t .next .closedLoop
  | exit (c : Nat) (ret : Ret) (res : Option (ExitStatus α)) (l : Nat) : (s.threads t).pc = .exec c ret (.exit res) →
      s.exitLoop c res = some l → (s.threads l).isOpen = false → Raises cfg s t .next .closedLoop
  | noSender (c : Nat) (ret : Ret) (res : Option (ExitStatus α)) (pc : SenderPc w (ExitStatus α))
      (chan : Chan w (ExitStatus α) Reg Nat) : (s.threads t).pc = .exec c ret (.exit res) →
      (s.chans (.join c)).senderStep 0 (exitAct res pc) = some (chan, .unwrapNone) → Raises cfg s t .next .noSender
  | emptyEvent (r : Reg) (e : EventSet) (rest : List (Reg × EventSet)) : (s.threads t).batch = (r, e) :: rest →
      s.wakes t r = true → e.rw = none → Raises cfg s t .ready .emptyEvent
  | register (c n : Nat) (todo : List Src) (hit : Option (Event × Reg)) (next : AfterRegister) (due : Bool)
      (slot tick : Nat) : (s.threads t).pc = .register c (.io n :: todo) hit next → ((s.threads t).ios n).isNone = false →
      Raises cfg s t (.register due slot tick) .mioFailed
  | deregister (c n : Nat) (rest : List Src) (next : AfterDeregister) : (s.threads t).pc = .deregister c next →
      (s.cos c).blockedOn = .io n :: rest → ((s.threads t).ios n).isSome = false → Raises cfg s t .next .mioFailed
  | propagated (id : Nat) (rest : List Message) : (s.threads t).inbox = .propagatePanic :: rest →
      Raises cfg s t (.notify id) .propagated

/-- One edit in a step of thread `t`; no message is taken, and the thread does not begin to stop. -/
inductive Edit (t : Nat) (s : Instance S w α) : Instance S w α → Prop
  | rest {m : Instance S w α} : m.threads = s.threads → Edit t s m
  | own {m : Instance S w α} {th : Thread S α} : m.threads = s.threads → th.inbox = (s.threads t).inbox →
      th.isOpen = (s.threads t).isOpen →
      (0 < (s.threads t).coroutines.slots.length → 0 < th.coroutines.slots.length) →
      (s.threads t).pc.Goes th.pc → Edit t s (m.setThread t th)
  | send (l : Nat) (msg : Message) : Edit t s (s.send l msg)
  | terminates (l n : Nat) : Edit t s (s.setThread l { s.threads l with terminates := n })
  | reports (l : Nat) (batch : List (Reg × EventSet)) : Edit t s (s.setThread l { s.threads l with batch := batch })

/-- **The edits of a step**, in which thread `t` panics for a reason in `P` only; its event loop is dropped last, if it
is. -/
inductive Edits (P : Panic → Prop) (t : Nat) : Instance S w α → Instance S w α → Prop
  | done (s : Instance S w α) : Edits P t s s
  | edit {s m s' : Instance S w α} : Edit t s m → Edits P t m s' → Edits P t s s'
  | panics (s : Instance S w α) {why : Panic} : P why → Edits P t s (s.panic t why)
  | ends (s : Instance S w α) : (s.threads t).pc.isStopping = true →
      Edits P t s (s.setThread t { s.threads t with pc := .done, isOpen := false })

theorem Edits.after (h' : Edits P t m s') (h : Edit t s m) : Edits P t s s' := .edit h h'

theorem Edit.edits (h : Edit t s m) : Edits P t s m := .edit h (.done m)

theorem edit_own (hm : m.threads = s.threads) {th : Thread S α} (hin : th.inbox = (s.threads t).inbox)
    (ho : th.isOpen = (s.threads t).isOpen) (hco : th.coroutines = (s.threads t).coroutines)
    (hpc : (s.threads t).pc.Goes th.pc) : Edit t s (m.setThread t th) :=
  .own hm hin ho (fun hr => hco ▸ hr) hpc

/-- Thread `t` goes somewhere; its handles, its tables and its scheduler's state may change. -/
theorem edits_goes (hm : m.threads = s.threads) {th : Thread S α} (hin : th.inbox = (s.threads t).inbox)
    (ho : th.isOpen = (s.threads t).isOpen) (hco : th.coroutines = (s.threads t).coroutines)
    (hp : th.pc.isPanicked = false) (hpc : th.pc.isStopping = false) : Edits P t s (m.setThread t th) :=
  (edit_own hm hin ho hco (.leads hp (fun hs => by rw [hpc] at hs; cases hs))).edits

theorem edits_setPc {pc : Pc α} (hp : pc.isPanicked = false)
    (h : pc.isStopping = true → (s.threads t).pc.isStopping = true) :
    Edits P t s (s.setPc t pc) := by
  refine Edit.edits (m := s.setPc t pc) ?_
  exact edit_own (by constructor) (by constructor) (by constructor) (by constructor) (.leads hp h)

/-- It goes nowhere. -/
theorem edit_keep (hm : m.threads = s.threads) {th : Thread S α} (hin : th.inbox = (s.threads t).inbox)
    (ho : th.isOpen = (s.threads t).isOpen) (hco : th.coroutines = (s.threads t).coroutines)
    (hpc : th.pc = (s.threads t).pc) : Edit t s (m.setThread t th) := by
  refine edit_own hm hin ho hco ?_
  rw [hpc]
  exact .stays _

theorem edits_leave (hm : m.threads = s.threads) {ret : Ret}
    (h : ret = .stopping → (s.threads t).pc.isStopping = true) : Edits P t s (m.leave t c ret) := by
  refine Edits.after ?_ (.rest hm)
  cases ret with
  | stopping => exact edits_setPc rfl (fun _ => by rw [hm]; exact h rfl)
  | _ => exact edits_setPc rfl (fun hs => by cases hs)

theorem edits_jumpIn (hP : P .strayHandle) {ret : Ret} (h : ret = .stopping → (s.threads t).pc.isStopping = true) :
    Edits P t s (s.jumpIn t c ret) := by
  unfold jumpIn
  split
  · exact edits_leave rfl h
  · split
    · refine Edits.after (edits_setPc rfl (fun hs => h ?_)) (.rest rfl)
      cases ret <;> first | rfl | cases hs
    · exact .panics s hP

theorem edits_kill (hP : P .strayHandle) {ret : Ret} (h : ret = .stopping → (s.threads t).pc.isStopping = true) :
    Edits P t s (s.kill t c ret) := by
  have hjump : Edits P t (s.setCo c { s.cos c with killed := true }) (s.kill t c ret) := edits_jumpIn hP h
  exact hjump.after (.rest rfl)

theorem edits_callback (k : Callback) (h : Option Handle) : Edits P t s (s.callback t k h) := by
  apply edits_goes <;> constructor

theorem Flow.edits (h : Flow t s s') (hP : P .strayHandle) : Edits P t s s' := by
  induction h with
  | stays s _ => exact .done s
  | goes s held spawned ready sched pc hpc =>
    refine edits_goes (m := s) rfl rfl rfl rfl ?_ ?_ <;> cases pc <;> first | rfl | cases hpc
  | jumps s c k => exact edits_jumpIn hP (fun hr => by cases hr)
  | kills s c ret hret => exact edits_kill hP (fun hr => by rw [hret hr]; rfl)
  | ends s hpc => exact .ends s (by rw [hpc]; rfl)
  | moves _ _ _ _ ih => exact ih.after (edit_keep rfl rfl rfl rfl rfl)

theorem edits_registered (hP : P .strayHandle) (hit : Option (Event × Reg)) (next : AfterRegister) :
    Edits P t s (s.registered t c hit next) := by
  cases hit with
  | none => exact (afterRegister_flow s t c next).edits hP
  | some hit => apply edits_goes <;> constructor

theorem edits_clearTimeout (hm : m.threads = s.threads) (timeout : Option (Nat × Nat)) :
    Edits P t s (m.clearTimeout t timeout) := by
  refine Edits.after ?_ (.rest hm)
  cases timeout with
  | none => exact .done m
  | some e =>
    obtain ⟨slot, tick⟩ := e
    simp only [clearTimeout]
    split
    · refine Edit.edits ?_
      apply edit_keep <;> constructor
    · exact .done m

theorem edits_deregisterSrc (hm : m.threads = s.threads) {src : Src}
    (hP : ∀ n, src = .io n → ((s.threads t).ios n).isSome = false → P .mioFailed) :
    Edits P t s (m.deregisterSrc t src) := by
  cases src with
  | recv ch => exact Edit.edits (.rest hm)
  | timer n => exact edits_clearTimeout hm _
  | io n =>
    refine Edits.after ?_ (.rest hm)
    simp only [deregisterSrc]
    split
    · refine Edit.edits ?_
      apply edit_keep <;> constructor
    · rename_i hnone
      rw [hm] at hnone
      exact .panics m (hP n rfl (by simpa using hnone))

theorem edits_detach (hremove : P .slabRemove) (hstray : P .strayHandle) (k : Callback) {l : Nat}
    (hsuch : cfg.threadNum ≤ l → P (.noSuchThread c)) (hopen : (s.threads l).isOpen = false → P (.notAttached c)) :
    Edits P t s (s.detach cfg t c k l) := by
  simp only [detach]
  split
  · split
    · exact Edits.after (.panics _ hremove) (.rest rfl)
    · rename_i slab hslab
      have hmid : Edit t s ((s.setCo c { s.cos c with handler := none }).setThread t
          { s.threads t with coroutines := slab, pc := .call k }) := by
        refine .own rfl rfl rfl (fun hr => ?_) (.leads rfl (fun hs => by cases hs))
        rw [(Slab.remove_some hslab).2.2.2]
        exact hr
      split
      · exact Edits.after (.panics _ (hsuch ‹_›)) hmid
      · split
        · exact Edits.after (Edit.edits (.send _ _)) hmid
        · rename_i hclosed
          refine Edits.after (.panics _ (hopen ?_)) hmid
          rw [threads_setThread] at hclosed
          split at hclosed
          · rename_i hlt
            rw [hlt]
            simpa using hclosed
          · simpa using hclosed
  · exact .panics s hstray

theorem edits_deregister (hremove : P .slabRemove) (hstray : P .strayHandle) {next : AfterDeregister}
    (hio : ∀ n rest, (s.cos c).blockedOn = .io n :: rest → ((s.threads t).ios n).isSome = false → P .mioFailed)
    (hsuch : ∀ k l, next = .migrate k l → cfg.threadNum ≤ l → P (.noSuchThread c))
    (hopen : ∀ k l, next = .migrate k l → (s.threads l).isOpen = false → P (.notAttached c)) :
    Edits P t s (s.deregister cfg t c next) := by
  unfold deregister
  split
  · rename_i src rest hb
    refine edits_deregisterSrc (by constructor) (fun n hsrc => hio n rest ?_)
    rw [hb, hsrc]
  · cases next with
    | event => exact edits_callback _ _
    | woken next => exact (afterRegister_flow s t c next).edits hstray
    | migrate k l => exact edits_detach hremove hstray k (hsuch k l rfl) (hopen k l rfl)

theorem edits_afterResume (k : Callback) : Edits P t s (s.afterResume t c k) := by
  simp only [afterResume]
  split <;> apply edits_goes <;> constructor

theorem edits_ready {r : Reg} {e : EventSet} (hP : s.wakes t r = true → e.rw = none → P .emptyEvent) :
    Edits P t s (s.ready t r e) := by
  unfold ready
  split
  · exact edits_setPc rfl (fun hs => by cases hs)
  · rename_i c hget
    split
    · rename_i hb
      split
      · rename_i hrw
        refine .panics s (hP ?_ hrw)
        rw [wakes, hget, Option.any_some, decide_eq_true hb]
      · apply edits_goes <;> constructor
    · exact edits_setPc rfl (fun hs => by cases hs)

theorem grown_length {slab : Slab startingId Nat} (h : 0 < slab.slots.length) : 0 < (grown slab).slots.length := by
  unfold grown
  split
  · exact h
  · rw [Slab.grow, List.length_append]
    omega

theorem insert_length {slab slab' : Slab startingId Nat} {id : Nat} (h : (grown slab).insertAt id c = some slab')
    (hl : 0 < slab.slots.length) : 0 < slab'.slots.length := by
  rw [(Slab.insertAt_some h).2.2.2]
  exact grown_length hl

theorem stopping_exec {ret : Ret} {j : Job α} (hpc : (s.threads t).pc = .exec c ret j) :
    (s.threads t).pc.isStopping = true ↔ ret = .stopping := by
  rw [hpc]
  cases ret <;> simp

theorem goes_exec {ret : Ret} {j : Job α} (hpc : (s.threads t).pc = .exec c ret j) (j' : Job α) :
    (s.threads t).pc.Goes (.exec c ret j') := by
  refine .leads rfl (fun hs => (stopping_exec hpc).2 ?_)
  cases ret <;> first | rfl | cases hs

theorem edit_exec (hm : m.threads = s.threads) {ret : Ret} {j : Job α} (j' : Job α)
    (hpc : (s.threads t).pc = .exec c ret j) : Edit t s (m.setPc t (.exec c ret j')) := by
  unfold setPc
  rw [hm]
  exact edit_own hm rfl rfl rfl (goes_exec hpc j')

theorem edits_finish (hP : P .slabRemove) {ret : Ret} {res : ExitStatus α} (hpc : (s.threads t).pc = .exec c ret .user) :
    Edits P t s (s.finish cfg t c ret res) := by
  simp only [finish]
  split
  · exact Edits.after (.panics _ hP) (.rest rfl)
  · rename_i slab hslab
    refine Edit.edits (.own rfl rfl rfl (fun hr => ?_) (goes_exec hpc _))
    rw [(Slab.remove_some hslab).2.2.2]
    exact hr

theorem edits_user (hP : P .slabRemove) {u : UserAct α} (h : s.user cfg t u = some s') : Edits P t s s' := by
  simp only [user] at h
  split at h
  · rename_i c ret hpc
    cases u with
    | select l =>
      cases h
      exact edits_leave (by constructor) (fun hr => (stopping_exec hpc).2 hr)
    | yieldNow =>
      cases h
      exact edits_leave (by constructor) (fun hr => (stopping_exec hpc).2 hr)
    | spawn id =>
      simp only at h
      split at h <;> cases h
      rename_i slab hslab
      exact Edit.edits (.own rfl rfl rfl (insert_length hslab) (.stays _))
    | shutdown =>
      cases h
      exact Edit.edits (edit_exec (by constructor) _ hpc)
    | finish res =>
      cases h
      exact edits_finish hP hpc
  · cases h

theorem edits_exit {ret : Ret} {res : Option (ExitStatus α)} (hpc : (s.threads t).pc = .exec c ret (.exit res))
    (hclosed : ∀ l, s.exitLoop c res = some l → (s.threads l).isOpen = false → P .closedLoop)
    (hnone : ∀ (pc : SenderPc w (ExitStatus α)) chan,
      (s.chans (.join c)).senderStep 0 (exitAct res pc) = some (chan, .unwrapNone) → P .noSender)
    (h : s.exit t c ret res = some s') : Edits P t s s' := by
  unfold exit at h
  split at h
  · cases h
  · cases h
    exact edits_leave (by constructor) (fun hr => (stopping_exec hpc).2 hr)
  · rename_i pc _ hpc0
    split at h
    · cases h
    · rename_i chan n hstep
      cases h
      have hpc' : ((s.setChan (.join c) chan).threads t).pc = .exec c ret (.exit res) := hpc
      refine Edits.after (m := s.setChan (.join c) chan) ?_ (.rest rfl)
      unfold notifyFrom
      split
      · exact (edit_exec rfl _ hpc').edits
      · rename_i l r
        split
        · exact Edits.after (Edit.edits (.send _ _)) (edit_exec rfl _ hpc')
        · rename_i hopen
          refine .panics _ (hclosed l ?_ (Bool.eq_false_of_not_eq_true hopen))
          rw [exitLoop, hpc0]
          simp only [hstep]
      · exact .panics _ (hnone pc chan hstep)

theorem edits_job {ret : Ret} {j : Job α} (hpc : (s.threads t).pc = .exec c ret j)
    (hterm : ∀ i res, j = .terminate i res → i < cfg.threadNum → (s.threads i).isOpen = false → P .closedLoop)
    (hclosed : ∀ res l, j = .exit res → s.exitLoop c res = some l → (s.threads l).isOpen = false → P .closedLoop)
    (hnone : ∀ res (pc : SenderPc w (ExitStatus α)) chan, j = .exit res →
      (s.chans (.join c)).senderStep 0 (exitAct res pc) = some (chan, .unwrapNone) → P .noSender)
    (h : s.job cfg t c ret j = some s') : Edits P t s s' := by
  cases j with
  | user => cases h
  | shutdown i =>
    simp only [job] at h
    split at h <;> cases h
    · exact Edits.after (Edit.edits (.send _ _)) (edit_exec rfl _ hpc)
    · exact Edit.edits (edit_exec (by constructor) _ hpc)
  | terminate i res =>
    simp only [job] at h
    split at h
    · rename_i hi
      split at h <;> cases h
      · exact Edits.after (Edits.after (Edit.edits (.terminates _ _)) (.send _ _)) (edit_exec rfl _ hpc)
      · rename_i hopen
        exact .panics s (hterm i res rfl hi (by simpa using hopen))
    · cases h
      exact Edit.edits (edit_exec (by constructor) _ hpc)
  | propagate =>
    cases h
    exact Edits.after (Edit.edits (.send _ _)) (edit_exec rfl _ hpc)
  | exit res => exact edits_exit hpc (fun l => hclosed res l rfl) (fun pc chan => hnone res pc chan rfl) h

theorem edits_register {due : Bool} {slot tick : Nat} (h : s.register t due slot tick = some s') :
    Edits (s.Raises cfg t (.register due slot tick)) t s s' := by
  simp only [register] at h
  split at h
  · rename_i c src todo hit next hpc
    split at h
    · cases h
      apply edits_goes <;> constructor
    · split at h
      · cases h
        exact edits_setPc rfl (fun hs => by cases hs)
      · split at h <;> cases h
        apply edits_goes <;> constructor
    · rename_i n
      split at h <;> cases h
      · apply edits_goes <;> constructor
      · rename_i hsome
        exact .panics s (.register c n todo hit next due slot tick hpc (Bool.eq_false_of_not_eq_true hsome))
  · cases h

/-- `Handler::notify` takes a message, and goes on from there. -/
theorem edits_notify (hP : ∀ rest, (s.threads t).inbox = .propagatePanic :: rest → P .propagated) {id : Nat}
    (h : s.notify t id = some s') : ∃ msg rest, (s.threads t).inbox = msg :: rest ∧
    Edits P t (s.setThread t { s.threads t with inbox := rest }) s' ∧
      (msg = .shutdown → (s'.threads t).isShuttingDown = true) ∧
        (msg = .propagatePanic → ∃ why, (s'.threads t).pc = .panicked why) := by
  simp only [notify] at h
  split at h
  · cases h
  · rename_i msg rest hin
    refine ⟨msg, rest, hin, ?_⟩
    cases msg with
    | channelMsg r =>
      cases h
      exact ⟨edits_ready (fun _ hrw => by cases hrw), (by simp), (by simp)⟩
    | migration c =>
      simp only [attach] at h
      split at h
      · rename_i slab hslab
        cases h
        exact ⟨Edit.edits (.own rfl rfl rfl (insert_length hslab) (.leads rfl (fun hs => by cases hs))), (by simp), (by simp)⟩
      · cases h
    | propagatePanic =>
      cases h
      exact ⟨.panics _ (hP rest hin), (by simp), fun _ => ⟨.propagated, by rw [panic, setThread_self]⟩⟩
    | shutdown =>
      cases h
      refine ⟨Edit.edits (.own rfl ?_ ?_ ?_ (.leads rfl (fun hs => by cases hs))), fun _ => by rw [setThread_self], (by simp)⟩
      all_goals rw [setThread_self]
      exact fun hr => hr
    | terminate =>
      cases h
      refine ⟨Edit.edits (.own rfl ?_ ?_ ?_ ?_), (by simp), (by simp)⟩
      all_goals rw [setThread_self]
      · exact fun hr => hr
      · exact .stays _

theorem edits_next (h : s.threadStep cfg t .next = some s') : Edits (s.Raises cfg t .next) t s s' := by
  simp only [threadStep] at h
  split at h
  · cases h
    exact (deliverSpawned_flow s t).edits (.strayHandle _)
  · cases h
    exact (deliverReady_flow s t _).edits (.strayHandle _)
  · rename_i c ret j hpc
    refine edits_job hpc (fun i res hj => ?_) (fun res l hj => ?_) (fun res pc chan hj => ?_) h
    · exact .terminate c ret i res (hj ▸ hpc)
    · exact .exit c ret res l (hj ▸ hpc)
    · exact .noSender c ret res pc chan (hj ▸ hpc)
  · cases h
    exact edits_registered (.strayHandle _) _ _
  · rename_i c next hpc
    cases h
    refine edits_deregister (.slabRemove _) (.strayHandle _) (fun n rest => .deregister c n rest next hpc) (fun k l hn => ?_)
      (fun k l hn => ?_)
    · exact .noSuchThread c k l (hn ▸ hpc)
    · exact .notAttached c k l (hn ▸ hpc)
  · cases h
    exact edits_afterResume _
  · rename_i hpc
    cases h
    exact (shutdownNext_flow s t hpc).edits (.strayHandle _)
  · rename_i hpc
    cases h
    exact (stopNext_flow s t hpc).edits (.strayHandle _)
  · cases h

/-- A thread takes a message in `notify`, and there only; `run_once` returns in `stop`. -/
theorem edits_thread {a : ThreadAct α} (ha : a ≠ .stop) (hn : ∀ id, a ≠ .notify id) (h : s.threadStep cfg t a = some s') :
    Edits (s.Raises cfg t a) t s s' := by
  cases a with
  | start =>
    simp only [threadStep] at h
    split at h <;> cases h
    refine (edits_callback _ _).after ?_
    apply edit_keep <;> constructor
  | tick =>
    simp only [threadStep] at h
    split at h <;> cases h
    exact edits_callback _ _
  | notify id => exact (hn id rfl).elim
  | ready =>
    simp only [threadStep] at h
    split at h <;> cases h
    rename_i r e rest hpc hb
    refine (edits_ready (fun hwakes => ?_)).after (edit_keep rfl rfl rfl rfl rfl)
    refine .emptyEvent r e rest hb ?_
    rw [wakes, setThread_self] at hwakes
    exact hwakes
  | timeout slot =>
    simp only [threadStep] at h
    split at h <;> cases h
    exact (edits_ready (fun _ hrw => by cases hrw)).after (edit_keep rfl rfl rfl rfl rfl)
  | stop => exact (ha rfl).elim
  | sched choice =>
    simp only [threadStep, sched] at h
    split at h <;> cases h
    refine ((command_flow _ t _ _).edits (.strayHandle _)).after ?_
    apply edit_keep <;> constructor
  | register due slot tick => exact edits_register h
  | user u => exact edits_user (.slabRemove _) h
  | next => exact edits_next h

/-- The senders, the receivers and the operating system. -/
theorem edits_outside {a : Action α} (ha : ∀ t b, a ≠ .thread t b) (h : s.step cfg a = some s') (t : Nat) :
    Edits P t s s' := by
  cases a with
  | thread t' b => exact (ha t' b rfl).elim
  | sender n i b =>
    obtain ⟨chan, out, -, rfl | ⟨l, r, -, rfl⟩⟩ := senderStep_some h
    · exact Edit.edits (.rest rfl)
    · exact Edits.after (m := s.setChan (.user n) chan) (Edit.edits (.send l _)) (.rest rfl)
  | receiver ch b =>
    obtain ⟨chan, taken, n, rfl, -⟩ := receiverStep_some h
    exact Edit.edits (.rest rfl)
  | ioReady i n e =>
    obtain ⟨r, -, rfl⟩ := step_ioReady h
    exact Edit.edits (.reports i _)

/-- Before its edits a thread takes a message, or `run_once` returns. -/
theorem thread_edits {a : ThreadAct α} (h : s.threadStep cfg t a = some s') : ∃ inbox pc,
    (pc = (s.threads t).pc ∨ pc = .stopping) ∧
      Edits (s.Raises cfg t a) t (s.setThread t { s.threads t with inbox := inbox, pc := pc }) s' := by
  by_cases hstop : a = .stop
  · subst hstop
    simp only [threadStep] at h
    split at h <;> cases h
    exact ⟨(s.threads t).inbox, .stopping, .inr rfl, .done _⟩
  · by_cases hn : ∃ id, a = .notify id
    · obtain ⟨id, rfl⟩ := hn
      simp only [threadStep] at h
      split at h
      · obtain ⟨msg, rest, hin, hedits, -⟩ :=
          edits_notify (P := s.Raises cfg t (.notify id)) (fun rest => .propagated id rest) h
        exact ⟨rest, (s.threads t).pc, .inl rfl, hedits⟩
      · cases h
    · refine ⟨(s.threads t).inbox, (s.threads t).pc, .inl rfl, ?_⟩
      have hsame : s.setThread t { s.threads t with inbox := (s.threads t).inbox, pc := (s.threads t).pc } = s :=
        setThread_eq s t
      rw [hsame]
      exact edits_thread hstop (fun id he => hn ⟨id, he⟩) h

/-! ## The other threads -/

/-- All that happens to a thread while it takes no step: messages are sent to it, and mio has something to report. -/
def Told (th th' : Thread S α) : Prop :=
  ∃ inbox batch n, th' = { th with inbox := inbox, batch := batch, terminates := n }

theorem Told.refl (th : Thread S α) : Told th th := ⟨th.inbox, th.batch, th.terminates, rfl⟩

theorem Told.trans {th th' th'' : Thread S α} (h : Told th th') (h' : Told th' th'') : Told th th'' := by
  obtain ⟨inbox, batch, n, rfl⟩ := h
  obtain ⟨inbox', batch', n', rfl⟩ := h'
  exact ⟨inbox', batch', n', rfl⟩

theorem Told.pc {th th' : Thread S α} (h : Told th th') : th'.pc = th.pc := by
  obtain ⟨inbox, batch, n, rfl⟩ := h
  rfl

theorem told_setThread {l i : Nat} {th : Thread S α} (h : i = l → Told (s.threads l) th) :
    Told (s.threads i) ((s.setThread l th).threads i) := by
  rw [threads_setThread]
  split
  · rename_i hi
    exact hi ▸ h hi
  · exact .refl _

theorem Edit.told (h : Edit t s m) {i : Nat} (hi : i ≠ t) : Told (s.threads i) (m.threads i) := by
  cases h with
  | rest hm =>
    rw [hm]
    exact .refl _
  | own hm _ _ _ _ =>
    rw [setThread_ne _ _ hi, hm]
    exact .refl _
  | send l msg => exact told_setThread (fun _ => ⟨_, _, _, rfl⟩)
  | terminates l n => exact told_setThread (fun _ => ⟨_, _, _, rfl⟩)
  | reports l batch => exact told_setThread (fun _ => ⟨_, _, _, rfl⟩)

theorem Edits.told (h : Edits P t s s') {i : Nat} (hi : i ≠ t) : Told (s.threads i) (s'.threads i) := by
  induction h with
  | done s => exact .refl _
  | edit h _ ih => exact (h.told hi).trans ih
  | panics s _ => exact told_setThread (fun he => (hi he).elim)
  | ends s _ => exact told_setThread (fun he => (hi he).elim)

/-- **A step that is not one of thread `i`** only tells it something. -/
theorem step_told {a : Action α} {i : Nat} (ha : ∀ b, a ≠ .thread i b) (h : s.step cfg a = some s') :
    Told (s.threads i) (s'.threads i) := by
  by_cases hth : ∃ t b, a = .thread t b
  · obtain ⟨t, b, rfl⟩ := hth
    have hi : i ≠ t := by
      rintro rfl
      exact ha b rfl
    obtain ⟨-, -, hb⟩ := step_thread h
    obtain ⟨inbox, pc, -, hedits⟩ := thread_edits hb
    exact (told_setThread (fun he => (hi he).elim)).trans (hedits.told hi)
  · have hedits : Edits (fun _ => False) (i + 1) s s' := edits_outside (fun t b hb => hth ⟨t, b, hb⟩) h (i + 1)
    exact hedits.told (by omega)

/-! ## Why a thread panics -/

/-- No edit makes a thread panic. -/
theorem Edit.panicked (h : Edit t s m) {i : Nat} {why : Panic} (hp : (m.threads i).pc = .panicked why) :
    (s.threads i).pc = .panicked why := by
  cases h with
  | rest hm =>
    rw [hm] at hp
    exact hp
  | own hm _ _ _ hpc =>
    rw [threads_setThread, hm] at hp
    split at hp
    · rename_i hi
      rw [hi]
      exact hpc.panicked hp
    · exact hp
  | send l msg =>
    rw [threads_send] at hp
    exact hp
  | terminates l n | reports l batch =>
    rw [threads_setThread] at hp
    split at hp
    · rename_i hi
      rw [hi]
      exact hp
    · exact hp

theorem Edits.raised (h : Edits P t s s') {i : Nat} {why : Panic} (hp : (s'.threads i).pc = .panicked why) :
    (s.threads i).pc = .panicked why ∨ i = t ∧ P why := by
  induction h with
  | done s => exact .inl hp
  | edit h _ ih => exact (ih hp).imp_left h.panicked
  | panics s hP =>
    rw [panic, threads_setThread] at hp
    split at hp
    · rename_i hi
      cases hp
      exact .inr ⟨hi, hP⟩
    · exact .inl hp
  | ends s _ =>
    rw [threads_setThread] at hp
    split at hp
    · cases hp
    · exact .inl hp

/-- **A thread panics for one of the reasons listed.** -/
theorem step_raises {a : Action α} (h : s.step cfg a = some s') {i : Nat} {why : Panic}
    (hp : (s'.threads i).pc = .panicked why) :
    (s.threads i).pc = .panicked why ∨ ∃ b, a = .thread i b ∧ s.Raises cfg i b why := by
  by_cases ha : ∃ t b, a = .thread t b
  · obtain ⟨t, b, rfl⟩ := ha
    obtain ⟨-, -, hth⟩ := step_thread h
    obtain ⟨inbox, pc, hpc, hedits⟩ := thread_edits hth
    rcases hedits.raised hp with hp | ⟨rfl, hr⟩
    · rw [threads_setThread] at hp
      split at hp
      · rename_i hi
        rcases hpc with rfl | rfl
        · exact .inl (hi ▸ hp)
        · cases hp
      · exact .inl hp
    · exact .inr ⟨b, rfl, hr⟩
  · have hedits : Edits (fun _ => False) 0 s s' := edits_outside (fun t b hb => ha ⟨t, b, hb⟩) h 0
    exact (hedits.raised hp).imp_right (fun hr => hr.2.elim)

/-! ## The event loops -/

/-- No event loop is dropped but that of thread `t`, which ends with it. -/
theorem Edits.loops (h : Edits P t s s') (i : Nat) :
    (s'.threads i).isOpen = (s.threads i).isOpen ∨ i = t ∧ (s'.threads t).pc.isEnded = true := by
  induction h with
  | done s => exact .inl rfl
  | @edit s m s' h _ ih =>
    have hsame : (m.threads i).isOpen = (s.threads i).isOpen := by
      cases h with
      | rest hm => rw [hm]
      | own hm _ ho _ _ =>
        rw [threads_setThread]
        split
        · rename_i hi
          rw [ho, hi]
        · rw [hm]
      | send l msg => rw [threads_send]
      | terminates l n | reports l batch =>
        rw [threads_setThread]
        split
        · rename_i hi
          rw [hi]
        · rfl
    exact ih.imp_left (fun ho => ho.trans hsame)
  | panics s _ | ends s _ =>
    by_cases hi : i = t
    · exact .inr ⟨hi, by simp only [panic, setThread_self, Pc.isEnded]⟩
    · exact .inl (by simp only [panic, setThread_ne _ _ hi])

theorem threadStep_ended {a : ThreadAct α} (hpc : (s.threads t).pc.isEnded = true) : s.threadStep cfg t a = none := by
  cases hp : (s.threads t).pc <;> rw [hp] at hpc <;> cases hpc
  · cases a <;> simp [threadStep, sched, register, user, hp, Pc.isStarting, Pc.isPoll]
  · exact threadStep_panicked (by rw [hp]; rfl)

/-- **No event loop is dropped** but that of a thread that ends. -/
theorem step_loops {a : Action α} (h : s.step cfg a = some s') (i : Nat) :
    (s'.threads i).isOpen = (s.threads i).isOpen ∨ (s'.threads i).pc.isEnded = true := by
  by_cases ha : ∃ b, a = .thread i b
  · obtain ⟨b, rfl⟩ := ha
    obtain ⟨-, -, hb⟩ := step_thread h
    obtain ⟨inbox, pc, -, hedits⟩ := thread_edits hb
    refine (hedits.loops i).imp (fun ho => ho.trans ?_) And.right
    rw [setThread_self]
  · obtain ⟨inbox, batch, n, hi⟩ := step_told (fun b hb => ha ⟨b, hb⟩) h
    exact .inl (by rw [hi])

/-- The event loops that are gone are those of threads that have ended. -/
def ClosedLast (s : Instance S w α) : Prop := ∀ t, (s.threads t).isOpen = false → (s.threads t).pc.isEnded = true

theorem ClosedLast.step (h : ClosedLast s) {a : Action α} (hst : s.step cfg a = some s') : ClosedLast s' := by
  intro i hshut
  rcases step_loops hst i with hi | hended
  · have hended := h i (hi.symm.trans hshut)
    by_cases ha : ∃ b, a = .thread i b
    · obtain ⟨b, rfl⟩ := ha
      obtain ⟨-, -, hb⟩ := step_thread hst
      rw [threadStep_ended hended] at hb
      cases hb
    · rw [(step_told (fun b hb => ha ⟨b, hb⟩) hst).pc]
      exact hended
  · exact hended

/-- **Nothing runs on a thread whose event loop is gone.** -/
theorem closedLast_reach (h : (mioco S w α cfg bound).Reach System.anyStep s) : ClosedLast s := by
  refine h.invariant ClosedLast (fun s hs => ?_) (fun _ _ _ hs _ hst => hs.step hst)
  cases (show s = start S w bound from hs)
  intro t ht
  have hopen : ((start S w bound : Instance S w α).threads t).isOpen = true := by
    simp only [start, Function.update_apply]
    split <;> constructor
  rw [hopen] at ht
  cases ht

end Instance
end Mioco

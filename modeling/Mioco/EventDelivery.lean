import Mioco.Frame
/-!
# Delivering an event (src/thread.rs, src/coroutine.rs)

`Handler::ready` and `CoroutineSlabHandle::event` as one run of the event-loop thread: up to `unblock`, through
`deregister_all`, to the call of the scheduler.
-/
namespace Mioco

open Lib (System)

namespace Instance
variable {S : Sched} {w : Nat} {α : Type}

/-- Thread `t` takes these steps, one after the other. -/
def runThread (cfg : Config) (t : Nat) : List (ThreadAct α) → Instance S w α → Option (Instance S w α)
  | [], s => some s
  | a :: as, s => match s.threadStep cfg t a with | some s' => runThread cfg t as s' | none => none

theorem runThread_append (cfg : Config) (t : Nat) : ∀ (as bs : List (ThreadAct α)) (s : Instance S w α),
    runThread cfg t (as ++ bs) s = (runThread cfg t as s).bind (runThread cfg t bs)
  | [], _, _ => rfl
  | a :: as, bs, s => by
    simp only [List.cons_append, runThread]
    cases s.threadStep cfg t a with
    | none => rfl
    | some s' => exact runThread_append cfg t as bs s'

/-! ## `deregister_all` -/

theorem filter_of_forall {β : Type} {o : Option β} {p : β → Bool} (h : ∀ x, o = some x → p x = true) :
    o.filter p = o := by
  cases o with
  | none => rfl
  | some x => exact Option.filter_some_pos (h x rfl)

/-- Some timer of the list holds this handle. -/
def clears (timeouts : Nat → Option (Nat × Nat)) (l : List Src) (slot tick : Nat) : Bool :=
  l.any (fun src => match src with | .timer n => decide (timeouts n = some (slot, tick)) | _ => false)

/-- What `deregister_all` leaves of the registrations of these sources. -/
def deregisterAll (s : Instance S w α) (t : Nat) (l : List Src) : Instance S w α :=
  { s with chans := fun ch => if Src.recv ch ∈ l then (s.chans ch).deregister else s.chans ch }.setThread t
    { s.threads t with
      ios := fun n => if Src.io n ∈ l then none else (s.threads t).ios n
      wheel := fun slot => ((s.threads t).wheel slot).filter (fun e => !clears s.timeouts l slot e.1) }

/-- The mio sources of the list are registered with the event loop, each for one entry of the list. -/
def IosRegistered (th : Thread S α) (l : List Src) : Prop :=
  ∀ n, l.count (.io n) ≤ if (th.ios n).isSome then 1 else 0

theorem clears_cons (timeouts : Nat → Option (Nat × Nat)) (src : Src) (l : List Src) (slot tick : Nat) :
    clears timeouts (src :: l) slot tick =
      ((match src with | .timer n => decide (timeouts n = some (slot, tick)) | _ => false) ||
        clears timeouts l slot tick) := rfl

/-- The three tables `deregister_all` writes to. -/
theorem deregisterAll_congr {s s' : Instance S w α} {t : Nat} {l : List Src} (hs : s' = { s with
      chans := s'.chans, threads := Function.update s.threads t { s.threads t with
        ios := (s'.threads t).ios, wheel := (s'.threads t).wheel } })
    (hchans : s'.chans = fun ch => if Src.recv ch ∈ l then (s.chans ch).deregister else s.chans ch)
    (hios : (s'.threads t).ios = fun n => if Src.io n ∈ l then none else (s.threads t).ios n)
    (hwheel : (s'.threads t).wheel =
      fun slot => ((s.threads t).wheel slot).filter (fun e => !clears s.timeouts l slot e.1)) :
    s' = s.deregisterAll t l := by
  rw [hs, hchans, hios, hwheel]
  rfl

theorem deregisterAll_nil (s : Instance S w α) (t : Nat) : s.deregisterAll t [] = s := by
  refine (deregisterAll_congr ?_ ?_ ?_ ?_).symm
  · rw [Function.update_eq_self]
  · funext ch
    simp
  · funext n
    simp
  · funext slot
    cases (s.threads t).wheel slot <;> rfl

/-- **`clear_timeout`** empties the slot of the handle, if its tick is the handle's. -/
theorem clearTimeout_wheel (s : Instance S w α) (t : Nat) (timeout : Option (Nat × Nat)) :
    s.clearTimeout t timeout = s.setThread t { s.threads t with
      wheel := fun slot => ((s.threads t).wheel slot).filter (fun e => !decide (timeout = some (slot, e.1))) } := by
  have hkeep : ∀ wheel, wheel = (s.threads t).wheel → s = s.setThread t { s.threads t with wheel := wheel } := by
    rintro wheel rfl
    simp [setThread]
  cases timeout with
  | none => exact hkeep _ (funext fun slot => filter_of_forall (fun e _ => by simp))
  | some e =>
    obtain ⟨slot₀, tick⟩ := e
    have hother : ∀ slot, slot ≠ slot₀ → ((s.threads t).wheel slot).filter
        (fun e => !decide (some (slot₀, tick) = some (slot, e.1))) = (s.threads t).wheel slot :=
      fun slot hs => filter_of_forall (fun e _ => by simp [Ne.symm hs])
    simp only [clearTimeout]
    split
    · rename_i hany
      obtain ⟨e, he, htick⟩ := (Option.any_eq_true _ _).1 hany
      congr 2
      funext slot
      by_cases hs : slot = slot₀
      · subst hs
        rw [Function.update_self, he]
        exact (Option.filter_some_neg (by simpa using (of_decide_eq_true htick).symm)).symm
      · rw [Function.update_of_ne hs, hother slot hs]
    · rename_i hany
      refine hkeep _ (funext fun slot => ?_)
      by_cases hs : slot = slot₀
      · subst hs
        refine filter_of_forall (fun e he => ?_)
        have : e.1 ≠ tick := fun ht => hany ((Option.any_eq_true _ _).2 ⟨e, he, decide_eq_true ht⟩)
        simpa using Ne.symm this
      · exact hother slot hs

/-- The tables after `deregister_all`, where one thread was edited before it. -/
theorem deregisterAll_setThread (s : Instance S w α) (t : Nat) (l : List Src) (ios : Nat → Option Reg)
    (wheel : Nat → Option (Nat × Reg)) :
    (s.setThread t { s.threads t with ios := ios, wheel := wheel }).deregisterAll t l =
      { s with
        chans := fun ch => if Src.recv ch ∈ l then (s.chans ch).deregister else s.chans ch
        threads := Function.update s.threads t { s.threads t with
          ios := fun n => if Src.io n ∈ l then none else ios n
          wheel := fun slot => (wheel slot).filter (fun e => !clears s.timeouts l slot e.1) } } := by
  simp only [deregisterAll, setThread, Function.update_idem, Function.update_self]

theorem deregisterAll_cons (s : Instance S w α) (t : Nat) (src : Src) (rest : List Src)
    (h : ∀ n, src = .io n → ((s.threads t).ios n).isSome = true) :
    (s.deregisterSrc t src).deregisterAll t rest = s.deregisterAll t (src :: rest) := by
  cases src with
  | recv ch =>
    refine deregisterAll_congr ?_ ?_ ?_ ?_
    · simp [deregisterAll, deregisterSrc, setChan, setThread]
    · funext ch'
      by_cases hc : ch' = ch
      · subst hc
        simp [deregisterAll, deregisterSrc, setChan, setThread, Chan.deregister]
      · simp [deregisterAll, deregisterSrc, setChan, setThread, hc]
    · funext n
      simp [deregisterAll, deregisterSrc, setChan, setThread]
    · funext slot
      simp [deregisterAll, deregisterSrc, setChan, setThread, clears_cons]
  | timer n =>
    rw [deregisterSrc, clearTimeout_wheel, deregisterAll_setThread]
    refine deregisterAll_congr ?_ ?_ ?_ ?_
    · simp
    · simp
    · simp
    · funext slot
      simp [Option.filter_filter, clears_cons]
  | io n =>
    have hclear : s.deregisterSrc t (.io n) = s.setThread t { s.threads t with
        ios := Function.update (s.threads t).ios n none, wheel := (s.threads t).wheel } := by
      rw [deregisterSrc, if_pos (h n rfl)]
    rw [hclear, deregisterAll_setThread]
    refine deregisterAll_congr ?_ ?_ ?_ ?_
    · simp
    · simp
    · funext n'
      by_cases hn : n' = n
      · subst hn
        simp
      · simp [hn]
    · funext slot
      simp [clears_cons]

/-- One source is deregistered; a mio source that is not registered ends the thread. -/
theorem deregister_step {cfg : Config} {s : Instance S w α} {t c : Nat} {next : AfterDeregister} {src : Src}
    {rest : List Src} (hpc : (s.threads t).pc = .deregister c next) (hl : (s.cos c).blockedOn = src :: rest) :
    s.threadStep cfg t .next = some ((s.setCo c { s.cos c with blockedOn := rest }).deregisterSrc t src) := by
  simp only [threadStep, hpc, deregister, hl]

theorem deregisterSrc_cos (s : Instance S w α) (t : Nat) (src : Src) : (s.deregisterSrc t src).cos = s.cos := by
  cases src with
  | recv ch => rfl
  | timer n => rw [deregisterSrc, clearTimeout_wheel]; rfl
  | io n =>
    rw [deregisterSrc]
    split <;> rfl

theorem deregisterSrc_setCo (s : Instance S w α) (t c : Nat) (src : Src) (co : Coroutine) :
    (s.deregisterSrc t src).setCo c co = (s.setCo c co).deregisterSrc t src := by
  cases src with
  | recv ch => rfl
  | timer n => simp only [deregisterSrc, clearTimeout_wheel]; rfl
  | io n =>
    by_cases h : ((s.threads t).ios n).isSome = true
    · have h' : (((s.setCo c co).threads t).ios n).isSome = true := h
      rw [deregisterSrc, deregisterSrc, if_pos h, if_pos h']
      rfl
    · have h' : ¬ (((s.setCo c co).threads t).ios n).isSome = true := h
      rw [deregisterSrc, deregisterSrc, if_neg h, if_neg h']
      rfl

theorem setCo_setCo (s : Instance S w α) (c : Nat) (co co' : Coroutine) : (s.setCo c co).setCo c co' = s.setCo c co' := by
  simp only [setCo, Function.update_idem]

/-- What a source that is not a stray mio source leaves of its thread. -/
theorem deregisterSrc_thread {s : Instance S w α} {t : Nat} {src : Src}
    (h : ∀ n, src = .io n → ((s.threads t).ios n).isSome = true) :
    ((s.deregisterSrc t src).threads t).pc = (s.threads t).pc ∧
      ((s.deregisterSrc t src).threads t).ios = fun n => if src = .io n then none else (s.threads t).ios n := by
  cases src with
  | recv ch => exact ⟨rfl, funext fun n => by simp [deregisterSrc, setChan]⟩
  | timer n =>
    rw [deregisterSrc, clearTimeout_wheel]
    exact ⟨by simp, funext fun n => by simp⟩
  | io n =>
    rw [deregisterSrc, if_pos (h n rfl)]
    refine ⟨by simp, funext fun n' => ?_⟩
    by_cases hn : n' = n
    · subst hn
      simp
    · simp [hn, Ne.symm hn]

theorem IosRegistered.head {th : Thread S α} {src : Src} {rest : List Src} (h : IosRegistered th (src :: rest)) {n : Nat}
    (hn : src = .io n) : (th.ios n).isSome = true := by
  have := h n
  rw [hn, List.count_cons_self] at this
  split at this
  · assumption
  · omega

/-- The sources after the first are registered once it is gone, exactly when it was not one of them. -/
theorem iosRegistered_cons {th th' : Thread S α} {src : Src} {rest : List Src}
    (h : ∀ n, src = .io n → (th.ios n).isSome = true)
    (hios : th'.ios = fun n => if src = .io n then none else th.ios n) :
    IosRegistered th' rest ↔ IosRegistered th (src :: rest) := by
  refine forall_congr' (fun n => ?_)
  have hn : th'.ios n = if src = .io n then none else th.ios n := congrFun hios n
  rw [hn]
  by_cases hn : src = .io n
  · rw [if_pos hn, hn, List.count_cons_self, if_pos (h n hn)]
    simp
  · rw [if_neg hn, List.count_cons_of_ne hn]

/-- **`deregister_all`** runs through where its mio sources are registered. -/
theorem deregisterAll_run (cfg : Config) {t c : Nat} {next : AfterDeregister} : ∀ (l : List Src) (s : Instance S w α),
    (s.threads t).pc = .deregister c next → (s.cos c).blockedOn = l → IosRegistered (s.threads t) l →
      runThread cfg t (List.replicate l.length .next) s =
        some ((s.setCo c { s.cos c with blockedOn := [] }).deregisterAll t l)
  | [], s, _, hl, _ => by
    have hco : { s.cos c with blockedOn := [] } = s.cos c := by rw [← hl]
    rw [deregisterAll_nil, hco, setCo, Function.update_eq_self]
    rfl
  | src :: rest, s, hpc, hl, hios => by
    have hin : ∀ n, src = .io n → (((s.setCo c { s.cos c with blockedOn := rest }).threads t).ios n).isSome = true :=
      fun n hn => hios.head hn
    obtain ⟨h1, h2⟩ := deregisterSrc_thread hin
    rw [List.length_cons, List.replicate_succ, runThread, deregister_step hpc hl]
    have ih := deregisterAll_run cfg rest ((s.setCo c { s.cos c with blockedOn := rest }).deregisterSrc t src)
      (h1.trans hpc) (by rw [deregisterSrc_cos, setCo_self]) ((iosRegistered_cons hin h2).2 hios)
    rw [deregisterSrc_cos, setCo_self, deregisterSrc_setCo, setCo_setCo] at ih
    exact ih.trans (congrArg some (deregisterAll_cons _ t src rest hin))

/-- **It panics where one of them is not.** -/
theorem deregisterAll_fails (cfg : Config) {t c : Nat} {next : AfterDeregister} :
    ∀ (l : List Src) (s : Instance S w α), (s.threads t).pc = .deregister c next → (s.cos c).blockedOn = l →
      ¬ IosRegistered (s.threads t) l → runThread cfg t (List.replicate (l.length + 1) .next) s = none
  | [], s, _, _, h => by
    exact absurd (fun n => (by simp)) h
  | src :: rest, s, hpc, hl, h => by
    rw [List.length_cons, List.replicate_succ, runThread, deregister_step hpc hl]
    by_cases hin : ∀ n, src = .io n → (((s.setCo c { s.cos c with blockedOn := rest }).threads t).ios n).isSome = true
    · obtain ⟨h1, h2⟩ := deregisterSrc_thread hin
      exact deregisterAll_fails cfg rest _ (h1.trans hpc) (by rw [deregisterSrc_cos, setCo_self])
        (fun hi => h ((iosRegistered_cons hin h2).1 hi))
    · simp only [not_forall, exists_prop] at hin
      obtain ⟨n, rfl, hn⟩ := hin
      have hpanic : (((s.setCo c { s.cos c with blockedOn := rest }).deregisterSrc t (.io n)).threads t).pc =
          .panicked .mioFailed := by
        rw [deregisterSrc, if_neg hn]
        simp [panic]
      simp only [List.replicate_succ, runThread, threadStep, hpanic]

/-! ## `event` -/

/-- The coroutine an event is for, if it is there and Blocked. -/
def addressee (s : Instance S w α) (t token : Nat) : Option Nat :=
  ((s.threads t).coroutines.get (tokenToIds token).1).filter (fun c => decide ((s.cos c).state = .blocked))

/-- None of the registrations of this source is left. -/
def Unregistered (s : Instance S w α) (t : Nat) : Src → Prop
  | .recv ch => (s.chans ch).token = none ∧ (s.chans ch).sender = none
  | .timer n => ∀ slot tick r, s.timeouts n = some (slot, tick) → (s.threads t).wheel slot ≠ some (tick, r)
  | .io n => (s.threads t).ios n = none

theorem clears_of_mem {timeouts : Nat → Option (Nat × Nat)} {l : List Src} {n slot tick : Nat} (h : Src.timer n ∈ l)
    (hn : timeouts n = some (slot, tick)) : clears timeouts l slot tick = true :=
  List.any_eq_true.2 ⟨.timer n, h, decide_eq_true hn⟩

section edits
variable (s : Instance S w α) (t : Nat) (l : List Src) (k : Callback) (h : Option Handle)

theorem deregisterAll_cos : (s.deregisterAll t l).cos = s.cos := rfl
theorem deregisterAll_self : (s.deregisterAll t l).threads t = { s.threads t with
    ios := fun n => if Src.io n ∈ l then none else (s.threads t).ios n
    wheel := fun slot => ((s.threads t).wheel slot).filter (fun e => !clears s.timeouts l slot e.1) } :=
  setThread_self _ _ _
theorem callback_cos : (s.callback t k h).cos = s.cos := rfl
theorem callback_self : (s.callback t k h).threads t = { s.threads t with
    held := (s.threads t).held ++ h.toList
    sched := S.enter k ((s.threads t).held ++ h.toList) (s.threads t).sched
    pc := .call k } := setThread_self _ _ _

theorem unregistered_callback (src : Src) :
    (s.callback t k h).Unregistered t src ↔ s.Unregistered t src := by
  cases src <;> simp only [Unregistered, callback_self] <;> exact Iff.rfl

end edits

theorem deregisterAll_unregistered (s : Instance S w α) (t : Nat) {l : List Src} {src : Src} (h : src ∈ l) :
    (s.deregisterAll t l).Unregistered t src := by
  cases src with
  | recv ch =>
    have hch : (s.deregisterAll t l).chans ch = (s.chans ch).deregister := if_pos h
    rw [Unregistered, hch]
    exact ⟨rfl, rfl⟩
  | timer n =>
    intro slot tick r hn hw
    rw [deregisterAll, setThread_self] at hw
    have hkeep := (Option.filter_eq_some_iff.1 hw).2
    have hclear : clears s.timeouts l slot tick = true := clears_of_mem h hn
    rw [hclear] at hkeep
    cases hkeep
  | io n =>
    rw [Unregistered, deregisterAll, setThread_self]
    exact if_pos h

/-- **An event is delivered**: the coroutine it is for becomes Ready, none of its sources stays registered, and it is
handed to the scheduler, once; without one, nothing happens to any coroutine. -/
def Delivered (cfg : Config) (s : Instance S w α) (t : Nat) (r : Reg) (e : EventSet) : Prop :=
  match s.addressee t r.token with
  | some c => ∃ s', runThread cfg t (List.replicate ((s.cos c).blockedOn.length + 1) .next) (s.ready t r e) = some s' ∧
      (s'.cos c).state = .ready ∧ (s'.cos c).blockedOn = [] ∧
      (∀ src ∈ (s.cos c).blockedOn, s'.Unregistered t src) ∧ (∀ c', c' ≠ c → s'.cos c' = s.cos c') ∧
      (s'.threads t).pc = .call .ready ∧ (s'.threads t).held = (s.threads t).held ++ [Handle.new c] ∧
      (s'.threads t).spawned = (s.threads t).spawned ∧ (s'.threads t).ready = (s.threads t).ready
  | none => (s.ready t r e).cos = s.cos ∧ ((s.ready t r e).threads t).pc.isPanicked = false

theorem addressee_eq_some {s : Instance S w α} {t token c : Nat} : s.addressee t token = some c ↔
    (s.threads t).coroutines.get (tokenToIds token).1 = some c ∧ (s.cos c).state = .blocked := by
  rw [addressee, Option.filter_eq_some_iff, decide_eq_true_iff]

/-- `ready` with nobody to wake. -/
theorem ready_none {s : Instance S w α} {t : Nat} {r : Reg} (e : EventSet) (h : s.addressee t r.token = none) :
    (s.ready t r e).cos = s.cos ∧ ((s.ready t r e).threads t).pc.isPanicked = false := by
  rw [ready]
  split
  · exact ⟨rfl, by simp [setPc, Pc.isPanicked]⟩
  · rename_i c hget
    have hb : ¬ (s.cos c).state = .blocked := fun hb => by
      rw [addressee_eq_some.2 ⟨hget, hb⟩] at h
      cases h
    rw [if_neg hb]
    exact ⟨rfl, by simp [setPc, Pc.isPanicked]⟩

/-- `ready` up to `deregister_all`. -/
theorem ready_some {s : Instance S w α} {t c : Nat} {r : Reg} {e : EventSet} {rw : RW}
    (h : s.addressee t r.token = some c) (he : e.rw = some rw) :
    s.ready t r e = (s.setCo c { s.cos c with
      state := .ready, lastEvent := ⟨(tokenToIds r.token).2, rw⟩, wokenBy := some r }).setPc t (.deregister c .event) := by
  obtain ⟨hget, hb⟩ := addressee_eq_some.1 h
  simp only [ready, hget, if_pos hb, he]

theorem ready_emptyEvent {s : Instance S w α} {t c : Nat} {r : Reg} {e : EventSet}
    (h : s.addressee t r.token = some c) (he : e.rw = none) : s.ready t r e = s.panic t .emptyEvent := by
  obtain ⟨hget, hb⟩ := addressee_eq_some.1 h
  simp only [ready, hget, if_pos hb, he]

theorem not_delivered_emptyEvent (cfg : Config) {s : Instance S w α} {t c : Nat} {r : Reg} {e : EventSet}
    (h : s.addressee t r.token = some c) (he : e.rw = none) : ¬ Delivered cfg s t r e := by
  simp only [Delivered, h, ready_emptyEvent h he]
  rintro ⟨s', hrun, -⟩
  rw [List.replicate_succ, runThread] at hrun
  simp [threadStep, panic] at hrun

/-- The run of `event` from `unblock` to the scheduler. -/
theorem event_run (cfg : Config) {s : Instance S w α} {t c : Nat} (hpc : (s.threads t).pc = .deregister c .event)
    (hios : IosRegistered (s.threads t) (s.cos c).blockedOn) :
    runThread cfg t (List.replicate ((s.cos c).blockedOn.length + 1) .next) s =
      some (((s.setCo c { s.cos c with blockedOn := [] }).deregisterAll t (s.cos c).blockedOn).callback t .ready
        (some (Handle.new c))) := by
  rw [List.replicate_succ', runThread_append, deregisterAll_run cfg _ s hpc rfl hios, Option.bind_some]
  have hpc' : ((((s.setCo c { s.cos c with blockedOn := [] }).deregisterAll t (s.cos c).blockedOn)).threads t).pc =
      .deregister c .event := by
    rw [deregisterAll, setThread_self]
    exact hpc
  have hempty : ((((s.setCo c { s.cos c with blockedOn := [] }).deregisterAll t (s.cos c).blockedOn)).cos c).blockedOn =
      [] := by
    show (((s.setCo c { s.cos c with blockedOn := [] })).cos c).blockedOn = []
    rw [setCo_self]
  simp only [runThread, threadStep, hpc', deregister, hempty, afterDeregister]

/-- What `unblock` changes. -/
theorem ready_blockedOn {s : Instance S w α} {t c : Nat} {r : Reg} {e : EventSet} {rw : RW}
    (h : s.addressee t r.token = some c) (he : e.rw = some rw) :
    ((s.ready t r e).cos c).blockedOn = (s.cos c).blockedOn ∧
      (s.ready t r e).threads t = { s.threads t with pc := .deregister c .event } := by
  rw [ready_some h he]
  exact ⟨by rw [setPc_cos, setCo_self], by rw [setPc, setThread_self, setCo_threads]⟩

theorem not_delivered_unregistered (cfg : Config) {s : Instance S w α} {t c : Nat} {r : Reg} {e : EventSet} {rw : RW}
    (h : s.addressee t r.token = some c) (he : e.rw = some rw) (hios : ¬ IosRegistered (s.threads t) (s.cos c).blockedOn) :
    ¬ Delivered cfg s t r e := by
  obtain ⟨hblocked, hth⟩ := ready_blockedOn h he
  simp only [Delivered, h]
  rintro ⟨s', hrun, -⟩
  have hfails : ¬ IosRegistered ((s.ready t r e).threads t) (s.cos c).blockedOn := by
    rw [hth]
    exact hios
  rw [deregisterAll_fails cfg _ _ (by rw [hth]) hblocked hfails] at hrun
  cases hrun

/-- **An event gets to the scheduler** with the coroutine it is for. -/
theorem delivered_registered (cfg : Config) {s : Instance S w α} {t c : Nat} {r : Reg} {e : EventSet} {rw : RW}
    (h : s.addressee t r.token = some c) (he : e.rw = some rw) (hios : IosRegistered (s.threads t) (s.cos c).blockedOn) :
    Delivered cfg s t r e := by
  obtain ⟨hblocked, hth⟩ := ready_blockedOn h he
  have hrun := event_run cfg (s := s.ready t r e) (t := t) (c := c) (by rw [hth]) (by rw [hblocked, hth]; exact hios)
  rw [hblocked] at hrun
  have hco : ∀ c', (((s.ready t r e).setCo c { (s.ready t r e).cos c with blockedOn := [] }).cos c') =
      if c' = c then { (s.ready t r e).cos c with blockedOn := [] } else s.cos c' := by
    intro c'
    rw [cos_setCo]
    split
    · rfl
    · rename_i hc
      rw [ready_some h he, setPc_cos, setCo_ne _ _ hc]
  have hstate : ((s.ready t r e).cos c).state = .ready := by rw [ready_some h he, setPc_cos, setCo_self]
  simp only [Delivered, h]
  refine ⟨_, hrun, ?_, ?_, ?_, ?_, ?_, ?_, ?_, ?_⟩
  · rw [callback_cos, deregisterAll_cos, hco, if_pos rfl]
    exact hstate
  · rw [callback_cos, deregisterAll_cos, hco, if_pos rfl]
  · intro src hsrc
    exact (unregistered_callback _ t .ready _ src).2 (deregisterAll_unregistered _ t hsrc)
  · intro c' hc
    rw [callback_cos, deregisterAll_cos, hco, if_neg hc]
  · rw [callback_self]
  all_goals rw [callback_self, deregisterAll_self, setCo_threads, hth]
  rfl

/-- **When delivering an event does not panic**: it names a kind of readiness, and the mio sources of the coroutine it
is for are registered. -/
theorem delivered_iff (cfg : Config) (s : Instance S w α) (t : Nat) (r : Reg) (e : EventSet) :
    Delivered cfg s t r e ↔ ∀ c, s.addressee t r.token = some c →
      e.rw.isSome = true ∧ IosRegistered (s.threads t) (s.cos c).blockedOn := by
  cases hadd : s.addressee t r.token with
  | none =>
    simp only [Delivered, hadd, reduceCtorEq, false_imp_iff, implies_true, iff_true]
    exact ready_none e hadd
  | some c =>
    simp only [Option.some.injEq, forall_eq']
    cases he : e.rw with
    | none => exact ⟨fun h => (not_delivered_emptyEvent cfg hadd he h).elim, fun h => by cases h.1⟩
    | some rw =>
      refine ⟨fun h => ⟨rfl, ?_⟩, fun h => delivered_registered cfg hadd he h.2⟩
      by_contra hios
      exact not_delivered_unregistered cfg hadd he hios h

/-- The first coroutine blocks on a mio source for writing, and the operating system reports an error. -/
def writerError : List (Action Unit) :=
  [.thread 0 .start, .thread 0 (.sched 0), .thread 0 .next, .thread 0 (.sched 0),
    .thread 0 (.user (.select [(.io 0, RW.ofWrite)])), .thread 0 (.register false 0 0), .thread 0 .next, .thread 0 .next,
    .thread 0 (.sched 0), .thread 0 .next, .thread 0 .next, .thread 0 .next, .ioReady 0 0 ⟨false, false, false, true⟩]

/-- **It panics on an error alone.** -/
theorem error_not_delivered : ∃ s : Instance fifo 64 Unit,
    System.Reach (mioco fifo 64 Unit ⟨1, true⟩ (fun _ => none)) System.anyStep s ∧ (s.threads 0).pc = .poll ∧ ∃ r e,
      (s.threads 0).batch = [(r, e)] ∧ e.isNone = false ∧ ¬ Delivered ⟨1, true⟩ s 0 r e ∧
        ((s.ready 0 r e).threads 0).pc = .panicked .emptyEvent := by
  have h0 : System.Reach (mioco fifo 64 Unit ⟨1, true⟩ (fun _ => none)) System.anyStep (.start fifo 64 (fun _ => none)) :=
    .init rfl
  have hsome : ((mioco fifo 64 Unit ⟨1, true⟩ (fun _ => none)).exec writerError (.start fifo 64 (fun _ => none))).any
      (fun s => decide ((s.threads 0).pc = .poll ∧ (s.threads 0).batch =
        [(⟨tokenFromIds 1 0, 0, 1, .io 0, 0⟩, ⟨false, false, false, true⟩)] ∧
          s.addressee 0 (tokenFromIds 1 0) = some 0)) = true := by
    decide +kernel
  obtain ⟨s, hs, h⟩ := (Option.any_eq_true _ _).1 hsome
  obtain ⟨hpc, hbatch, hadd⟩ := of_decide_eq_true h
  have hready := ready_emptyEvent (r := ⟨tokenFromIds 1 0, 0, 1, .io 0, 0⟩) (e := ⟨false, false, false, true⟩) hadd rfl
  refine ⟨s, System.reach_exec_of_forall writerError _ s h0 (fun _ _ _ => trivial) hs, hpc, _, _, hbatch, rfl,
    not_delivered_emptyEvent _ hadd rfl, ?_⟩
  rw [hready, panic, setThread_self]

end Instance
end Mioco
